import PagedMemory.Proofs.User.Slices

namespace PagedMemory

-- Stores bytes one by one, each where a lookup at that moment finds its address.
def PageTable.storeEach (table : PageTable) : Nat → List UInt8 → Memory → Except Fault Memory
  | _, [], memory => return memory
  | n, v :: values, memory => do
      match ← table.translateAddr? (.ofNat n) memory with
      | none => .error .sliceUnmapped
      | some a =>
          memory.reach a
          table.storeEach (n + 1) values (memory.write a [v])

namespace UserRange

variable {range : UserRange} {memory memory' memory'' : Memory} {n m : Nat} {entry : Entry}
  {v : UInt8} {values : List UInt8} {place : PhysAddr} {a start length : UInt64}

-- Contents of memory are compared here and never computed.
attribute [local irreducible] Memory.frame

-- A range that can be written to: no page of it lies in a node that a lookup in it visits.
structure Writable (range : UserRange) (memory : Memory) : Prop extends range.Backed memory where
  apart : ∀ n m entry, range.Holds n → range.Holds m →
    range.table.translate? (.ofNat (n / 4096)) memory = .ok (some entry) →
      entry.page ∉ range.table.walk (.ofNat (m / 4096)) memory

-- Memories in which all lookups in a range visit the same nodes.
structure SameLookups (range : UserRange) (memory memory' : Memory) : Prop where
  frames : memory'.frames = memory.frames
  nodes : ∀ n, range.Holds n → ∀ node ∈ range.table.walk (.ofNat (n / 4096)) memory,
    memory'.frame node = memory.frame node

namespace SameLookups

theorem refl (range : UserRange) (memory : Memory) : range.SameLookups memory memory :=
  ⟨rfl, fun _ _ _ _ => rfl⟩

theorem walk_eq (h : range.SameLookups memory memory') (hn : range.Holds n) :
    range.table.walk (.ofNat (n / 4096)) memory' = range.table.walk (.ofNat (n / 4096)) memory :=
  PageTable.walk_congr (h.nodes n hn)

theorem translate?_eq (h : range.SameLookups memory memory') (hn : range.Holds n) :
    range.table.translate? (.ofNat (n / 4096)) memory' =
      range.table.translate? (.ofNat (n / 4096)) memory :=
  PageTable.translate?_congr h.frames (h.nodes n hn)

theorem trans (h : range.SameLookups memory memory') (h' : range.SameLookups memory' memory'') :
    range.SameLookups memory memory'' := by
  refine ⟨h'.frames.trans h.frames, fun n hn node hnode => ?_⟩
  rw [h'.nodes n hn node (by rwa [h.walk_eq hn]), h.nodes n hn node hnode]

theorem translateAddr?_eq (h : range.SameLookups memory memory') (hn : range.Holds n) :
    range.table.translateAddr? (.ofNat n) memory' = range.table.translateAddr? (.ofNat n) memory := by
  rw [PageTable.translateAddr?, PageTable.translateAddr?, VirtAddr.page_ofNat_div,
    h.translate?_eq hn]

theorem writable (h : range.SameLookups memory memory') (hwritable : range.Writable memory) :
    range.Writable memory' := by
  refine ⟨⟨hwritable.last, fun n hn => ?_⟩, fun n m entry hn hm hentry => ?_⟩
  · rw [h.translate?_eq hn, h.frames]
    exact hwritable.leaf n hn
  · rw [h.translate?_eq hn] at hentry
    rw [h.walk_eq hm]
    exact hwritable.apart n m entry hn hm hentry

end SameLookups

-- Bytes written to a frame of the range do not change what its lookups visit.
theorem Writable.sameLookups (h : range.Writable memory) (values : List UInt8) (hn : range.Holds n)
    (hentry : range.table.translate? (.ofNat (n / 4096)) memory = .ok (some entry))
    (hfit : n % 4096 + values.length ≤ 4096) :
    range.SameLookups memory (memory.write (entry.page.base + n % 4096) values) := by
  have hvalue : (entry.page.base + n % 4096).value = entry.page.number * 4096 + n % 4096 :=
    PhysPage.value_base_add (Nat.mod_lt n (by decide))
  refine ⟨Memory.frames_write _ _ _, fun m hm node hnode => ?_⟩
  refine Memory.frame_write_other (by omega) (by omega) fun heq : node = entry.page => ?_
  exact h.apart n m entry hn hm hentry (heq ▸ hnode)

theorem Backed.exists_place (h : range.Backed memory) (hn : range.Holds n) : ∃ entry,
    range.table.translate? (.ofNat (n / 4096)) memory = .ok (some entry) ∧
      range.table.translateAddr? (.ofNat n) memory =
        .ok (some (entry.page.base + n % 4096)) ∧
      (entry.page.base + n % 4096).value < memory.size := by
  obtain ⟨entry, hentry, hwindow⟩ := h.leaf n hn
  refine ⟨entry, hentry, PageTable.translateAddr?_of_translate? hentry, ?_⟩
  have hsize := Memory.base_add_le_size hwindow
  have hmod := Nat.mod_lt n (show 0 < 4096 by decide)
  rw [PhysPage.value_base_add hmod]
  omega

theorem storeEach_cons (hplace : range.table.translateAddr? (.ofNat n) memory = .ok (some place))
    (hsize : place.value < memory.size) : range.table.storeEach n (v :: values) memory =
      range.table.storeEach (n + 1) values (memory.write place [v]) := by
  have hreach : memory.reach place = .ok () := if_pos hsize
  rw [PageTable.storeEach, hplace]
  simp only [bind, Except.bind, hreach]

theorem storeEach_append (table : PageTable) (n : Nat) (values values' : List UInt8)
    (memory : Memory) : table.storeEach n (values ++ values') memory =
      table.storeEach n values memory >>= table.storeEach (n + values.length) values' := by
  induction values generalizing n memory with
  | nil => rfl
  | cons v values ih =>
      rw [List.cons_append, PageTable.storeEach, PageTable.storeEach, bind_assoc]
      refine bind_congr fun place? => ?_
      cases place? with
      | none => rfl
      | some place =>
          rw [bind_assoc]
          refine bind_congr fun _ => ?_
          rw [ih, List.length_cons, Nat.add_assoc, Nat.add_comm 1]

-- One step of the loop that copies into slices. A slice is looked up even if no bytes are left for it.

theorem run_copyInto_zero {addresses : List UInt64} {slice : FrameSlice} {source : List UInt8}
    {log : List LogEntry} (hslice : range.sliceAt a memory = .ok slice) :
    (range.copyInto (a :: addresses) 0 source).run ⟨memory, log⟩ = .ok 0 ⟨memory, log⟩ := by
  have hinspect : (Machine.inspect (range.sliceAt a)).run ⟨memory, log⟩ = .ok slice ⟨memory, log⟩ :=
    Machine.run_inspect_ok hslice
  rw [copyInto, Action.run_bind_ok hinspect, if_pos rfl]
  rfl

theorem run_copyInto_cons {addresses : List UInt64} {slice : FrameSlice} {source : List UInt8}
    {log : List LogEntry} {left : Nat} (hslice : range.sliceAt a memory = .ok slice)
    (hleft : left ≠ 0) : (range.copyInto (a :: addresses) left source).run ⟨memory, log⟩ =
      (do
        let more ← range.copyInto addresses (left - min slice.size left)
          (source.drop (min slice.size left))
        return min slice.size left + more : Action Machine Nat).run
      ⟨memory.write slice.start (source.take (min slice.size left)), log⟩ := by
  have hinspect : (Machine.inspect (range.sliceAt a)).run ⟨memory, log⟩ = .ok slice ⟨memory, log⟩ :=
    Machine.run_inspect_ok hslice
  rw [copyInto, Action.run_bind_ok hinspect, if_neg hleft,
    Action.run_bind_ok (Machine.run_change _ _)]

namespace Writable

-- Storing bytes in a range succeeds, keeps its lookups, and touches no byte but those of the range.
theorem exists_storeEach (h : range.Writable memory) (values : List UInt8)
    (hstart : range.start.toNat ≤ n) (hstop : n + values.length ≤ range.stop.toNat) : ∃ memory',
    range.table.storeEach n values memory = .ok memory' ∧ range.SameLookups memory memory' ∧
      ∀ b, (∀ i < values.length,
        range.table.translateAddr? (.ofNat (n + i)) memory ≠ .ok (some b)) →
          memory'.byte b = memory.byte b := by
  induction values generalizing n memory with
  | nil => exact ⟨memory, rfl, .refl range memory, fun _ _ => rfl⟩
  | cons v values ih =>
      rw [List.length_cons] at hstop
      have hn : range.Holds n := ⟨hstart, by omega⟩
      obtain ⟨entry, hentry, hplace, hsize⟩ := h.exists_place hn
      have hsame := h.sameLookups [v] hn hentry (Nat.mod_lt n (by decide))
      obtain ⟨memory', hrest, hsame', hother⟩ :=
        ih (n := n + 1) (hsame.writable h) (by omega) (by omega)
      refine ⟨memory', (storeEach_cons hplace hsize).trans hrest, hsame.trans hsame',
        fun b hb => ?_⟩
      rw [hother b fun i hi => ?_, Memory.byte_write_other]
      · rintro rfl
        exact hb 0 (Nat.succ_pos _) hplace
      · rw [hsame.translateAddr?_eq ⟨by omega, by omega⟩, Nat.add_right_comm n 1 i]
        exact hb (i + 1) (Nat.succ_lt_succ hi)

-- What was stored is found again, if no two bytes have the same place.
theorem byte_of_storeEach (h : range.Writable memory) (hstart : range.start.toNat ≤ n)
    (hstop : n + values.length ≤ range.stop.toNat)
    (hdistinct : ∀ i j, i < j → j < values.length →
      range.table.translateAddr? (.ofNat (n + i)) memory ≠
        range.table.translateAddr? (.ofNat (n + j)) memory)
    (hstored : range.table.storeEach n values memory = .ok memory') :
    ∀ i < values.length, ∀ b, range.table.translateAddr? (.ofNat (n + i)) memory = .ok (some b) →
      values[i]? = some (memory'.byte b) := by
  induction values generalizing n memory with
  | nil => exact fun i hi => absurd hi (Nat.not_lt_zero i)
  | cons v values ih =>
      rw [List.length_cons] at hstop
      have hn : range.Holds n := ⟨hstart, by omega⟩
      obtain ⟨entry, hentry, hplace, hsize⟩ := h.exists_place hn
      have hsame := h.sameLookups [v] hn hentry (Nat.mod_lt n (by decide))
      have hwritable := hsame.writable h
      rw [storeEach_cons hplace hsize] at hstored
      have hsucc : ∀ i < values.length,
          range.table.translateAddr? (.ofNat (n + 1 + i))
              (memory.write (entry.page.base + n % 4096) [v]) =
            range.table.translateAddr? (.ofNat (n + (i + 1))) memory := fun i hi => by
        rw [hsame.translateAddr?_eq ⟨by omega, by omega⟩, Nat.add_assoc, Nat.add_comm 1]
      intro i hi b hb
      cases i with
      | zero =>
          cases hplace.symm.trans hb
          obtain ⟨stored, hstored', -, hother⟩ :=
            hwritable.exists_storeEach (n := n + 1) values (by omega) (by omega)
          cases hstored.symm.trans hstored'
          rw [hother _ fun i hi => ?_, Memory.byte_write_same hsize, List.getElem?_cons_zero]
          rw [hsucc i hi, ← hplace]
          exact (hdistinct 0 (i + 1) (Nat.succ_pos i) (Nat.succ_lt_succ hi)).symm
      | succ i =>
          have hi' := Nat.lt_of_succ_lt_succ hi
          rw [List.getElem?_cons_succ]
          refine ih hwritable (by omega) (by omega) (fun i j hij hj => ?_) hstored i hi' b ?_
          · rw [hsucc i (Nat.lt_trans hij hj), hsucc j hj]
            exact hdistinct (i + 1) (j + 1) (Nat.succ_lt_succ hij) (Nat.succ_lt_succ hj)
          · rwa [hsucc i hi']

-- Bytes of one page are stored by one write.
theorem storeEach_of_page (h : range.Writable memory) (values : List UInt8) (hn : range.Holds n)
    (hentry : range.table.translate? (.ofNat (n / 4096)) memory = .ok (some entry))
    (hfit : n % 4096 + values.length ≤ 4096) (hstop : n + values.length ≤ range.stop.toNat) :
    range.table.storeEach n values memory =
      .ok (memory.write (entry.page.base + n % 4096) values) := by
  induction values generalizing n memory with
  | nil =>
      cases memory
      rfl
  | cons v values ih =>
      rw [List.length_cons] at hfit hstop
      obtain ⟨entry', hentry', hplace, hsize⟩ := h.exists_place hn
      cases hentry.symm.trans hentry'
      have hsame := h.sameLookups [v] hn hentry (Nat.mod_lt n (by decide))
      have hpage := entry.page.isLt
      rw [storeEach_cons hplace hsize]
      cases values with
      | nil => rfl
      | cons w values =>
          rw [List.length_cons] at hfit hstop
          have hn' : range.Holds (n + 1) := ⟨Nat.le_succ_of_le hn.1, by omega⟩
          have hdiv : (n + 1) / 4096 = n / 4096 := by omega
          have hmod : (n + 1) % 4096 = n % 4096 + 1 := by omega
          have hvalue : (entry.page.base + n % 4096).value = entry.page.number * 4096 + n % 4096 :=
            PhysPage.value_base_add (Nat.mod_lt n (by decide))
          have hentry' : range.table.translate? (.ofNat ((n + 1) / 4096))
              (memory.write (entry.page.base + n % 4096) [v]) = .ok (some entry) := by
            rw [hsame.translate?_eq hn', hdiv, hentry]
          rw [ih (hsame.writable h) hn' hentry' (by rw [List.length_cons]; omega)
            (by rw [List.length_cons]; omega), hmod, ← PhysAddr.add_add, ← Memory.write_cons]
          exact Or.inr (by omega)

-- What is copied slice by slice is stored byte by byte. The induction is on the pages that are left: a
-- chunk is one write, the lookups after it are those before it.
theorem run_copyInto (h : range.Writable memory) (log : List LogEntry) (left : Nat)
    (source : List UInt8) (hstart : range.start ≤ a) (hstop : a ≤ range.stop)
    (hsource : min left (range.stop.toNat - a.toNat) ≤ source.length) : ∃ memory',
    (range.copyInto (range.startsFrom (pageCount a range.stop) a) left source).run ⟨memory, log⟩ =
        .ok (min left (range.stop.toNat - a.toNat)) ⟨memory', log⟩ ∧
      range.table.storeEach a.toNat (source.take (min left (range.stop.toNat - a.toNat))) memory =
        .ok memory' := by
  generalize hcount : pageCount a range.stop = count
  induction count generalizing a memory left source with
  | zero =>
      have hle := UInt64.le_iff_toNat_le.mp (le_of_pageCount_zero hcount)
      have hnone : min left (range.stop.toNat - a.toNat) = 0 := by omega
      rw [hnone]
      exact ⟨memory, rfl, rfl⟩
  | succ count ih =>
      have hlt := lt_of_pageCount_succ hcount
      have hlast := h.le_lastPage hstart hlt
      obtain ⟨hbefore, hafter⟩ := le_nextStart hlt hlast
      have hnext := toNat_nextStart hlt hlast
      rw [pageCount_nextStart hlt hlast] at hcount
      obtain ⟨entry, hentry, hwindow, hslice⟩ := h.sliceAt_eq hstart hlt
      rw [startsFrom_succ_of_lt count hlt]
      by_cases hleft : left = 0
      · subst hleft
        rw [run_copyInto_zero hslice, Nat.zero_min]
        exact ⟨memory, rfl, rfl⟩
      · rw [run_copyInto_cons hslice hleft]
        generalize hsize : (range.nextStart a).toNat - a.toNat = size
        generalize hchunk : min size left = chunk
        generalize hrest : min (left - chunk) (range.stop.toNat - (range.nextStart a).toNat) = rest
        have hltNat := UInt64.lt_iff_toNat_lt.mp hlt
        have htotal : chunk + rest = min left (range.stop.toNat - a.toNat) := by omega
        have hlength : (source.take chunk).length = chunk := List.length_take_of_le (by omega)
        have hn := holds_toNat hstart hlt
        have hsame := h.sameLookups (source.take chunk) hn hentry (by omega)
        have hstored := h.storeEach_of_page (source.take chunk) hn hentry (by omega) (by omega)
        obtain ⟨memory', hrun, hstored'⟩ := ih (hsame.writable h) (left - chunk)
          (source.drop chunk) (UInt64.le_trans hstart (UInt64.le_of_lt hbefore)) hafter
          (by rw [List.length_drop]; omega) (Nat.succ.inj hcount)
        rw [hrest] at hrun hstored'
        refine ⟨memory', ?_, ?_⟩
        · rw [Action.run_bind_ok hrun, ← htotal]
          rfl
        · rw [← htotal, List.take_add, storeEach_append, hstored, hlength]
          -- Either the chunk goes up to the next slice, or nothing is left.
          obtain hend | hend : a.toNat + chunk = (range.nextStart a).toNat ∨ rest = 0 := by omega
          · rw [hend]
            exact hstored'
          · rw [hend, List.take_zero] at hstored' ⊢
            exact hstored'

end Writable

-- What is loaded from slices is the start of what they contain.
theorem copyFrom_eq {addresses : List UInt64} {slices : List FrameSlice} {left : Nat}
    (h : addresses.mapM (range.sliceAt · memory) = .ok slices) :
    range.copyFrom memory addresses left =
      .ok ((slices.flatMap (·.contents memory)).take left) := by
  induction addresses generalizing slices left with
  | nil =>
      cases h
      simp [copyFrom, pure, Except.pure]
  | cons a addresses ih =>
      rw [List.mapM_cons] at h
      cases hslice : range.sliceAt a memory with
      | error cause =>
          rw [hslice] at h
          cases h
      | ok slice =>
          cases hrest : addresses.mapM (range.sliceAt · memory) with
          | error cause =>
              rw [hslice, hrest] at h
              cases h
          | ok others =>
              rw [hslice, hrest] at h
              cases h
              have hlength : (slice.contents memory).length = slice.size := Bytes.length_read _ _ _
              have hmore : left - min slice.size left = left - slice.size := by omega
              rw [copyFrom, hslice, List.flatMap_cons, List.take_append, hlength,
                FrameSlice.contents, Memory.take_read, ← hmore]
              by_cases hleft : left = 0
              · subst hleft
                simp [Memory.read, Bytes.read, bind, Except.bind, pure, Except.pure]
              · simp only [bind, Except.bind, if_neg hleft, ih hrest, pure, Except.pure]

-- The bytes of a range, each read where a lookup finds its address.
def Shows (range : UserRange) (memory : Memory) (bytes : List UInt8) : Prop :=
  ∀ i < bytes.length, ∃ b,
    range.table.translateAddr? (.ofNat (range.start.toNat + i)) memory = .ok (some b) ∧
      bytes[i]? = some (memory.byte b)

theorem Backed.exists_copyIn (h : range.Backed memory) (horder : range.start ≤ range.stop)
    (count : Nat) : ∃ bytes, range.copyIn count memory = .ok bytes ∧
      bytes.length = min count (range.stop.toNat - range.start.toNat) ∧
      range.Shows memory bytes := by
  have hrefl := UInt64.le_refl range.start
  obtain ⟨slices, hmap, hloop, -⟩ := h.exists_loop hrefl horder
  have hlength := hloop.length_addresses h hrefl
  have hcontents := hloop.contents_eq h hrefl
  refine ⟨_, copyFrom_eq hmap, ?_, fun i hi => ?_⟩
  · rw [List.length_take, hcontents, List.length_map, hlength]
  · rw [List.length_take, hcontents, List.length_map, hlength] at hi
    have hget := List.getElem?_eq_getElem (l := slices.flatMap FrameSlice.addresses) (i := i) (by omega)
    refine ⟨_, (hloop.locates h hrefl i (by omega)).trans (congrArg Except.ok hget), ?_⟩
    rw [List.getElem?_take_of_lt (by omega), hcontents, List.getElem?_map, hget, Option.map_some]

theorem Writable.exists_copyOut (h : range.Writable memory) (horder : range.start ≤ range.stop)
    (log : List LogEntry) (count : Nat) (source : List UInt8)
    (hsource : min count (range.stop.toNat - range.start.toNat) ≤ source.length) : ∃ memory',
    (range.copyOut source count).run ⟨memory, log⟩ =
        .ok (min count (range.stop.toNat - range.start.toNat)) ⟨memory', log⟩ ∧
      range.table.storeEach range.start.toNat
          (source.take (min count (range.stop.toNat - range.start.toNat))) memory = .ok memory' ∧
      range.SameLookups memory memory' ∧
      ∀ b, (∀ i < min count (range.stop.toNat - range.start.toNat),
        range.table.translateAddr? (.ofNat (range.start.toNat + i)) memory ≠ .ok (some b)) →
          memory'.byte b = memory.byte b := by
  have hle := UInt64.le_iff_toNat_le.mp horder
  have hlength := List.length_take_of_le hsource
  obtain ⟨memory', hrun, hstored⟩ := h.run_copyInto log count source (UInt64.le_refl _) horder hsource
  obtain ⟨stored, hstored', hsame, hother⟩ := h.exists_storeEach
    (source.take (min count (range.stop.toNat - range.start.toNat))) (Nat.le_refl _) (by omega)
  cases hstored.symm.trans hstored'
  rw [hlength] at hother
  exact ⟨memory', hrun, hstored, hsame, hother⟩

-- Copies to and from an address space check that all bytes were copied, and they were.

theorem run_copyToUser {table : PageTable} {source : List UInt8} {log : List LogEntry}
    (hmade : ofMapped table start length memory = .ok range)
    (hlength : source.length = length.toNat)
    (hrun : (range.copyOut source source.length).run ⟨memory, log⟩ =
      .ok source.length ⟨memory', log⟩) :
    (table.copyToUser start source).run ⟨memory, log⟩ = .ok () ⟨memory', log⟩ := by
  have hmade' : ofMapped table start (UInt64.ofNat source.length) memory = .ok range := by
    rwa [hlength, UInt64.ofNat_toNat]
  have hconsult : (Machine.consult (ofMapped table start (UInt64.ofNat source.length))).run
      ⟨memory, log⟩ = .ok range ⟨memory, log⟩ := Machine.run_consult_ok hmade'
  rw [PageTable.copyToUser, Action.run_bind_ok hconsult, Action.run_bind_ok hrun, if_pos rfl]
  rfl

-- A range that cannot be made ends the copy before its first byte.
theorem run_copyToUser_of_refused {table : PageTable} {source : List UInt8} {stop : Stop}
    (log : List LogEntry)
    (h : ofMapped table start (UInt64.ofNat source.length) memory = .error stop) :
    ∃ log', (table.copyToUser start source).run ⟨memory, log⟩ = .error stop ⟨memory, log'⟩ := by
  obtain ⟨log', hconsult⟩ := Machine.run_consult_error (show ofMapped table start
    (UInt64.ofNat source.length) (Machine.mk memory log).memory = .error stop from h)
  exact ⟨log', Action.run_bind_error hconsult⟩

theorem run_copyFromUser_of_refused {table : PageTable} {stop : Stop} (log : List LogEntry)
    (h : ofMapped table start length memory = .error stop) :
    ∃ log', (table.copyFromUser start length).run ⟨memory, log⟩ = .error stop ⟨memory, log'⟩ := by
  obtain ⟨log', hconsult⟩ := Machine.run_consult_error (show ofMapped table start length
    (Machine.mk memory log).memory = .error stop from h)
  exact ⟨log', Action.run_bind_error hconsult⟩

theorem run_copyFromUser {table : PageTable} {bytes : List UInt8} (log : List LogEntry)
    (hmade : ofMapped table start length memory = .ok range)
    (hrun : range.copyIn length.toNat memory = .ok bytes) (hlength : bytes.length = length.toNat) :
    (table.copyFromUser start length).run ⟨memory, log⟩ = .ok bytes ⟨memory, log⟩ := by
  have hconsult : (Machine.consult (ofMapped table start length)).run ⟨memory, log⟩ =
      .ok range ⟨memory, log⟩ := Machine.run_consult_ok hmade
  have hinspect : (Machine.inspect (range.copyIn length.toNat)).run ⟨memory, log⟩ =
      .ok bytes ⟨memory, log⟩ := Machine.run_inspect_ok hrun
  rw [PageTable.copyFromUser, Action.run_bind_ok hconsult, Action.run_bind_ok hinspect,
    if_pos hlength]
  rfl

theorem ofMapped_of_backed {table : PageTable} (horder : start ≤ start + length)
    (h : (⟨table, start, start + length⟩ : UserRange).Backed memory) :
    ofMapped table start length memory = .ok ⟨table, start, start + length⟩ := by
  refine ofMapped_of_maps horder h.last fun a hstart hstop => ?_
  obtain ⟨entry, hentry, -⟩ := h.leaf a.toNat (holds_toNat hstart hstop)
  exact ⟨entry, pageOf_eq a ▸ hentry⟩

-- The pages of a range are backed by as many frames.
def DistinctFrames (range : UserRange) (memory : Memory) : Prop :=
  ∀ a b entry entry', range.start ≤ a → a < range.stop → range.start ≤ b → b < range.stop →
    range.table.translate? (pageOf a) memory = .ok (some entry) →
    range.table.translate? (pageOf b) memory = .ok (some entry') →
    entry.page = entry'.page → a / 4096 = b / 4096

-- Then no two of its bytes have the same place.
theorem Backed.places_ne (h : range.Backed memory) (hdistinct : range.DistinctFrames memory)
    (hn : range.Holds n) (hm : range.Holds m) (hne : n ≠ m) :
    range.table.translateAddr? (.ofNat n) memory ≠
      range.table.translateAddr? (.ofNat m) memory := by
  obtain ⟨a, hstart, hstop, rfl⟩ := exists_of_holds hn
  obtain ⟨b, hstart', hstop', rfl⟩ := exists_of_holds hm
  obtain ⟨entry, hentry, hplace, -⟩ := h.exists_place hn
  obtain ⟨entry', hentry', hplace', -⟩ := h.exists_place hm
  rw [hplace, hplace', ne_eq, Except.ok.injEq, Option.some.injEq]
  intro heq
  obtain ⟨hframe, hoffset⟩ :=
    PhysPage.base_add_inj (Nat.mod_lt _ (by decide)) (Nat.mod_lt _ (by decide)) heq
  have hsame := congrArg UInt64.toNat (hdistinct a b entry entry' hstart hstop hstart' hstop'
    (pageOf_eq a ▸ hentry) (pageOf_eq b ▸ hentry') hframe)
  rw [UInt64.toNat_div, UInt64.toNat_div, show (4096 : UInt64).toNat = 4096 from rfl] at hsame
  omega

-- What was copied to a range is copied back, if its pages are in different frames.
theorem Writable.copyIn_stored (h : range.Writable memory) (horder : range.start ≤ range.stop)
    (hdistinct : range.DistinctFrames memory)
    (hlength : values.length = range.stop.toNat - range.start.toNat)
    (hstored : range.table.storeEach range.start.toNat values memory = .ok memory')
    (hsame : range.SameLookups memory memory') :
    range.copyIn values.length memory' = .ok values := by
  have hle := UInt64.le_iff_toNat_le.mp horder
  obtain ⟨bytes, hload, hcount, hshows⟩ :=
    (hsame.writable h).exists_copyIn horder values.length
  have hcount' : bytes.length = values.length := by omega
  have hback := h.byte_of_storeEach (Nat.le_refl _) (by omega)
    (fun i j hij hj => h.places_ne hdistinct ⟨by omega, by omega⟩ ⟨by omega, by omega⟩ (by omega))
    hstored
  rw [hload]
  refine congrArg Except.ok (List.ext_getElem? fun i => ?_)
  by_cases hi : i < bytes.length
  · obtain ⟨b, hb, hget⟩ := hshows i hi
    rw [hsame.translateAddr?_eq ⟨by omega, by omega⟩] at hb
    rw [hget, hback i (by omega) b hb]
  · rw [List.getElem?_eq_none (by omega), List.getElem?_eq_none (by omega)]

-- Copying slice by slice comes to the same as copying byte by byte, with a lookup for each byte in the
-- memory as it is then, also where pages share a frame. What is copied to an address space or from it
-- is copied as a whole, and copied back if no two pages share a frame. The pages must not be backed by
-- nodes that the lookups visit: to write to these would turn later bytes elsewhere.
theorem copies_bytewise {token : UInt64}
    (hmade : ofMapped (.ofToken token) start length memory = .ok range)
    (hwindow : ∀ a entry, start ≤ a → a < start + length →
      (PageTable.ofToken token).translate? (pageOf a) memory = .ok (some entry) →
      entry.page.number < memory.frames)
    (hapart : ∀ a b entry, start ≤ a → a < start + length → start ≤ b → b < start + length →
      (PageTable.ofToken token).translate? (pageOf a) memory = .ok (some entry) →
      entry.page ∉ (PageTable.ofToken token).walk (pageOf b) memory) :
    (∀ count source log, min count length.toNat ≤ source.length → ∃ memory',
      (range.copyOut source count).run ⟨memory, log⟩ =
        .ok (min count length.toNat) ⟨memory', log⟩ ∧
      (PageTable.ofToken token).storeEach start.toNat (source.take (min count length.toNat)) memory =
        .ok memory' ∧
      ∀ b, (∀ i < min count length.toNat, (PageTable.ofToken token).translateAddr?
        (.ofNat (start.toNat + i)) memory ≠ .ok (some b)) → memory'.byte b = memory.byte b) ∧
    (∀ count, ∃ bytes, range.copyIn count memory = .ok bytes ∧
      bytes.length = min count length.toNat ∧
      ∀ i < bytes.length, ∃ b, (PageTable.ofToken token).translateAddr?
        (.ofNat (start.toNat + i)) memory = .ok (some b) ∧ bytes[i]? = some (memory.byte b)) ∧
    (∀ source log, source.length = length.toNat → ∃ memory',
      ((PageTable.ofToken token).copyToUser start source).run ⟨memory, log⟩ =
        .ok () ⟨memory', log⟩ ∧
      (PageTable.ofToken token).storeEach start.toNat source memory = .ok memory' ∧
      (range.DistinctFrames memory →
        ((PageTable.ofToken token).copyFromUser start length).run ⟨memory', log⟩ =
          .ok source ⟨memory', log⟩)) ∧
    ∀ log, ∃ bytes, range.copyIn length.toNat memory = .ok bytes ∧ bytes.length = length.toNat ∧
      ((PageTable.ofToken token).copyFromUser start length).run ⟨memory, log⟩ =
        .ok bytes ⟨memory, log⟩ := by
  have hbacked := backed_of_ofMapped hmade hwindow
  obtain ⟨rfl, horder, -⟩ := ofMapped_eq_ok hmade
  have hwritable : (⟨.ofToken token, start, start + length⟩ : UserRange).Writable memory := by
    refine ⟨hbacked, fun n m entry hn hm hentry => ?_⟩
    obtain ⟨a, hstart, hstop, rfl⟩ := exists_of_holds hn
    obtain ⟨b, hstart', hstop', rfl⟩ := exists_of_holds hm
    rw [← pageOf_eq] at hentry ⊢
    exact hapart a b entry hstart hstop hstart' hstop' hentry
  have htotal : (start + length).toNat - start.toNat = length.toNat := by
    rw [toNat_stop horder, Nat.add_sub_cancel_left]
  have hout := hwritable.exists_copyOut horder
  have hin := hbacked.exists_copyIn horder
  simp only [htotal] at hout hin
  refine ⟨fun count source log hsource => ?_, fun count => ?_, fun source log hlength => ?_,
    fun log => ?_⟩
  · obtain ⟨memory', hrun, hstored, -, hother⟩ := hout log count source hsource
    exact ⟨memory', hrun, hstored, hother⟩
  · exact hin count
  · obtain ⟨memory', hrun, hstored, hsame, -⟩ := hout log source.length source (by omega)
    rw [← hlength, Nat.min_self] at hrun
    rw [← hlength, Nat.min_self, List.take_length] at hstored
    refine ⟨memory', run_copyToUser hmade hlength hrun, hstored, fun hdistinct => ?_⟩
    have hmade' := ofMapped_of_backed horder (hsame.writable hwritable).toBacked
    refine run_copyFromUser log hmade' ?_ hlength
    rw [← hlength]
    exact hwritable.copyIn_stored horder hdistinct (hlength.trans htotal.symm) hstored hsame
  · obtain ⟨bytes, hload, hlength, -⟩ := hin length.toNat
    rw [Nat.min_self] at hlength
    exact ⟨bytes, hload, hlength, run_copyFromUser log hmade hload hlength⟩

theorem apart_twoPages (a b : UInt64) (entry : Entry) (hstart : 0x5ff0 ≤ a)
    (hstop : a < 0x5ff0 + 0x20) (hstart' : 0x5ff0 ≤ b) (hstop' : b < 0x5ff0 + 0x20)
    (hentry : (PageTable.ofToken 1).translate? (pageOf a) twoPages = .ok (some entry)) :
    entry.page ∉ (PageTable.ofToken 1).walk (pageOf b) twoPages := by
  obtain ⟨n, frame, hpage, hcase⟩ := page_twoPages hstart hstop
  obtain ⟨n', frame', hpage', hcase'⟩ := page_twoPages hstart' hstop'
  rw [pageOf_eq, hpage, (lookup_twoPages hcase).1] at hentry
  cases hentry
  rw [pageOf_eq, hpage', (lookup_twoPages hcase').2, Entry.page_leaf]
  rcases hcase with ⟨-, rfl⟩ | ⟨-, rfl⟩ <;> decide

theorem distinctFrames_twoPages :
    (⟨.ofToken 1, 0x5ff0, 0x5ff0 + 0x20⟩ : UserRange).DistinctFrames twoPages := by
  intro a b entry entry' hstart hstop hstart' hstop' hentry hentry' hframe
  obtain ⟨n, frame, hpage, hcase⟩ := page_twoPages hstart hstop
  obtain ⟨n', frame', hpage', hcase'⟩ := page_twoPages hstart' hstop'
  rw [pageOf_eq, hpage, (lookup_twoPages hcase).1] at hentry
  rw [pageOf_eq, hpage', (lookup_twoPages hcase').1] at hentry'
  cases hentry
  cases hentry'
  rw [Entry.page_leaf, Entry.page_leaf] at hframe
  apply UInt64.toNat_inj.mp
  rw [UInt64.toNat_div, UInt64.toNat_div, show (4096 : UInt64).toNat = 4096 from rfl, hpage, hpage']
  rcases hcase with ⟨rfl, rfl⟩ | ⟨rfl, rfl⟩ <;> rcases hcase' with ⟨rfl, rfl⟩ | ⟨rfl, rfl⟩
  · rfl
  · exact absurd hframe (by decide)
  · exact absurd hframe (by decide)
  · rfl

-- Bytes over the end of one page and the start of another, fewer than there is room for and as many.
theorem copies_bytewise_twoPages : ∃ range memory' memory'',
    ofMapped (.ofToken 1) 0x5ff0 0x20 twoPages = .ok range ∧
    (range.copyOut (List.replicate 0x18 7) 0x18).run ⟨twoPages, []⟩ = .ok 0x18 ⟨memory', []⟩ ∧
    (PageTable.ofToken 1).storeEach 0x5ff0 (List.replicate 0x18 7) twoPages = .ok memory' ∧
    ((PageTable.ofToken 1).copyToUser 0x5ff0 (List.replicate 0x20 7)).run ⟨twoPages, []⟩ =
      .ok () ⟨memory'', []⟩ ∧
    ((PageTable.ofToken 1).copyFromUser 0x5ff0 0x20).run ⟨memory'', []⟩ =
      .ok (List.replicate 0x20 7) ⟨memory'', []⟩ := by
  obtain ⟨hout, -, hto, -⟩ := copies_bytewise ofMapped_twoPages window_twoPages apart_twoPages
  obtain ⟨memory', hrun, hstored, -⟩ := hout 0x18 (List.replicate 0x18 7) [] (by decide)
  obtain ⟨memory'', hrun', -, hback⟩ := hto (List.replicate 0x20 7) [] (by decide)
  exact ⟨_, memory', memory'', ofMapped_twoPages, hrun, hstored, hrun',
    hback distinctFrames_twoPages⟩

end UserRange

end PagedMemory
