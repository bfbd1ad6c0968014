import PagedMemory.Proofs.User.OnePage
import PagedMemory.User.Object

namespace PagedMemory

namespace PageTable

variable {table : PageTable} {memory : Memory} {a size : UInt64} {entry : Entry} {cause : Fault}
  {log : List LogEntry} {bytes : List UInt8} {pa : PhysAddr} {n : Nat} {token : UInt64}

-- An object passes the test for the end of its page: it does not leave the page, or it is so long that
-- the word for its end has wrapped.
def PassesEnd (a size : UInt64) : Prop :=
  a.toNat % 4096 + size.toNat ≤ 4096 ∨
    0x10000000000000000 ≤ a.toNat % 4096 + size.toNat

theorem passesEnd_iff : PassesEnd a size ↔
    ¬UInt64.ofNat (VirtAddr.ofNat a.toNat).offset + size > UInt64.ofNat pageSize := by
  have hsize := size.toNat_lt
  have hlimit : (UInt64.ofNat pageSize).toNat = 4096 := rfl
  rw [gt_iff_lt, UInt64.not_lt, UInt64.le_iff_toNat_le, UInt64.toNat_add, UInt64.toNat_ofNat',
    VirtAddr.offset_ofNat, hlimit, PassesEnd]
  omega

theorem not_passesEnd_iff : ¬PassesEnd a size ↔
    4096 < a.toNat % 4096 + size.toNat ∧
      a.toNat % 4096 + size.toNat < 0x10000000000000000 := by
  rw [PassesEnd, not_or, Nat.not_le, Nat.not_le]

-- Where an object is, or why it is nowhere.

theorem locateObject_of_crossing (h : ¬PassesEnd a size) :
    table.locateObject a size memory = .error (.objectCrossesPage size a) := by
  rw [passesEnd_iff, not_not] at h
  rw [locateObject]
  exact if_pos h

theorem locateObject_of_passesEnd (h : PassesEnd a size) :
    table.locateObject a size memory = (do
      match ← table.translateAddr? (.ofNat a.toNat) memory with
      | none => .error (.objectUnmapped a)
      | some pa => return pa) := by
  rw [passesEnd_iff] at h
  rw [locateObject]
  exact if_neg h

theorem locateObject_of_translate? (h : PassesEnd a size)
    (hentry : table.translate? (UserRange.pageOf a) memory = .ok (some entry)) :
    table.locateObject a size memory = .ok (entry.page.base + a.toNat % 4096) := by
  rw [UserRange.pageOf_eq] at hentry
  rw [locateObject_of_passesEnd h, translateAddr?_of_translate? hentry]
  rfl

theorem locateObject_of_unmapped (h : PassesEnd a size)
    (hnone : table.translate? (UserRange.pageOf a) memory = .ok none) :
    table.locateObject a size memory = .error (.objectUnmapped a) := by
  rw [UserRange.pageOf] at hnone
  rw [locateObject_of_passesEnd h, translateAddr?, hnone]
  rfl

theorem locateObject_of_error (h : PassesEnd a size)
    (herror : table.translate? (UserRange.pageOf a) memory = .error cause) :
    table.locateObject a size memory = .error cause := by
  rw [UserRange.pageOf] at herror
  rw [locateObject_of_passesEnd h, translateAddr?, herror]
  rfl

-- What it can come to.
theorem locateObject_cases (table : PageTable) (a size : UInt64) (memory : Memory) :
    (¬PassesEnd a size ∧ table.locateObject a size memory = .error (.objectCrossesPage size a)) ∨
      PassesEnd a size ∧
        ((table.translate? (UserRange.pageOf a) memory = .ok none ∧
            table.locateObject a size memory = .error (.objectUnmapped a)) ∨
          (table.translate? (UserRange.pageOf a) memory = .error .outsideWindow ∧
            table.locateObject a size memory = .error .outsideWindow) ∨
          ∃ entry, table.translate? (UserRange.pageOf a) memory = .ok (some entry) ∧
            table.locateObject a size memory = .ok (entry.page.base + a.toNat % 4096)) := by
  by_cases hpasses : PassesEnd a size
  · refine Or.inr ⟨hpasses, ?_⟩
    cases hlookup : table.translate? (UserRange.pageOf a) memory with
    | error cause =>
        cases translate?_eq_error hlookup
        exact Or.inr (Or.inl ⟨rfl, locateObject_of_error hpasses hlookup⟩)
    | ok entry? =>
        cases entry? with
        | none => exact Or.inl ⟨rfl, locateObject_of_unmapped hpasses hlookup⟩
        | some entry =>
            exact Or.inr (Or.inr ⟨entry, rfl, locateObject_of_translate? hpasses hlookup⟩)
  · exact Or.inl ⟨hpasses, locateObject_of_crossing hpasses⟩

theorem locateObject_eq_crossing_iff :
    table.locateObject a size memory = .error (.objectCrossesPage size a) ↔
      ¬PassesEnd a size := by
  refine ⟨fun h hpasses => ?_, locateObject_of_crossing⟩
  rcases table.locateObject_cases a size memory with ⟨hnot, -⟩ |
    ⟨-, ⟨-, hlocate⟩ | ⟨-, hlocate⟩ | ⟨entry, -, hlocate⟩⟩
  · exact hnot hpasses
  all_goals cases h.symm.trans hlocate

theorem locateObject_eq_unmapped_iff :
    table.locateObject a size memory = .error (.objectUnmapped a) ↔
      PassesEnd a size ∧ table.translate? (UserRange.pageOf a) memory = .ok none := by
  refine ⟨fun h => ?_, fun ⟨hpasses, hnone⟩ => locateObject_of_unmapped hpasses hnone⟩
  rcases table.locateObject_cases a size memory with ⟨-, hlocate⟩ |
    ⟨hpasses, ⟨hnone, -⟩ | ⟨-, hlocate⟩ | ⟨entry, -, hlocate⟩⟩
  · cases h.symm.trans hlocate
  · exact ⟨hpasses, hnone⟩
  all_goals cases h.symm.trans hlocate

theorem locateObject_eq_outsideWindow_iff :
    table.locateObject a size memory = .error .outsideWindow ↔
      PassesEnd a size ∧ table.translate? (UserRange.pageOf a) memory = .error .outsideWindow := by
  refine ⟨fun h => ?_, fun ⟨hpasses, herror⟩ => locateObject_of_error hpasses herror⟩
  rcases table.locateObject_cases a size memory with ⟨-, hlocate⟩ |
    ⟨hpasses, ⟨-, hlocate⟩ | ⟨herror, -⟩ | ⟨entry, -, hlocate⟩⟩
  · cases h.symm.trans hlocate
  · cases h.symm.trans hlocate
  · exact ⟨hpasses, herror⟩
  · cases h.symm.trans hlocate

theorem locateObject_eq_ok_iff :
    table.locateObject a size memory = .ok pa ↔
      PassesEnd a size ∧ ∃ entry,
        table.translate? (UserRange.pageOf a) memory = .ok (some entry) ∧
          pa = entry.page.base + a.toNat % 4096 := by
  refine ⟨fun h => ?_, ?_⟩
  · rcases table.locateObject_cases a size memory with ⟨-, hlocate⟩ |
      ⟨hpasses, ⟨-, hlocate⟩ | ⟨-, hlocate⟩ | ⟨entry, hentry, hlocate⟩⟩
    · cases h.symm.trans hlocate
    · cases h.symm.trans hlocate
    · cases h.symm.trans hlocate
    · cases h.symm.trans hlocate
      exact ⟨hpasses, entry, hentry, rfl⟩
  · rintro ⟨hpasses, entry, hentry, rfl⟩
    exact locateObject_of_translate? hpasses hentry

-- Storing an object is one write, and loading it is one read, where it was located.

theorem run_writeObject_of_locate
    (hlocate : table.locateObject a (UInt64.ofNat bytes.length) memory = .ok pa)
    (hreach : memory.reach pa = .ok ()) :
    (table.writeObject a bytes).run ⟨memory, log⟩ = .ok () ⟨memory.write pa bytes, log⟩ := by
  refine (Action.run_bind_ok (Machine.run_inspect_ok ?_)).trans (Machine.run_change _ _)
  simp only [hlocate, hreach, bind, Except.bind, pure, Except.pure]

theorem run_writeObject_of_error (log : List LogEntry)
    (hlocate : table.locateObject a (UInt64.ofNat bytes.length) memory = .error cause) :
    ∃ log', (table.writeObject a bytes).run ⟨memory, log⟩ = .error (.fault cause) ⟨memory, log'⟩ := by
  refine ⟨_, Action.run_bind_error (Machine.run_inspect_error ?_)⟩
  simp only [hlocate, bind, Except.bind]

theorem run_readObject_of_locate (hlocate : table.locateObject a (UInt64.ofNat n) memory = .ok pa)
    (hreach : memory.reach pa = .ok ()) :
    (table.readObject a n).run ⟨memory, log⟩ = .ok (memory.read pa n) ⟨memory, log⟩ := by
  refine Machine.run_inspect_ok ?_
  simp only [hlocate, hreach, bind, Except.bind, pure, Except.pure]

theorem run_readObject_of_error (log : List LogEntry)
    (hlocate : table.locateObject a (UInt64.ofNat n) memory = .error cause) :
    ∃ log', (table.readObject a n).run ⟨memory, log⟩ = .error (.fault cause) ⟨memory, log'⟩ := by
  refine ⟨_, Machine.run_inspect_error ?_⟩
  simp only [hlocate, bind, Except.bind]

-- The first byte of an object in a frame that memory has is in memory, too.
theorem reach_place {entry : Entry} (a : UInt64) (hwindow : entry.page.number < memory.frames) :
    memory.reach (entry.page.base + a.toNat % 4096) = .ok () := by
  have hoffset : a.toNat % 4096 < 4096 := Nat.mod_lt _ (by decide)
  have hsize := Memory.base_add_le_size hwindow
  refine if_pos ?_
  rw [PhysPage.value_base_add hoffset]
  omega

-- The lookup of a page decides between two outcomes. Two computations both have the result that the
-- entry of the page gives them, or the page is not mapped, both halt with the same text, and memory is
-- as it was.
def AgreeAt {α : Type} (table : PageTable) (memory : Memory) (page : VirtPage)
    (expected : Entry → EStateM.Result Stop Machine α) (result result' : EStateM.Result Stop Machine α) :
    Prop :=
  (∃ entry, table.translate? page memory = .ok (some entry) ∧ result = expected entry ∧
    result' = expected entry) ∨
  ¬table.Maps memory page ∧ ∃ cause cause' log log', result = .error (.fault cause) ⟨memory, log⟩ ∧
    result' = .error (.fault cause') ⟨memory, log'⟩ ∧ cause.message = cause'.message

section agree

open UserRange

theorem passesEnd_of_onePage (h : OnePage a n) : PassesEnd a (UInt64.ofNat n) := by
  rw [PassesEnd, h.toNat_length]
  exact Or.inl h.fits

-- A page that is not mapped is missed as well by the object as by the range that is as long.
theorem missed_alike (hpage : OnePage a n) (hnot : ¬table.Maps memory (pageOf a)) :
    ∃ cause cause', table.locateObject a (UInt64.ofNat n) memory = .error cause ∧
      ofMapped table a (UInt64.ofNat n) memory = .error (.fault cause') ∧
      cause.message = cause'.message := by
  have hpasses := passesEnd_of_onePage hpage
  cases hlookup : table.translate? (pageOf a) memory with
  | error cause =>
      exact ⟨cause, cause, locateObject_of_error hpasses hlookup, hpage.ofMapped_of_error hlookup, rfl⟩
  | ok entry? =>
      cases entry? with
      | none =>
          exact ⟨_, _, locateObject_of_unmapped hpasses hlookup, hpage.ofMapped_of_unmapped hlookup,
            rfl⟩
      | some entry => exact (hnot ⟨entry, hlookup⟩).elim

-- Objects are stored and loaded as the bytes they consist of, whatever memory holds. The frame behind
-- the page may be a node of the tree that is walked: the one slice of the range was looked up before
-- it is written, and no lookup comes after.
theorem object_agrees_with_bytes (token : UInt64) (log : List LogEntry) (hpage : OnePage a n)
    (hwindow : ∀ entry, (ofToken token).translate? (pageOf a) memory = .ok (some entry) →
      entry.page.number < memory.frames) :
    (∀ bytes, bytes.length = n → AgreeAt (ofToken token) memory (pageOf a)
      (fun entry => .ok () ⟨memory.write (entry.page.base + a.toNat % 4096) bytes, log⟩)
      (((ofToken token).writeObject a bytes).run ⟨memory, log⟩)
      (((ofToken token).copyToUser a bytes).run ⟨memory, log⟩)) ∧
    AgreeAt (ofToken token) memory (pageOf a)
      (fun entry => .ok (memory.read (entry.page.base + a.toNat % 4096) n) ⟨memory, log⟩)
      (((ofToken token).readObject a n).run ⟨memory, log⟩)
      (((ofToken token).copyFromUser a (UInt64.ofNat n)).run ⟨memory, log⟩) := by
  have hpasses := passesEnd_of_onePage hpage
  by_cases hmaps : (ofToken token).Maps memory (pageOf a)
  · obtain ⟨entry, hentry⟩ := hmaps
    have hinside := hwindow entry hentry
    have hreach := reach_place a hinside
    have hlocate := locateObject_of_translate? hpasses hentry
    refine ⟨fun bytes hlength => ?_, ?_⟩
    · subst hlength
      exact Or.inl ⟨entry, hentry, run_writeObject_of_locate hlocate hreach,
        hpage.run_copyToUser hentry hinside⟩
    · exact Or.inl ⟨entry, hentry, run_readObject_of_locate hlocate hreach,
        hpage.run_copyFromUser hentry hinside⟩
  · obtain ⟨cause, cause', hlocate, hrange, hmessage⟩ := missed_alike hpage hmaps
    refine ⟨fun bytes hlength => ?_, ?_⟩
    · subst hlength
      obtain ⟨log₁, hobject⟩ := run_writeObject_of_error log hlocate
      obtain ⟨log₂, hbytes⟩ := run_copyToUser_of_refused log hrange
      exact Or.inr ⟨hmaps, cause, cause', log₁, log₂, hobject, hbytes, hmessage⟩
    · obtain ⟨log₁, hobject⟩ := run_readObject_of_error log hlocate
      obtain ⟨log₂, hbytes⟩ := run_copyFromUser_of_refused log hrange
      exact Or.inr ⟨hmaps, cause, cause', log₁, log₂, hobject, hbytes, hmessage⟩

-- Contents of memory are compared here and never computed.
attribute [local irreducible] Memory.entry Memory.setEntry

-- A memory in which a table of three nodes maps one page, to the frame of its own root.
def selfMapped : Memory :=
  (((Memory.filled 16 0xcd).setEntry ⟨.ofNat 1, (VirtPage.ofNat 5).indexAt 2⟩ (.node (.ofNat 2))
    ).setEntry ⟨.ofNat 2, (VirtPage.ofNat 5).indexAt 1⟩ (.node (.ofNat 3))
    ).setEntry ⟨.ofNat 3, (VirtPage.ofNat 5).indexAt 0⟩ (.leaf (.ofNat 1) ⟨2⟩)

theorem frames_selfMapped : selfMapped.frames = 16 := by
  simp only [selfMapped, Memory.frames_setEntry]
  rfl

theorem translate?_selfMapped :
    (ofToken 1).translate? (.ofNat 5) selfMapped = .ok (some (.leaf (.ofNat 1) ⟨2⟩)) := by
  have htop : selfMapped.entry ⟨.ofNat 1, (VirtPage.ofNat 5).indexAt 2⟩ = .node (.ofNat 2) := by
    rw [selfMapped, Memory.entry_setEntry_other (by decide), Memory.entry_setEntry_other (by decide)]
    exact Memory.entry_setEntry_same _ (by decide)
  have hmid : selfMapped.entry ⟨.ofNat 2, (VirtPage.ofNat 5).indexAt 1⟩ = .node (.ofNat 3) := by
    rw [selfMapped, Memory.entry_setEntry_other (by decide)]
    exact Memory.entry_setEntry_same _ (by simp only [Memory.frames_setEntry]; decide)
  have hlow : selfMapped.entry ⟨.ofNat 3, (VirtPage.ofNat 5).indexAt 0⟩ = .leaf (.ofNat 1) ⟨2⟩ :=
    Memory.entry_setEntry_same _ (by simp only [Memory.frames_setEntry]; decide)
  refine (translate?_of_entries htop hmid hlow (Entry.isValid_leaf _ _) ?_).1
  rw [frames_selfMapped]
  decide

-- Eight bytes are stored over the entry of the root that leads to the page they are stored in.
theorem object_agrees_with_bytes_in_own_root : ∃ memory',
    (ofToken 1).translate? (pageOf 0x5000) selfMapped = .ok (some (.leaf (.ofNat 1) ⟨2⟩)) ∧
    (ofToken 1).root = .ofNat 1 ∧
    ((ofToken 1).writeObject 0x5000 (List.replicate 8 0)).run ⟨selfMapped, []⟩ =
      .ok () ⟨memory', []⟩ ∧
    ((ofToken 1).copyToUser 0x5000 (List.replicate 8 0)).run ⟨selfMapped, []⟩ =
      .ok () ⟨memory', []⟩ ∧
    (ofToken 1).translate? (pageOf 0x5000) memory' = .ok none := by
  have hwindow : ∀ entry, (ofToken 1).translate? (pageOf 0x5000) selfMapped = .ok (some entry) →
      entry.page.number < selfMapped.frames := fun entry hentry => by
    cases hentry.symm.trans translate?_selfMapped
    rw [frames_selfMapped]
    decide
  obtain ⟨hwrite, -⟩ := object_agrees_with_bytes (n := 8) 1 []
    ⟨by decide, by decide, by decide⟩ hwindow
  rcases hwrite (List.replicate 8 0) rfl with ⟨entry, hentry, hobject, hbytes⟩ | ⟨hnot, -⟩
  · cases hentry.symm.trans translate?_selfMapped
    refine ⟨_, hentry, rfl, hobject, hbytes, ?_⟩
    have hcleared : selfMapped.write
        ((Entry.leaf (.ofNat 1) ⟨2⟩).page.base + (0x5000 : UInt64).toNat % 4096)
          (List.replicate 8 0) =
        selfMapped.setEntry ⟨.ofNat 1, (VirtPage.ofNat 5).indexAt 2⟩ ⟨0⟩ := by
      rw [Memory.setEntry, Memory.setWord]
      exact congrArg₂ selfMapped.write (by decide) (by decide)
    have hempty : (selfMapped.setEntry ⟨.ofNat 1, (VirtPage.ofNat 5).indexAt 2⟩ ⟨0⟩).entry
        ⟨.ofNat 1, (VirtPage.ofNat 5).indexAt 2⟩ = ⟨0⟩ :=
      Memory.entry_setEntry_same _ (by rw [frames_selfMapped]; decide)
    rw [hcleared, translate?, find?, rootHeight, tableLevels, findFrom_succ_of_invalid]
    · rfl
    · rw [Memory.frames_setEntry, frames_selfMapped]
      decide
    · exact (congrArg Entry.isValid hempty).trans rfl
  · exact (hnot ⟨_, translate?_selfMapped⟩).elim

end agree

end PageTable

end PagedMemory
