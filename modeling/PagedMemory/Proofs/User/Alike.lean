import PagedMemory.Proofs.Alike
import PagedMemory.Proofs.Table.Walk
import PagedMemory.Proofs.User.Backing
import PagedMemory.User.Object

namespace PagedMemory

variable {memory memory' : Memory} {table : PageTable} {range : UserRange} {slice : FrameSlice}
  {settled given : PhysPage → Prop} {machine machine' : Machine} {a : UInt64}

-- Contents of memory are compared here and never computed.
attribute [local irreducible] Memory.frame

namespace PageTable

-- All frames that lookups through a table visit are of a kind.
def WalksIn (kind : PhysPage → Prop) (table : PageTable) (memory : Memory) : Prop :=
  ∀ page, ∀ node ∈ table.walk page memory, kind node

-- Lookups through a table find the same in both memories.
structure SameTranslations (table : PageTable) (memory memory' : Memory) : Prop where
  frames : memory'.frames = memory.frames
  pages : ∀ page, table.translate? page memory' = table.translate? page memory

theorem sameTranslations_of_alike (h : Memory.Alike settled memory memory')
    (hwalks : table.WalksIn settled memory) : table.SameTranslations memory memory' :=
  ⟨h.frames, fun page => translate?_congr h.frames fun node hmem => h.same node (hwalks page node hmem)⟩

theorem WalksIn.of_alike (h : Memory.Alike settled memory memory')
    (hwalks : table.WalksIn settled memory) {kind : PhysPage → Prop}
    (hkind : table.WalksIn kind memory) : table.WalksIn kind memory' := by
  intro page node hmem
  rw [walk_congr fun other hother => h.same other (hwalks page other hother)] at hmem
  exact hkind page node hmem

namespace SameTranslations

theorem translateAddr?_eq (h : table.SameTranslations memory memory') (va : VirtAddr) :
    table.translateAddr? va memory' = table.translateAddr? va memory := by
  rw [translateAddr?, translateAddr?, h.pages]

theorem locateObject_eq (h : table.SameTranslations memory memory') (a size : UInt64) :
    table.locateObject a size memory' = table.locateObject a size memory := by
  simp only [locateObject, h.translateAddr?_eq]

theorem checkMapped_eq (h : table.SameTranslations memory memory') (count : Nat) (a : UInt64) :
    UserRange.checkMapped table memory' count a = UserRange.checkMapped table memory count a := by
  induction count generalizing a with
  | zero => rfl
  | succ count ih => simp only [UserRange.checkMapped, h.pages, ih]

theorem ofMapped_eq (h : table.SameTranslations memory memory') (start length : UInt64) :
    UserRange.ofMapped table start length memory' = UserRange.ofMapped table start length memory := by
  simp only [UserRange.ofMapped, h.checkMapped_eq]

theorem sliceAt_eq (h : range.table.SameTranslations memory memory') (a : UInt64) :
    range.sliceAt a memory' = range.sliceAt a memory := by
  simp only [UserRange.sliceAt, h.pages, Memory.reach_congr h.frames]

theorem slices_eq (h : range.table.SameTranslations memory memory') :
    range.slices memory' = range.slices memory := by
  simp only [UserRange.slices, h.sliceAt_eq]

end SameTranslations

end PageTable

namespace UserRange

open Machine (Stored)

-- A slice that is found lies in the frame that its page is mapped to.
theorem sliceAt_eq_ok (h : range.sliceAt a memory = .ok slice) :
    ∃ entry, range.table.translate? (pageOf a) memory = .ok (some entry) ∧
      slice.start.page = entry.page ∧ slice.start.offset + slice.size ≤ 4096 := by
  rw [sliceAt] at h
  split at h
  · cases h
  obtain ⟨found?, htranslate, h⟩ := Action.exists_of_bind_eq_ok h
  cases found? with
  | none => cases h
  | some entry =>
      obtain ⟨_, -, h⟩ := Action.exists_of_bind_eq_ok h
      obtain ⟨_, hcut, h⟩ := Action.exists_of_bind_eq_ok h
      cases h
      have hoffset : (VirtAddr.ofNat a.toNat).offset < 4096 := Nat.mod_lt _ (by decide)
      rw [checkCut] at hcut
      split at hcut
      · cases hcut
      split at hcut
      · cases hcut
      rename_i hstart hstop
      rw [pageSize_eq] at hstop
      refine ⟨entry, htranslate, PhysPage.page_base_add hoffset, ?_⟩
      simp only [PhysPage.offset_base_add hoffset]
      omega

-- A copy touches frames of a kind only. It ends where a slice is not found, or no bytes are left.
def CopiesIn (kind : PhysPage → Prop) (range : UserRange) (memory : Memory) :
    List UInt64 → Nat → Prop
  | [], _ => True
  | a :: rest, left => ∀ slice, range.sliceAt a memory = .ok slice → left ≠ 0 →
      kind slice.start.page ∧ range.CopiesIn kind memory rest (left - min slice.size left)

-- So does every copy if all pages with slices are mapped to such frames.
theorem CopiesIn.of_translate? {kind : PhysPage → Prop} {addresses : List UInt64} (left : Nat)
    (h : ∀ a ∈ addresses, ∀ entry, range.table.translate? (pageOf a) memory = .ok (some entry) →
      kind entry.page) : range.CopiesIn kind memory addresses left := by
  induction addresses generalizing left with
  | nil => trivial
  | cons a rest ih =>
      intro slice hslice _
      obtain ⟨entry, htranslate, hpage, -⟩ := sliceAt_eq_ok hslice
      exact ⟨hpage ▸ h a List.mem_cons_self entry htranslate,
        ih _ fun other hmem => h other (List.mem_cons_of_mem _ hmem)⟩

theorem CopiesIn.mono {kind kind' : PhysPage → Prop} {addresses : List UInt64} {left : Nat}
    (h : range.CopiesIn kind memory addresses left) (himp : ∀ page, kind page → kind' page) :
    range.CopiesIn kind' memory addresses left := by
  induction addresses generalizing left with
  | nil => trivial
  | cons a rest ih =>
      intro slice hslice hleft
      obtain ⟨hkind, hrest⟩ := h slice hslice hleft
      exact ⟨himp _ hkind, ih hrest⟩

theorem CopiesIn.of_sameTranslations {addresses : List UInt64} {left : Nat}
    (h : range.table.SameTranslations memory memory')
    (hcopies : range.CopiesIn given memory addresses left) :
    range.CopiesIn given memory' addresses left := by
  induction addresses generalizing left with
  | nil => trivial
  | cons a rest ih =>
      intro slice hslice hleft
      rw [h.sliceAt_eq] at hslice
      obtain ⟨hgiven, hrest⟩ := hcopies slice hslice hleft
      exact ⟨hgiven, ih hrest⟩

-- The same bytes are loaded from settled frames.
theorem copyFrom_alike {addresses : List UInt64} {left : Nat} (h : Memory.Alike settled memory memory')
    (hwalks : range.table.WalksIn settled memory)
    (hcopies : range.CopiesIn settled memory addresses left) :
    range.copyFrom memory' addresses left = range.copyFrom memory addresses left := by
  have hsame := PageTable.sameTranslations_of_alike h hwalks
  induction addresses generalizing left with
  | nil => rfl
  | cons a rest ih =>
      rw [copyFrom, copyFrom, hsame.sliceAt_eq]
      cases hslice : range.sliceAt a memory with
      | error cause => rfl
      | ok slice =>
          by_cases hleft : left = 0
          · simp only [hleft, if_true]
          · obtain ⟨hsettled, hrest⟩ := hcopies slice hslice hleft
            obtain ⟨entry, -, -, hfits⟩ := sliceAt_eq_ok hslice
            have hread : memory'.read slice.start (min slice.size left) =
                memory.read slice.start (min slice.size left) :=
              h.read_eq (PhysAddr.spanIn_of_fits hsettled (by omega))
            have hmore := ih hrest
            simp only [bind, Except.bind, if_neg hleft, hmore, hread]

theorem mirrored_copyInto {addresses : List UInt64} {left : Nat}
    (h : Machine.Alike settled machine machine')
    (hwalks : range.table.WalksIn (fun node => settled node ∧ ¬given node) machine.memory)
    (hcopies : range.CopiesIn given machine.memory addresses left) (source : List UInt8) :
    Mirrored (Stored settled given machine machine') Machine.SameLog
      ((range.copyInto addresses left source).run machine)
      ((range.copyInto addresses left source).run machine') := by
  induction addresses generalizing machine machine' left source with
  | nil => exact .of_ok rfl rfl (.refl h)
  | cons a rest ih =>
      have hsame := PageTable.sameTranslations_of_alike h.memory fun page node hmem =>
        (hwalks page node hmem).1
      refine (Machine.mirrored_inspect h.log (hsame.sliceAt_eq a)).bind ?_
      rintro slice _ _ hrun - ⟨rfl, rfl⟩
      obtain ⟨hslice, -⟩ := Machine.run_inspect_eq_ok hrun
      split
      · exact .of_ok rfl rfl (.refl h)
      · rename_i hleft
        obtain ⟨hgiven, hrest⟩ := hcopies slice hslice hleft
        obtain ⟨entry, -, -, hfits⟩ := sliceAt_eq_ok hslice
        have hlength : slice.start.offset + (source.take (min slice.size left)).length ≤ 4096 := by
          rw [List.length_take]
          omega
        have hstored := Stored.write h (PhysAddr.spanIn_of_fits hgiven hlength)
        have hwritten := PageTable.sameTranslations_of_alike hstored.spared fun page node hmem =>
          (hwalks page node hmem).2
        have hmore := ih hstored.alike
          (.of_alike hstored.spared (fun page node hmem => (hwalks page node hmem).2) hwalks)
          (hrest.of_sameTranslations hwritten) (source.drop (min slice.size left))
        refine (Machine.mirrored_change _ machine machine').bind ?_
        rintro _ _ _ - - ⟨rfl, rfl⟩
        exact hmore.bind fun more after after' _ _ hafter => .of_ok rfl rfl (hstored.trans hafter)

end UserRange

namespace PageTable

open Machine (Stored)

variable {start length : UInt64} {source bytes : List UInt8} {size : Nat}

-- Access to an address space goes the same way in both memories, if what it touches is settled.

theorem mirrored_copyToUser (h : Machine.Alike settled machine machine')
    (hwalks : table.WalksIn (fun node => settled node ∧ ¬given node) machine.memory)
    (hcopies : ∀ range, UserRange.ofMapped table start (UInt64.ofNat source.length) machine.memory =
      .ok range → range.CopiesIn given machine.memory range.starts source.length) :
    Mirrored (Stored settled given machine machine') Machine.SameLog
      ((table.copyToUser start source).run machine)
      ((table.copyToUser start source).run machine') := by
  have hsame := sameTranslations_of_alike h.memory fun page node hmem => (hwalks page node hmem).1
  refine (Machine.mirrored_consult h.log (hsame.ofMapped_eq _ _)).bind ?_
  rintro range _ _ hrun - ⟨rfl, rfl⟩
  obtain ⟨hmade, -⟩ := Machine.run_consult_eq_ok hrun
  have hrange := hcopies range hmade
  obtain ⟨rfl, -⟩ := UserRange.ofMapped_eq_ok hmade
  refine (UserRange.mirrored_copyInto h hwalks hrange source).bind fun copied _ _ _ _ hstored => ?_
  split
  · exact .of_ok rfl rfl hstored
  · exact Machine.mirrored_fail hstored.alike.log _

theorem mirrored_copyFromUser (h : Machine.Alike settled machine machine')
    (hwalks : table.WalksIn settled machine.memory)
    (hcopies : ∀ range, UserRange.ofMapped table start length machine.memory = .ok range →
      range.CopiesIn settled machine.memory range.starts length.toNat) :
    Mirrored (Stored settled given machine machine') Machine.SameLog
      ((table.copyFromUser start length).run machine)
      ((table.copyFromUser start length).run machine') := by
  have hsame := sameTranslations_of_alike h.memory hwalks
  refine (Machine.mirrored_consult h.log (hsame.ofMapped_eq _ _)).bind ?_
  rintro range _ _ hrun - ⟨rfl, rfl⟩
  obtain ⟨hmade, -⟩ := Machine.run_consult_eq_ok hrun
  have hrange := hcopies range hmade
  obtain ⟨rfl, -⟩ := UserRange.ofMapped_eq_ok hmade
  refine (Machine.mirrored_inspect h.log (UserRange.copyFrom_alike h.memory hwalks hrange)).bind ?_
  rintro bytes _ _ - - ⟨rfl, rfl⟩
  split
  · exact .of_ok rfl rfl (.refl h)
  · exact Machine.mirrored_fail h.log _

theorem mirrored_writeObject (h : Machine.Alike settled machine machine')
    (hwalks : table.WalksIn settled machine.memory)
    (hspan : ∀ place, table.locateObject a (UInt64.ofNat bytes.length) machine.memory = .ok place →
      machine.memory.reach place = .ok () → place.SpanIn given bytes.length) :
    Mirrored (Stored settled given machine machine') Machine.SameLog
      ((table.writeObject a bytes).run machine) ((table.writeObject a bytes).run machine') := by
  have hsame := sameTranslations_of_alike h.memory hwalks
  refine (Machine.mirrored_inspect h.log ?_).bind ?_
  · simp only [hsame.locateObject_eq, Memory.reach_congr h.memory.frames]
  rintro place _ _ hrun - ⟨rfl, rfl⟩
  obtain ⟨hplace, -⟩ := Machine.run_inspect_eq_ok hrun
  obtain ⟨place', hlocate, hplace⟩ := Action.exists_of_bind_eq_ok hplace
  obtain ⟨_, hreach, hplace⟩ := Action.exists_of_bind_eq_ok hplace
  cases hplace
  exact .of_ok rfl rfl (.write h (hspan place hlocate hreach))

theorem mirrored_readObject (h : Machine.Alike settled machine machine')
    (hwalks : table.WalksIn settled machine.memory)
    (hspan : ∀ place, table.locateObject a (UInt64.ofNat size) machine.memory = .ok place →
      machine.memory.reach place = .ok () → place.SpanIn settled size) :
    Mirrored (Stored settled given machine machine') Machine.SameLog
      ((table.readObject a size).run machine) ((table.readObject a size).run machine') := by
  have hsame := sameTranslations_of_alike h.memory hwalks
  refine (Machine.mirrored_inspect h.log ?_).mono fun _ _ _ _ _ hafter => ?_
  · rw [hsame.locateObject_eq]
    cases hlocate : table.locateObject a (UInt64.ofNat size) machine.memory with
    | error cause => rfl
    | ok place =>
        have hreach : machine'.memory.reach place = machine.memory.reach place :=
          Memory.reach_congr h.memory.frames place
        simp only [bind, Except.bind, hreach]
        cases hreached : machine.memory.reach place with
        | error cause => rfl
        | ok _ => exact congrArg Except.ok (h.memory.read_eq (hspan place hlocate hreached))
  · obtain ⟨rfl, rfl⟩ := hafter
    exact .refl h

end PageTable

end PagedMemory
