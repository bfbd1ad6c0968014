import PagedMemory.Memory
import PagedMemory.Proofs.Action

namespace PagedMemory

namespace Bytes

theorem byteAt_eq_of_read_eq {a b : ByteArray} {start count j : Nat}
    (h : read a start count = read b start count) (hj : j < count) :
    byteAt a (start + j) = byteAt b (start + j) := by
  have ha := getElem?_read a start count j hj
  have hb := getElem?_read b start count j hj
  rw [h, hb] at ha
  exact (Option.some.inj ha).symm

-- What is read depends on the bytes in its range only.
theorem read_congr {a b : ByteArray} {start count : Nat}
    (h : ∀ j < count, byteAt a (start + j) = byteAt b (start + j)) :
    read a start count = read b start count := by
  apply List.ext_getElem?
  intro j
  by_cases hj : j < count
  · rw [getElem?_read _ _ _ _ hj, getElem?_read _ _ _ _ hj, h j hj]
  · rw [List.getElem?_eq_none (by simpa using hj), List.getElem?_eq_none (by simpa using hj)]

theorem number_replicate_zero (count : Nat) : number (List.replicate count 0) = 0 := by
  induction count with
  | zero => rfl
  | succ n ih => simp [List.replicate_succ, number, ih]

end Bytes

theorem PhysPage.base_value (page : PhysPage) : page.base.value = page.number * 4096 := rfl

theorem PhysPage.ext_number {p q : PhysPage} (h : p.number = q.number) : p = q := by
  cases p
  cases q
  cases h
  rfl

@[simp]
theorem PhysPage.ofNat_number (page : PhysPage) : .ofNat page.number = page :=
  PhysPage.ext_number (Nat.mod_eq_of_lt page.isLt)

theorem PhysPage.number_ofNat {n : Nat} (h : n < 0x100000000000) : (PhysPage.ofNat n).number = n :=
  Nat.mod_eq_of_lt h

-- The number of a frame fits a word.
theorem PhysPage.toNat_word (page : PhysPage) : (UInt64.ofNat page.number).toNat = page.number :=
  UInt64.toNat_ofNat_of_lt' (Nat.lt_trans page.isLt (by decide))

theorem PhysAddr.ext_value {a b : PhysAddr} (h : a.value = b.value) : a = b := by
  cases a
  cases b
  cases h
  rfl

-- Addresses are added as long as they have the bits for it.
theorem PhysAddr.add_value {a : PhysAddr} {n : Nat} (h : a.value + n < 0x100000000000000) :
    (a + n).value = a.value + n := Nat.mod_eq_of_lt h

theorem PhysAddr.add_add (a : PhysAddr) (m n : Nat) : a + m + n = a + (m + n) := by
  apply PhysAddr.ext_value
  change ((a.value + m) % _ + n) % _ = (a.value + (m + n)) % _
  rw [Nat.mod_add_mod, Nat.add_assoc]

-- The bytes of a frame.

theorem PhysPage.value_base_add {page : PhysPage} {n : Nat} (h : n < 4096) :
    (page.base + n).value = page.number * 4096 + n := by
  have hpage := page.isLt
  exact PhysAddr.add_value (by rw [base_value]; omega)

theorem PhysPage.page_base_add {page : PhysPage} {n : Nat} (h : n < 4096) :
    (page.base + n).page = page := by
  apply PhysPage.ext_number
  simp only [PhysAddr.page, value_base_add h, pageSize_eq]
  omega

theorem PhysPage.offset_base_add {page : PhysPage} {n : Nat} (h : n < 4096) :
    (page.base + n).offset = n := by
  rw [PhysAddr.offset, value_base_add h, pageSize_eq]
  omega

theorem PhysPage.base_add_inj {page page' : PhysPage} {n n' : Nat} (h : n < 4096) (h' : n' < 4096)
    (heq : page.base + n = page'.base + n') : page = page' ∧ n = n' := by
  have hpage := congrArg PhysAddr.page heq
  have hoffset := congrArg PhysAddr.offset heq
  rw [page_base_add h, page_base_add h'] at hpage
  rw [offset_base_add h, offset_base_add h'] at hoffset
  exact ⟨hpage, hoffset⟩

namespace EntrySlot

theorem index_lt (slot : EntrySlot) : slot.index.val < 512 := slot.index.isLt

-- The words of a node do not leave its frame.
theorem address_value (slot : EntrySlot) :
    slot.address.value = slot.node.number * 4096 + 8 * slot.index.val := by
  have hn := slot.node.isLt
  have hi := slot.index_lt
  exact Nat.mod_eq_of_lt (by rw [PhysPage.base_value]; omega)

theorem address_inj {slot other : EntrySlot} (h : slot.address = other.address) : slot = other := by
  have hvalue := congrArg PhysAddr.value h
  have hi := slot.index_lt
  have hj := other.index_lt
  rw [address_value, address_value] at hvalue
  obtain ⟨node, index⟩ := slot
  obtain ⟨node', index'⟩ := other
  simp only at hvalue hi hj
  have hnode : node = node' := PhysPage.ext_number (by omega)
  have hindex : index = index' := Fin.ext (by omega)
  rw [hnode, hindex]

-- The first word of a frame.
def first (node : PhysPage) : EntrySlot := ⟨node, ⟨0, by decide⟩⟩

theorem address_first (node : PhysPage) : (first node).address = node.base := by
  apply PhysAddr.ext_value
  rw [address_value, PhysPage.base_value, first, Nat.mul_zero, Nat.add_zero]

end EntrySlot

namespace Memory

theorem bytes_write (memory : Memory) (a : PhysAddr) (values : List UInt8) :
    (memory.write a values).bytes = Bytes.write memory.bytes a.value values := by
  cases memory
  rfl

theorem read_eq_map {memory : Memory} {a : PhysAddr} {count : Nat}
    (h : a.value + count ≤ 0x100000000000000) :
    memory.read a count = (List.range count).map fun i => memory.byte (a + i) := by
  apply List.ext_getElem?
  intro i
  by_cases hi : i < count
  · have hvalue : (a + i).value = a.value + i := PhysAddr.add_value (by omega)
    rw [read, Bytes.getElem?_read _ _ _ _ hi, List.getElem?_map, List.getElem?_range hi,
      Option.map_some, byte, hvalue]
  · simp [read, hi]

-- Bytes that are written one after another.
theorem write_cons {memory : Memory} {a : PhysAddr} {v : UInt8} {values : List UInt8}
    (h : values = [] ∨ a.value + 1 < 0x100000000000000) :
    memory.write a (v :: values) = (memory.write a [v]).write (a + 1) values := by
  cases memory
  rcases h with rfl | h
  · rfl
  · simp only [write, PhysAddr.add_value h, Bytes.write]

theorem byte_write_other {memory : Memory} {a b : PhysAddr} {v : UInt8} (h : b ≠ a) :
    (memory.write a [v]).byte b = memory.byte b := by
  have hne : b.value ≠ a.value := fun heq => h (PhysAddr.ext_value heq)
  rw [byte, byte, bytes_write, Bytes.byteAt_write_outside]
  simp only [List.length_singleton]
  omega

theorem byte_write_same {memory : Memory} {a : PhysAddr} {v : UInt8} (h : a.value < memory.size) :
    (memory.write a [v]).byte a = v := by
  rw [byte, bytes_write]
  exact Bytes.byteAt_write_inside _ _ 0 [v] h Nat.one_pos

theorem take_read (memory : Memory) (a : PhysAddr) (count left : Nat) :
    (memory.read a count).take left = memory.read a (min count left) := by
  apply List.ext_getElem?
  intro i
  by_cases hi : i < min count left
  · rw [List.getElem?_take_of_lt (by omega), read, read, Bytes.getElem?_read _ _ _ _ hi,
      Bytes.getElem?_read _ _ _ _ (by omega)]
  · rw [List.getElem?_eq_none (by simp [read]; omega), List.getElem?_eq_none (by simp [read]; omega)]

-- Two memories hold the same in a frame if all its bytes agree.
theorem frame_eq_iff {memory other : Memory} {page : PhysPage} :
    memory.frame page = other.frame page ↔
      ∀ j < 4096, Bytes.byteAt memory.bytes (page.number * 4096 + j) =
        Bytes.byteAt other.bytes (page.number * 4096 + j) :=
  ⟨fun h _ hj => Bytes.byteAt_eq_of_read_eq h hj, fun h => Bytes.read_congr h⟩

theorem entry_eq_of_frame_eq {memory other : Memory} {slot : EntrySlot}
    (h : memory.frame slot.node = other.frame slot.node) : memory.entry slot = other.entry slot := by
  have hi := slot.index_lt
  have hread : memory.read slot.address 8 = other.read slot.address 8 := by
    apply Bytes.read_congr
    intro j hj
    rw [slot.address_value, Nat.add_assoc]
    exact frame_eq_iff.mp h _ (by omega)
  simp only [entry, word, hread]

theorem entry_first (memory : Memory) (page : PhysPage) :
    memory.entry (.first page) = ⟨memory.word page.base⟩ := by
  rw [entry, EntrySlot.address_first]

theorem word_base_eq_of_frame_eq {memory other : Memory} {page : PhysPage}
    (h : memory.frame page = other.frame page) : memory.word page.base = other.word page.base := by
  have he : memory.entry (.first page) = other.entry (.first page) := entry_eq_of_frame_eq h
  rwa [entry_first, entry_first, Entry.mk.injEq] at he

-- Frames that exist are shown by the window.
theorem reach_base {memory : Memory} {page : PhysPage} (h : page.number < memory.frames) :
    memory.reach page.base = .ok () := by
  have hsize : page.base.value < memory.size := by
    rw [size, memory.size_eq, pageSize_eq, PhysPage.base_value]
    omega
  simp [reach, hsize]

theorem base_add_le_size {memory : Memory} {page : PhysPage} (h : page.number < memory.frames) :
    page.number * 4096 + 4096 ≤ memory.size :=
  base_add_le_of_reach memory page (reach_base h)

-- A write that stays in one frame leaves the others alone.
theorem frame_write_other {memory : Memory} {a : PhysAddr} {values : List UInt8}
    {page other : PhysPage} (hstart : page.number * 4096 ≤ a.value)
    (hend : a.value + values.length ≤ page.number * 4096 + 4096) (hne : other ≠ page) :
    (memory.write a values).frame other = memory.frame other := by
  have hn : other.number ≠ page.number := fun h => hne (PhysPage.ext_number h)
  apply Bytes.read_write_outside
  rw [PhysPage.base_value, pageSize_eq]
  omega

@[simp]
theorem frames_setWord (memory : Memory) (a : PhysAddr) (w : UInt64) :
    (memory.setWord a w).frames = memory.frames := frames_write _ _ _

@[simp]
theorem frames_setEntry (memory : Memory) (slot : EntrySlot) (e : Entry) :
    (memory.setEntry slot e).frames = memory.frames := frames_write _ _ _

@[simp]
theorem frames_fillFrame (memory : Memory) (page : PhysPage) (v : UInt8) :
    (memory.fillFrame page v).frames = memory.frames := frames_write _ _ _

theorem frame_fillFrame_other {memory : Memory} {page other : PhysPage} {v : UInt8}
    (hne : other ≠ page) : (memory.fillFrame page v).frame other = memory.frame other :=
  frame_write_other (Nat.le_refl _) (by rw [List.length_replicate]; exact Nat.le_refl _) hne

theorem frame_fillFrame_same {memory : Memory} {page : PhysPage} (v : UInt8)
    (h : page.number < memory.frames) :
    (memory.fillFrame page v).frame page = List.replicate 4096 v := by
  have hfit := Bytes.read_write memory.bytes page.base.value (List.replicate pageSize v) (by
    rw [List.length_replicate]
    exact base_add_le_size h)
  rw [List.length_replicate] at hfit
  rw [frame, read, fillFrame, bytes_write, hfit, pageSize_eq]

theorem frame_setEntry_other {memory : Memory} {slot : EntrySlot} {e : Entry} {other : PhysPage}
    (hne : other ≠ slot.node) : (memory.setEntry slot e).frame other = memory.frame other := by
  have ha := slot.address_value
  have hi := slot.index_lt
  exact frame_write_other (by omega) (by rw [Bytes.length_ofNumber]; omega) hne

theorem frame_setWord_base_other {memory : Memory} {page other : PhysPage} {w : UInt64}
    (hne : other ≠ page) : (memory.setWord page.base w).frame other = memory.frame other :=
  frame_write_other (Nat.le_refl _) (by simp [PhysPage.base_value]) hne

-- A word that is stored is all that is written.
theorem byteAt_setWord_outside {memory : Memory} {a : PhysAddr} {w : UInt64} {i : Nat}
    (h : i < a.value ∨ a.value + 8 ≤ i) :
    Bytes.byteAt (memory.setWord a w).bytes i = Bytes.byteAt memory.bytes i := by
  rw [setWord, bytes_write]
  exact Bytes.byteAt_write_outside _ _ _ _ (by rwa [Bytes.length_ofNumber])

theorem byte_setEntry_outside {memory : Memory} {slot : EntrySlot} {e : Entry} {a : PhysAddr}
    (h : a.value < slot.address.value ∨ slot.address.value + 8 ≤ a.value) :
    (memory.setEntry slot e).byte a = memory.byte a := byteAt_setWord_outside h

theorem entry_setEntry_same {memory : Memory} {slot : EntrySlot} (e : Entry)
    (h : slot.node.number < memory.frames) : (memory.setEntry slot e).entry slot = e := by
  have ha := slot.address_value
  have hs := base_add_le_size h
  have hi := slot.index_lt
  simp only [entry, setEntry]
  rw [word_setWord_same _ _ _ (by omega)]

-- A new entry shows in the frame.
theorem frame_setEntry_ne {memory : Memory} {slot : EntrySlot} {e : Entry}
    (h : slot.node.number < memory.frames) (hne : memory.entry slot ≠ e) :
    (memory.setEntry slot e).frame slot.node ≠ memory.frame slot.node := by
  intro hframe
  have hentry := entry_eq_of_frame_eq hframe
  rw [entry_setEntry_same e h] at hentry
  exact hne hentry.symm

theorem entry_setEntry_other {memory : Memory} {slot other : EntrySlot} {e : Entry}
    (hne : other ≠ slot) : (memory.setEntry slot e).entry other = memory.entry other := by
  by_cases hnode : other.node = slot.node
  · have hindex : other.index.val ≠ slot.index.val := by
      intro h
      apply hne
      obtain ⟨node, index⟩ := other
      obtain ⟨_, _⟩ := slot
      cases hnode
      cases Fin.ext h
      rfl
    have ha := slot.address_value
    have hb := other.address_value
    rw [hnode] at hb
    simp only [entry, setEntry]
    rw [word_setWord_other _ _ _ _ (by omega)]
  · exact entry_eq_of_frame_eq (frame_setEntry_other hnode)

theorem word_base_setEntry_other {memory : Memory} {slot : EntrySlot} {e : Entry} {page : PhysPage}
    (hne : EntrySlot.first page ≠ slot) :
    (memory.setEntry slot e).word page.base = memory.word page.base := by
  have hentry : (memory.setEntry slot e).entry (.first page) = memory.entry (.first page) :=
    entry_setEntry_other hne
  rwa [entry_first, entry_first, Entry.mk.injEq] at hentry

theorem word_setWord_base_same {memory : Memory} {page : PhysPage} (w : UInt64)
    (h : page.number < memory.frames) : (memory.setWord page.base w).word page.base = w := by
  have hs := base_add_le_size h
  apply word_setWord_same
  rw [PhysPage.base_value]
  exact Nat.le_trans (Nat.add_le_add_left (by decide) _) hs

-- Every entry of a frame of zeros is empty.
theorem entry_fillFrame_zero {memory : Memory} {page : PhysPage} (index : Fin nodeEntries)
    (h : page.number < memory.frames) :
    (memory.fillFrame page 0).entry ⟨page, index⟩ = .empty := by
  have hs := base_add_le_size h
  have hi := EntrySlot.index_lt ⟨page, index⟩
  have hread : (memory.fillFrame page 0).read (EntrySlot.address ⟨page, index⟩) 8 =
      List.replicate 8 0 := by
    refine List.eq_replicate_iff.mpr ⟨Bytes.length_read _ _ _, fun v hv => ?_⟩
    obtain ⟨j, hj, rfl⟩ := List.getElem_of_mem hv
    have hj8 : j < 8 := by rwa [read, Bytes.length_read] at hj
    have hget := Bytes.getElem?_read (memory.fillFrame page 0).bytes
      (EntrySlot.address ⟨page, index⟩).value 8 j hj8
    have hplace : (EntrySlot.address ⟨page, index⟩).value + j =
        page.base.value + (8 * index.val + j) := by
      rw [EntrySlot.address_value, PhysPage.base_value, Nat.add_assoc]
    have hzero : Bytes.byteAt (memory.fillFrame page 0).bytes
        ((EntrySlot.address ⟨page, index⟩).value + j) = 0 := by
      rw [hplace, fillFrame, bytes_write, Bytes.byteAt_write_inside, List.getElem_replicate]
      · rw [List.length_replicate, PhysPage.base_value, pageSize_eq]
        exact hs
      · rw [List.length_replicate, pageSize_eq]
        simp only at hi
        omega
    rw [← Option.some_inj, ← List.getElem?_eq_getElem hj]
    exact hget.trans (congrArg some hzero)
  simp only [entry, word, hread, Bytes.number_replicate_zero]
  rfl

end Memory

namespace Machine

theorem run_inspect_reach {machine : Machine} {page : PhysPage}
    (h : page.number < machine.memory.frames) :
    (inspect (·.reach page.base)).run machine = .ok () machine :=
  run_inspect_ok (Memory.reach_base h)

end Machine

end PagedMemory
