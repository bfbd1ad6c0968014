import PagedMemory.Bytes.Basic
import PagedMemory.Fault
import PagedMemory.Table.Entry

namespace PagedMemory

-- Physical memory: whole frames from address zero up. The kernel's window shows all of it and
-- nothing else.
structure Memory where
  bytes : ByteArray
  frames : Nat
  size_eq : bytes.size = frames * pageSize

namespace Memory

-- Memory whose every byte is `value`.
def filled (frames : Nat) (value : UInt8) : Memory :=
  ⟨⟨Array.replicate (frames * pageSize) value⟩, frames, by simp [ByteArray.size]⟩

def size (memory : Memory) : Nat := memory.bytes.size

def byte (memory : Memory) (a : PhysAddr) : UInt8 := Bytes.byteAt memory.bytes a.value

def read (memory : Memory) (a : PhysAddr) (count : Nat) : List UInt8 :=
  Bytes.read memory.bytes a.value count

def write (memory : Memory) (a : PhysAddr) (values : List UInt8) : Memory :=
  match memory with
  | ⟨bytes, frames, size_eq⟩ =>
      ⟨Bytes.write bytes a.value values, frames, by rw [Bytes.size_write]; exact size_eq⟩

-- A word is eight bytes, the least significant first.
def word (memory : Memory) (a : PhysAddr) : UInt64 :=
  UInt64.ofNat (Bytes.number (memory.read a 8))

def setWord (memory : Memory) (a : PhysAddr) (w : UInt64) : Memory :=
  memory.write a (Bytes.ofNumber 8 w.toNat)

def frame (memory : Memory) (page : PhysPage) : List UInt8 := memory.read page.base pageSize

def fillFrame (memory : Memory) (page : PhysPage) (value : UInt8) : Memory :=
  memory.write page.base (List.replicate pageSize value)

@[simp]
theorem size_write (memory : Memory) (a : PhysAddr) (values : List UInt8) :
    (memory.write a values).size = memory.size := by
  cases memory
  exact Bytes.size_write _ _ _

@[simp]
theorem frames_write (memory : Memory) (a : PhysAddr) (values : List UInt8) :
    (memory.write a values).frames = memory.frames := by
  cases memory
  rfl

-- A word that was stored is loaded back.
theorem word_setWord_same (memory : Memory) (a : PhysAddr) (w : UInt64)
    (hfit : a.value + 8 ≤ memory.size) : (memory.setWord a w).word a = w := by
  cases memory with
  | mk bytes frames size_eq =>
      have := Bytes.read_write bytes a.value (Bytes.ofNumber 8 w.toNat)
        (by rw [Bytes.length_ofNumber]; exact hfit)
      rw [Bytes.length_ofNumber] at this
      have hw := w.toNat_lt
      apply UInt64.toNat_inj.mp
      simp only [word, setWord, read, write, this, Bytes.number_ofNumber_eight]
      rw [Nat.mod_eq_of_lt hw, UInt64.ofNat_toNat]

-- Words that do not overlap do not disturb each other.
theorem word_setWord_other (memory : Memory) (a b : PhysAddr) (w : UInt64)
    (h : a.value + 8 ≤ b.value ∨ b.value + 8 ≤ a.value) :
    (memory.setWord a w).word b = memory.word b := by
  cases memory with
  | mk bytes frames size_eq =>
      have := Bytes.read_write_outside bytes a.value b.value 8 (Bytes.ofNumber 8 w.toNat)
        (by rw [Bytes.length_ofNumber]; omega)
      simp only [word, setWord, read, write, this]

-- The check made before bytes at an address are touched. It looks at the first byte only, which is
-- enough for bytes that share a frame with it.
def reach (memory : Memory) (a : PhysAddr) : Except Fault Unit :=
  if a.value < memory.size then .ok () else .error .outsideWindow

-- A frame that the window shows is shown whole.
theorem base_add_le_of_reach (memory : Memory) (page : PhysPage)
    (h : memory.reach page.base = .ok ()) : page.base.value + pageSize ≤ memory.size := by
  simp only [reach] at h
  split at h
  · rename_i hlt
    simp only [size, memory.size_eq, PhysPage.base] at hlt ⊢
    have := Nat.lt_of_mul_lt_mul_right hlt
    rw [← Nat.succ_mul]
    exact Nat.mul_le_mul_right pageSize this
  · cases h

end Memory

-- A word of a node: the node's frame and the place in it.
structure EntrySlot where
  node : PhysPage
  index : Fin nodeEntries
deriving DecidableEq

namespace EntrySlot

def address (slot : EntrySlot) : PhysAddr := slot.node.base + 8 * slot.index.val

end EntrySlot

namespace Memory

def entry (memory : Memory) (slot : EntrySlot) : Entry := ⟨memory.word slot.address⟩

def setEntry (memory : Memory) (slot : EntrySlot) (entry : Entry) : Memory :=
  memory.setWord slot.address entry.bits

end Memory

end PagedMemory
