namespace PagedMemory

-- A page, and the frame behind it, is 4096 bytes long.
def pageShift : Nat := 12
def pageSize : Nat := 1 <<< pageShift

-- A table has three levels of nodes, each an array of 512 words.
def tableLevels : Nat := 3
def indexBits : Nat := 9
def nodeEntries : Nat := 1 <<< indexBits

theorem pageSize_eq : pageSize = 4096 := rfl

theorem nodeEntries_eq : nodeEntries = 512 := rfl

-- A byte of physical memory: 56 bits.
structure PhysAddr where
  value : Nat
  isLt : value < 0x100000000000000
deriving DecidableEq

-- A frame of physical memory: the 44 bits of a physical address above the offset.
structure PhysPage where
  number : Nat
  isLt : number < 0x100000000000
deriving DecidableEq

-- A byte of an address space: 39 bits.
structure VirtAddr where
  value : Nat
  isLt : value < 0x8000000000
deriving DecidableEq

-- A page of an address space: three indices of 9 bits, the root's on top.
structure VirtPage where
  number : Nat
  isLt : number < 0x8000000
deriving DecidableEq

namespace PhysAddr

def bits : Nat := 56

-- Bits above the width are dropped.
def ofNat (n : Nat) : PhysAddr := ⟨n % 0x100000000000000, Nat.mod_lt _ (by decide)⟩

instance : Inhabited PhysAddr := ⟨ofNat 0⟩

instance : LT PhysAddr := ⟨fun a b => a.value < b.value⟩

instance (a b : PhysAddr) : Decidable (a < b) := Nat.decLt a.value b.value

def offset (a : PhysAddr) : Nat := a.value % pageSize

def isAligned (a : PhysAddr) : Bool := a.offset == 0

-- The frame that holds the byte.
def page (a : PhysAddr) : PhysPage :=
  ⟨a.value / pageSize, by have := a.isLt; rw [pageSize_eq]; omega⟩

-- The first frame that starts at or after the byte; past the last frame this is frame 0 again.
def pageCeil (a : PhysAddr) : PhysPage :=
  ⟨(a.value + (pageSize - 1)) / pageSize % 0x100000000000, Nat.mod_lt _ (by decide)⟩

-- Addresses are added modulo their width.
def add (a : PhysAddr) (n : Nat) : PhysAddr := ofNat (a.value + n)

instance : HAdd PhysAddr Nat PhysAddr := ⟨add⟩

end PhysAddr

namespace PhysPage

def bits : Nat := 44

def ofNat (n : Nat) : PhysPage := ⟨n % 0x100000000000, Nat.mod_lt _ (by decide)⟩

instance : Inhabited PhysPage := ⟨ofNat 0⟩

instance : LT PhysPage := ⟨fun a b => a.number < b.number⟩

instance : LE PhysPage := ⟨fun a b => a.number ≤ b.number⟩

instance (a b : PhysPage) : Decidable (a < b) := Nat.decLt a.number b.number

instance (a b : PhysPage) : Decidable (a ≤ b) := Nat.decLe a.number b.number

-- The frame's first byte.
def base (p : PhysPage) : PhysAddr :=
  ⟨p.number * pageSize, by have := p.isLt; rw [pageSize_eq]; omega⟩

-- The next frame; the last one is followed by the first.
def next (p : PhysPage) : PhysPage := ofNat (p.number + 1)

end PhysPage

namespace VirtAddr

def bits : Nat := 39

def ofNat (n : Nat) : VirtAddr := ⟨n % 0x8000000000, Nat.mod_lt _ (by decide)⟩

instance : Inhabited VirtAddr := ⟨ofNat 0⟩

instance : LT VirtAddr := ⟨fun a b => a.value < b.value⟩

instance (a b : VirtAddr) : Decidable (a < b) := Nat.decLt a.value b.value

def offset (a : VirtAddr) : Nat := a.value % pageSize

def isAligned (a : VirtAddr) : Bool := a.offset == 0

def page (a : VirtAddr) : VirtPage :=
  ⟨a.value / pageSize, by have := a.isLt; rw [pageSize_eq]; omega⟩

def pageCeil (a : VirtAddr) : VirtPage :=
  ⟨(a.value + (pageSize - 1)) / pageSize % 0x8000000, Nat.mod_lt _ (by decide)⟩

def add (a : VirtAddr) (n : Nat) : VirtAddr := ofNat (a.value + n)

instance : HAdd VirtAddr Nat VirtAddr := ⟨add⟩

end VirtAddr

namespace VirtPage

def bits : Nat := 27

-- How many pages an address space has.
def count : Nat := 1 <<< bits

def ofNat (n : Nat) : VirtPage := ⟨n % 0x8000000, Nat.mod_lt _ (by decide)⟩

instance : Inhabited VirtPage := ⟨ofNat 0⟩

instance : LT VirtPage := ⟨fun a b => a.number < b.number⟩

instance : LE VirtPage := ⟨fun a b => a.number ≤ b.number⟩

instance (a b : VirtPage) : Decidable (a < b) := Nat.decLt a.number b.number

instance (a b : VirtPage) : Decidable (a ≤ b) := Nat.decLe a.number b.number

def base (p : VirtPage) : VirtAddr :=
  ⟨p.number * pageSize, by have := p.isLt; rw [pageSize_eq]; omega⟩

def next (p : VirtPage) : VirtPage := ofNat (p.number + 1)

-- The index into the node that has `height` levels below it: the leaves' nodes have height 0 and
-- the root has height 2.
def indexAt (p : VirtPage) (height : Nat) : Fin nodeEntries :=
  ⟨p.number >>> (indexBits * height) % nodeEntries, Nat.mod_lt _ (by decide)⟩

-- The indices in the order a walk uses them, the root's first.
def indices (p : VirtPage) : List (Fin nodeEntries) :=
  (List.range tableLevels).map fun level => p.indexAt (tableLevels - 1 - level)

end VirtPage

-- An address and its frame and offset say the same.
theorem PhysAddr.base_page_add_offset (a : PhysAddr) : a.page.base.value + a.offset = a.value := by
  simp only [PhysAddr.page, PhysPage.base, PhysAddr.offset]
  exact Nat.div_add_mod' a.value pageSize

theorem PhysPage.page_base (p : PhysPage) : p.base.page = p := by
  cases p with
  | mk n h => simp [PhysPage.base, PhysAddr.page, pageSize_eq]

theorem VirtAddr.base_page_add_offset (a : VirtAddr) : a.page.base.value + a.offset = a.value := by
  simp only [VirtAddr.page, VirtPage.base, VirtAddr.offset]
  exact Nat.div_add_mod' a.value pageSize

theorem VirtPage.page_base (p : VirtPage) : p.base.page = p := by
  cases p with
  | mk n h => simp [VirtPage.base, VirtAddr.page, pageSize_eq]

-- The three indices are the digits of the page number, so they determine it.
theorem VirtPage.number_eq_indices (p : VirtPage) :
    p.number = ((p.indexAt 2).val * nodeEntries + (p.indexAt 1).val) * nodeEntries +
      (p.indexAt 0).val := by
  have := p.isLt
  simp only [VirtPage.indexAt, nodeEntries_eq, indexBits, Nat.shiftRight_eq_div_pow]
  omega

end PagedMemory
