import PagedMemory.Address

namespace PagedMemory

-- The permissions and marks of a table entry, from its lowest bit up.
inductive Flag where
  | valid
  | readable
  | writable
  | executable
  | user
  | global
  | accessed
  | dirty
deriving DecidableEq

namespace Flag

def all : List Flag :=
  [.valid, .readable, .writable, .executable, .user, .global, .accessed, .dirty]

def mask : Flag → UInt8
  | .valid => 0x01
  | .readable => 0x02
  | .writable => 0x04
  | .executable => 0x08
  | .user => 0x10
  | .global => 0x20
  | .accessed => 0x40
  | .dirty => 0x80

end Flag

-- A set of flags, one bit each.
structure Flags where
  bits : UInt8
deriving DecidableEq

namespace Flags

def empty : Flags := ⟨0⟩

def single (flag : Flag) : Flags := ⟨flag.mask⟩

def has (flags : Flags) (flag : Flag) : Bool := flags.bits &&& flag.mask != 0

def put (flags : Flags) (flag : Flag) (on : Bool) : Flags :=
  ⟨if on then flags.bits ||| flag.mask else flags.bits &&& ~~~flag.mask⟩

def isEmpty (flags : Flags) : Bool := flags.bits == 0

def union (a b : Flags) : Flags := ⟨a.bits ||| b.bits⟩

def inter (a b : Flags) : Flags := ⟨a.bits &&& b.bits⟩

-- Every flag of `b` is also in `a`.
def contains (a b : Flags) : Bool := a.bits &&& b.bits == b.bits

-- Setting the flags one after the other, in their order.
def putAll (flags : Flags) (values : List Bool) : Flags :=
  (Flag.all.zip values).foldl (fun flags (flag, on) => flags.put flag on) flags

end Flags

-- A word of a table: flags in the low eight bits, two free bits, the frame in bits 10 to 53. The
-- other bits are kept as they are.
structure Entry where
  bits : UInt64
deriving DecidableEq

namespace Entry

def empty : Entry := ⟨0⟩

-- A new entry has zeros outside its frame and flags.
def new (page : PhysPage) (flags : Flags) : Entry :=
  ⟨UInt64.ofNat page.number <<< 10 ||| flags.bits.toUInt64⟩

def page (entry : Entry) : PhysPage := .ofNat (entry.bits >>> 10).toNat

def flags (entry : Entry) : Flags := ⟨entry.bits.toUInt8⟩

def has (entry : Entry) (flag : Flag) : Bool := entry.flags.has flag

def isValid (entry : Entry) : Bool := entry.has .valid

-- Entries above the leaves only point onward: they are valid and carry no permission.
def node (page : PhysPage) : Entry := new page (.single .valid)

-- A leaf is valid whatever flags it is given.
def leaf (page : PhysPage) (flags : Flags) : Entry := new page (flags.union (.single .valid))

theorem isValid_empty : empty.isValid = false := by decide

theorem toNat_bits_new (page : PhysPage) (flags : Flags) :
    (new page flags).bits.toNat = page.number * 1024 + flags.bits.toNat := by
  have hp := page.isLt
  have hf := flags.bits.toNat_lt
  simp only [new, UInt64.toNat_or, UInt64.toNat_shiftLeft, UInt64.toNat_ofNat', UInt8.toNat_toUInt64]
  rw [Nat.mod_eq_of_lt (by omega : page.number < 2 ^ 64), Nat.shiftLeft_eq]
  have h10 : (10 : UInt64).toNat % 64 = 10 := rfl
  rw [h10, Nat.mod_eq_of_lt (by omega)]
  have := Nat.shiftLeft_add_eq_or_of_lt (i := 10) (by omega : flags.bits.toNat < 2 ^ 10) page.number
  rw [Nat.shiftLeft_eq] at this
  omega

-- A new entry gives back the frame it was made from.
theorem page_new (page : PhysPage) (flags : Flags) : (new page flags).page = page := by
  have hp := page.isLt
  have hf := flags.bits.toNat_lt
  have hb := toNat_bits_new page flags
  cases page with
  | mk n h =>
      simp only [Entry.page, PhysPage.ofNat, UInt64.toNat_shiftRight, hb, PhysPage.mk.injEq]
      have h10 : (10 : UInt64).toNat % 64 = 10 := rfl
      rw [h10, Nat.shiftRight_eq_div_pow]
      simp only at hf hp ⊢
      omega

theorem flags_new (page : PhysPage) (flags : Flags) : (new page flags).flags = flags := by
  have hf := flags.bits.toNat_lt
  have hb := toNat_bits_new page flags
  cases flags with
  | mk bits =>
      simp only [Entry.flags, Flags.mk.injEq]
      apply UInt8.toNat_inj.mp
      rw [UInt64.toNat_toUInt8, hb]
      simp only at hf ⊢
      omega

theorem isValid_node (page : PhysPage) : (node page).isValid = true := by
  simp [isValid, has, node, flags_new, Flags.has, Flags.single, Flag.mask]

theorem page_node (page : PhysPage) : (node page).page = page := page_new page _

end Entry

end PagedMemory
