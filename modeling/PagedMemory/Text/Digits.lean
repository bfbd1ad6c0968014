namespace PagedMemory

-- The bases in which numbers are written.
inductive Base where
  | ten
  | sixteen
deriving DecidableEq

namespace Base

def value : Base → UInt64
  | .ten => 10
  | .sixteen => 16

theorem one_lt_value (base : Base) : 1 < base.value.toNat := by cases base <;> decide

end Base

-- The places in which a number is written before it is printed. A place to which nothing was written
-- holds nothing.
structure DigitBuffer where
  places : Vector (Option Char) 32

namespace DigitBuffer

def blank : DigitBuffer := ⟨Vector.replicate 32 none⟩

-- The character that ends a text.
def endMark : Char := '\x00'

-- What was written to a place, if there is such a place and anything was.
def at? (buffer : DigitBuffer) (place : Nat) : Option Char := buffer.places[place]?.join

-- Outside of the buffer nothing can be written.
def put (buffer : DigitBuffer) (place : Nat) (c : Char) : Option DigitBuffer :=
  if h : place < 32 then some ⟨buffer.places.set place (some c) h⟩ else none

-- The text from a place up to the mark at its end. There is none if the mark is missing.
def textFrom (buffer : DigitBuffer) (place : Nat) : Option (List Char) := do
  let c ← buffer.at? place
  if h : place < 32 then
    if c = endMark then return []
    else return c :: (← buffer.textFrom (place + 1))
  else none
termination_by 32 - place

end DigitBuffer

namespace Digits

-- The digits from ten up are letters.
def digit (d : Nat) : Char :=
  if d ≤ 9 then .ofNat (d + '0'.toNat) else .ofNat (d - 10 + 'a'.toNat)

theorem toNat_div_lt (base : Base) {n : UInt64} (h : n ≠ 0) :
    (n / base.value).toNat < n.toNat := by
  rw [UInt64.toNat_div]
  refine Nat.div_lt_self (Nat.pos_of_ne_zero fun hzero => h ?_) base.one_lt_value
  exact UInt64.toNat_inj.mp hzero

-- How many digits a number has. Zero is counted as having none.
def count (base : Base) (n : UInt64) : Nat :=
  if h : n = 0 then 0
  else
    have := toNat_div_lt base h
    count base (n / base.value) + 1
termination_by n.toNat

-- Writes the digits of a number from the last to the first, each in front of the one before. There
-- are `left` places for them from `start` on, and no digit stands before `start`.
def putDigits (base : Base) (start : Nat) : Nat → UInt64 → DigitBuffer → Option DigitBuffer
  | left, n, buffer =>
      if n = 0 then some buffer
      else match left with
        | 0 => none
        | left + 1 => do
            let buffer ← buffer.put (start + left) (digit (n % base.value).toNat)
            putDigits base start left (n / base.value) buffer

-- Writes a number, and the mark that ends it, from a place on.
def putUnsigned (base : Base) (n : UInt64) (start : Nat) (buffer : DigitBuffer) :
    Option DigitBuffer := do
  if n = 0 then
    (← buffer.put start '0').put (start + 1) DigitBuffer.endMark
  else
    let digits := count base n
    putDigits base start digits n (← buffer.put (start + digits) DigitBuffer.endMark)

-- The size of a negative number is its distance from zero, modulo the size of a word.
def putSigned (base : Base) (n : Int64) (buffer : DigitBuffer) : Option DigitBuffer := do
  if n < 0 then putUnsigned base (0 - n.toUInt64) 1 (← buffer.put 0 '-')
  else putUnsigned base n.toUInt64 0 buffer

def unsigned (base : Base) (n : UInt64) : Option (List Char) := do
  (← putUnsigned base n 0 .blank).textFrom 0

def signed (base : Base) (n : Int64) : Option (List Char) := do
  (← putSigned base n .blank).textFrom 0

end Digits

end PagedMemory
