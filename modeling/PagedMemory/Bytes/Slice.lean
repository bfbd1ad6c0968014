import PagedMemory.Bytes.Basic
import PagedMemory.Fault

namespace PagedMemory

-- A cut takes the bytes from `start` up to `stop`; both must be in order and inside the whole.
def checkCut (start stop size : Nat) : Except Fault Unit :=
  if stop < start then .error .cutReversed
  else if size < stop then .error .cutTooLong
  else .ok ()

-- A bounded view over the bytes of a buffer. A slice of nothing has no place in it and no bytes.
structure BufferSlice where
  start? : Option Nat
  size : Nat
deriving DecidableEq

namespace BufferSlice

def nothing : BufferSlice := ⟨none, 0⟩

def whole (buffer : ByteArray) : BufferSlice := ⟨some 0, buffer.size⟩

def isEmpty (slice : BufferSlice) : Bool := slice.size == 0

def cut (slice : BufferSlice) (start stop : Nat) : Except Fault BufferSlice := do
  checkCut start stop slice.size
  return ⟨slice.start?.map (· + start), stop - start⟩

-- The place of a byte of the slice in its buffer.
def locate (slice : BufferSlice) (index : Nat) : Except Fault Nat :=
  if index < slice.size then .ok (slice.start?.getD 0 + index) else .error .indexOutsideSlice

def contents (slice : BufferSlice) (buffer : ByteArray) : List UInt8 :=
  Bytes.read buffer (slice.start?.getD 0) slice.size

def sum (slice : BufferSlice) (buffer : ByteArray) : Nat :=
  (slice.contents buffer).foldl (fun total v => total + v.toNat) 0

def fill (slice : BufferSlice) (value : UInt8) (buffer : ByteArray) : ByteArray :=
  Bytes.write buffer (slice.start?.getD 0) (List.replicate slice.size value)

end BufferSlice

end PagedMemory
