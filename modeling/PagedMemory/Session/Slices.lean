import PagedMemory.Bytes.Slice
import PagedMemory.Slots

namespace PagedMemory

-- A buffer and the slices of it that have a number.
structure SlicedBuffer where
  buffer : ByteArray
  slices : Slots BufferSlice

inductive SliceCommand where
  | describe (slot : Nat)
  | clear (slot : Nat)
  | cut (slot start stop target : Nat)
  | get (slot index : Nat)
  | set (slot index : Nat) (value : UInt8)
  | fill (slot : Nat) (value : UInt8)

inductive SliceReply where
  | done
  | description (slice : BufferSlice) (sum : Nat)
  | slice (slice : BufferSlice)
  | byte (value : UInt8)
  | buffer (contents : List UInt8)

namespace SlicedBuffer

-- Bytes count up from zero and start again after 255. Slot 0 views them all.
def counting (size : Nat) : SlicedBuffer :=
  let buffer := ((List.range size).map UInt8.ofNat).toByteArray
  ⟨buffer, Slots.set {} 0 (.whole buffer)⟩

-- A slot that was never filled holds a slice of nothing.
def slice (state : SlicedBuffer) (slot : Nat) : BufferSlice :=
  (state.slices.get? slot).getD .nothing

private def contents (state : SlicedBuffer) : SliceReply :=
  .buffer (Bytes.read state.buffer 0 state.buffer.size)

def step (state : SlicedBuffer) : SliceCommand → Except Fault (SlicedBuffer × SliceReply)
  | .describe slot =>
      let slice := state.slice slot
      .ok (state, .description slice (slice.sum state.buffer))
  | .clear slot => .ok ({ state with slices := state.slices.set slot .nothing }, .done)
  | .cut slot start stop target => do
      let part ← (state.slice slot).cut start stop
      return ({ state with slices := state.slices.set target part }, .slice part)
  | .get slot index => do
      let place ← (state.slice slot).locate index
      return (state, .byte (Bytes.byteAt state.buffer place))
  | .set slot index value => do
      let place ← (state.slice slot).locate index
      let changed := { state with buffer := Bytes.setByte state.buffer place value }
      return (changed, changed.contents)
  | .fill slot value =>
      let changed := { state with buffer := (state.slice slot).fill value state.buffer }
      .ok (changed, changed.contents)

end SlicedBuffer

end PagedMemory
