import PagedMemory.Bytes.Slice
import PagedMemory.Table.Basic

namespace PagedMemory

-- A run of bytes of an address space, given by 64-bit addresses. Its pages are looked up whenever
-- its bytes are touched.
structure UserRange where
  table : PageTable
  start : UInt64
  stop : UInt64
deriving DecidableEq

-- Bytes of one frame.
structure FrameSlice where
  start : PhysAddr
  size : Nat
deriving DecidableEq

namespace UserRange

-- The first address after a page; after the last page of all, this is address zero.
def pageEnd (a : UInt64) : UInt64 := a / 4096 * 4096 + 4096

-- The start of the last page.
def lastPage : UInt64 := 0xfffffffffffff000

def pageOf (a : UInt64) : VirtPage := (VirtAddr.ofNat a.toNat).page

-- How many pages the addresses from `start` up to `stop` lie in.
def pageCount (start stop : UInt64) : Nat :=
  if start < stop then (stop.toNat - 1) / pageSize - start.toNat / pageSize + 1 else 0

-- Every one of `count` pages is mapped, the first at `a` and the others after it.
def checkMapped (table : PageTable) (memory : Memory) : Nat → UInt64 → Except Fault Unit
  | 0, _ => .ok ()
  | count + 1, a => do
      match ← table.translate? (pageOf a) memory with
      | none => .error (.pageUnmapped a)
      | some _ => checkMapped table memory count (pageEnd a)

-- A range all of whose pages are mapped. Pages are tried in order from the start, and no page is
-- the last one for a range that runs into the last page of all: after it come all the others, and
-- they repeat after one round of the address space.
def ofMapped (table : PageTable) (start length : UInt64) (memory : Memory) :
    Except Stop UserRange := do
  let stop := start + length
  if stop < start then .error (.fault .rangeWraps)
  else if start < stop ∧ lastPage < stop then
    (checkMapped table memory VirtPage.count start).mapError .fault
    .error .endless
  else
    (checkMapped table memory (pageCount start stop) start).mapError .fault
    return ⟨table, start, stop⟩

def size (range : UserRange) : UInt64 := range.stop - range.start

-- The address at which the slice after the one at `a` starts.
def nextStart (range : UserRange) (a : UInt64) : UInt64 :=
  if pageEnd a < range.stop then pageEnd a else range.stop

def startsFrom (range : UserRange) : Nat → UInt64 → List UInt64
  | 0, _ => []
  | count + 1, a =>
      if a < range.stop then a :: range.startsFrom count (range.nextStart a) else []

-- The addresses at which the slices of the range start, in order.
def starts (range : UserRange) : List UInt64 :=
  range.startsFrom (pageCount range.start range.stop) range.start

-- The address that is reached from the start by passing `count` slices.
def advance (range : UserRange) (count : Nat) : UInt64 := count.repeat range.nextStart range.start

-- The bytes of the range from an address up to the end of its page, or of the range.
def sliceAt (range : UserRange) (a : UInt64) (memory : Memory) : Except Fault FrameSlice := do
  if range.stop ≤ a then .error .pastRangeEnd
  else
    match ← range.table.translate? (pageOf a) memory with
    | none => .error .sliceUnmapped
    | some entry =>
        memory.reach entry.page.base
        let offset := (VirtAddr.ofNat a.toNat).offset
        let stop := UInt64.ofNat offset + (range.nextStart a - a)
        checkCut offset stop.toNat pageSize
        return ⟨entry.page.base + offset, stop.toNat - offset⟩

def slices (range : UserRange) (memory : Memory) : Except Fault (List FrameSlice) :=
  range.starts.mapM (range.sliceAt · memory)

-- Copies at most `left` bytes into the slices that start at the given addresses, and counts them. A
-- slice is looked up before it is known whether bytes are left for it.
def copyInto (range : UserRange) : List UInt64 → Nat → List UInt8 → Action Machine Nat
  | [], _, _ => return 0
  | a :: rest, left, source => do
      let slice ← Machine.inspect (range.sliceAt a)
      if left = 0 then return 0
      else
        let count := min slice.size left
        Machine.change (·.write slice.start (source.take count))
        let more ← range.copyInto rest (left - count) (source.drop count)
        return count + more

-- Stores the first `count` bytes of a source in the range, as far as there is room.
def copyOut (range : UserRange) (source : List UInt8) (count : Nat) : Action Machine Nat :=
  range.copyInto range.starts count source

def copyFrom (range : UserRange) (memory : Memory) :
    List UInt64 → Nat → Except Fault (List UInt8)
  | [], _ => return []
  | a :: rest, left => do
      let slice ← range.sliceAt a memory
      if left = 0 then return []
      else
        let count := min slice.size left
        let more ← range.copyFrom memory rest (left - count)
        return memory.read slice.start count ++ more

-- Loads the first `count` bytes of the range, or all of them if there are fewer.
def copyIn (range : UserRange) (count : Nat) (memory : Memory) : Except Fault (List UInt8) :=
  range.copyFrom memory range.starts count

end UserRange

namespace PageTable

-- Stores bytes in an address space. Either every page of the range is mapped, or nothing is stored.
def copyToUser (table : PageTable) (start : UInt64) (source : List UInt8) : Action Machine Unit := do
  let range ← Machine.consult (UserRange.ofMapped table start (UInt64.ofNat source.length))
  let copied ← range.copyOut source source.length
  if copied = source.length then return () else Machine.fail .copyCutShort

-- Loads bytes from an address space.
def copyFromUser (table : PageTable) (start length : UInt64) : Action Machine (List UInt8) := do
  let range ← Machine.consult (UserRange.ofMapped table start length)
  let bytes ← Machine.inspect (range.copyIn length.toNat)
  if bytes.length = length.toNat then return bytes else Machine.fail .copyCutShort

end PageTable

end PagedMemory
