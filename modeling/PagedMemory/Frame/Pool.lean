import PagedMemory.Action

namespace PagedMemory

-- A pool hands out the frames from `low` up to `high`. Those from `next` on were never taken.
-- Frames that were returned are on a stack: `top` was returned last, `stacked` counts them, and
-- the first word of each names the one below it.
structure FramePool where
  low : Nat := 0
  next : Nat := 0
  high : Nat := 0
  top : Option PhysPage := none
  stacked : Nat := 0
deriving DecidableEq

namespace FramePool

-- The word that stands below the last frame of the stack. No frame has this number.
def endMark : UInt64 := 0xffffffffffffffff

-- The word that names a frame, or nothing.
def linkTo : Option PhysPage → UInt64
  | some frame => UInt64.ofNat frame.number
  | none => endMark

-- The word that a frame on the stack holds.
def link (frame : PhysPage) (memory : Memory) : Except Fault UInt64 := do
  memory.reach frame.base
  return memory.word frame.base

-- A pool from which no frame was taken yet.
def between (low high : PhysPage) : Except Fault FramePool :=
  if low ≤ high then .ok { low := low.number, next := low.number, high := high.number }
  else .error .framesReversed

-- How many frames can be taken before there are none.
def remaining (pool : FramePool) : Nat := (pool.high - pool.next) + pool.stacked

-- A word may stand below the top of the stack if it is the end mark and no frame is left there, or
-- the number of a frame that was taken at some time and frames are left.
def canStandBelow (pool : FramePool) (word : UInt64) : Bool :=
  if word = endMark then pool.stacked == 0
  else pool.stacked > 0 && pool.low ≤ word.toNat && word.toNat < pool.next

-- What a word that can stand in a link names.
def ofLink (word : UInt64) : Option PhysPage :=
  if word = endMark then none else some (.ofNat word.toNat)

-- The frame returned last is taken first; a frame that was never taken only when none was returned.
def take : Action (Machine × FramePool) (Option PhysPage) := do
  let (_, pool) ← get
  match pool.top with
  | some frame =>
      let word ← Action.onFirst (Machine.inspect (link frame))
      let left := { pool with stacked := pool.stacked - 1 }
      Action.onSecond (set left)
      if left.canStandBelow word then
        Action.onSecond (set { left with top := ofLink word })
        return some frame
      else
        Action.onFirst (Machine.fail (.brokenLink frame word left.stacked))
  | none =>
      if pool.next = pool.high then return none
      else
        Action.onSecond (set { pool with next := pool.next + 1 })
        return some (.ofNat pool.next)

-- Looks for a frame on the stack below a link. The steps are counted down: a stack that is longer
-- than memory has frames runs in a circle, and the search never ends.
def searchBelow (frame : PhysPage) (memory : Memory) : Nat → UInt64 → Except Stop Bool
  | steps, word =>
      if word = endMark then .ok false
      else if word.toNat = frame.number then .ok true
      else match steps with
        | 0 => .error .endless
        | steps + 1 => do
            let below ← (link (.ofNat word.toNat) memory).mapError .fault
            searchBelow frame memory steps below

-- Whether a frame was returned and not taken again.
def isStacked (pool : FramePool) (frame : PhysPage) (memory : Memory) : Except Stop Bool :=
  searchBelow frame memory (memory.frames + 2) (linkTo pool.top)

-- A frame is out if it was taken and is not on the stack.
def isOut (pool : FramePool) (frame : PhysPage) (memory : Memory) : Except Stop Bool :=
  if pool.low ≤ frame.number ∧ frame.number < pool.next then do
    let stacked ← pool.isStacked frame memory
    return !stacked
  else .ok false

-- Only a frame that is out can be returned. It becomes the top of the stack.
def giveBack (frame : PhysPage) : Action (Machine × FramePool) Unit := do
  let (_, pool) ← get
  if ← Action.onFirst (Machine.consult (pool.isOut frame)) then
    Action.onFirst do
      Machine.inspect (·.reach frame.base)
      Machine.change (·.setWord frame.base (linkTo pool.top))
    Action.onSecond (set { pool with top := some frame, stacked := pool.stacked + 1 })
  else
    Action.onFirst (Machine.fail (.notAllocated frame))

end FramePool

end PagedMemory
