import PagedMemory.Frame.Pool
import PagedMemory.Shared.Deferred
import PagedMemory.Shared.Exclusive

namespace PagedMemory

-- Usable memory ends 8 MiB above its start unless the caller says otherwise.
def defaultMemoryEnd : UInt64 := 0x80800000

-- A machine with the frame pool that all of it shares.
structure Kernel where
  machine : Machine
  pool : Deferred (Exclusive FramePool)

namespace Kernel

variable {α : Type}

-- A machine with no pool yet.
def boot (memory : Memory) : Kernel := ⟨⟨memory, []⟩, {}⟩

def onMachine (action : Action Machine α) : Action Kernel α := fun ⟨machine, pool⟩ =>
  match action machine with
  | .ok a machine => .ok a ⟨machine, pool⟩
  | .error stop machine => .error stop ⟨machine, pool⟩

def fail (cause : Fault) : Action Kernel α := onMachine (Machine.fail cause)

-- Borrows the pool for the length of an action. An action that stops never gives it back.
def withPool (action : Action (Machine × FramePool) α) : Action Kernel α := fun ⟨machine, pool⟩ =>
  match pool.get >>= Exclusive.borrow with
  | .error cause => fail cause ⟨machine, pool⟩
  | .ok held =>
      match action (machine, held.value) with
      | .ok a (machine, value) => .ok a ⟨machine, pool.build { held with value }.release⟩
      | .error stop (machine, value) => .error stop ⟨machine, pool.build { held with value }⟩

-- What is logged of a pool that was given its frames.
def rangeEntry (low high : PhysPage) : LogEntry :=
  ⟨.info, "frame allocator: ppn " ++ Numeral.hexText low.number ++ " to " ++
    Numeral.hexText high.number ++ " (" ++ Numeral.decimalText (high.number - low.number) ++
    " frames)"⟩

-- Hands every whole frame between two byte addresses to the pool, which is built at the first use.
def initFrames (kernelEnd memoryEnd : UInt64) : Action Kernel Unit := do
  let low := (PhysAddr.ofNat kernelEnd.toNat).pageCeil
  let high := (PhysAddr.ofNat memoryEnd.toNat).page
  modify fun ⟨machine, pool⟩ => ⟨machine, if pool.isBuilt then pool else pool.build { value := {} }⟩
  withPool do
    let pool ← Action.onFirst (Machine.check (FramePool.between low high))
    Action.onSecond (set pool)
  onMachine (Machine.report (rangeEntry low high))

-- Hands frames of memory to the pool by their numbers.
def initFrameRange (low high : UInt64) : Action Kernel Unit := do
  onMachine <| Machine.inspect fun memory =>
    if high.toNat ≤ memory.frames then .ok () else .error .beyondMemory
  initFrames (UInt64.ofNat (PhysPage.ofNat low.toNat).base.value)
    (UInt64.ofNat (PhysPage.ofNat high.toNat).base.value)

def remainingFrames : Action Kernel Nat :=
  withPool (Action.onSecond (FramePool.remaining <$> get))

def takeFrame : Action Kernel (Option PhysPage) := withPool FramePool.take

def giveBackFrame (frame : PhysPage) : Action Kernel Unit := withPool (FramePool.giveBack frame)

def isStackedFrame (frame : PhysPage) : Action Kernel Bool :=
  withPool do
    let (_, pool) ← get
    Action.onFirst (Machine.consult (pool.isStacked frame))

-- Takes the pool and keeps it, until it is let go.
def holdPool : Action Kernel Unit := fun ⟨machine, pool⟩ =>
  match pool.get >>= Exclusive.borrow with
  | .error cause => fail cause ⟨machine, pool⟩
  | .ok held => .ok () ⟨machine, pool.build held⟩

def letGoPool : Action Kernel Unit := fun ⟨machine, pool⟩ =>
  .ok () ⟨machine, ⟨pool.value?.map Exclusive.release⟩⟩

end Kernel

end PagedMemory
