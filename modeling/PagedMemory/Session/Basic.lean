import PagedMemory.Slots
import PagedMemory.Table.Build
import PagedMemory.User.Range

namespace PagedMemory

-- A kernel and the objects that are kept on it, by number. Objects that are still there at the end
-- of a session are not ended.
structure Session where
  kernel : Kernel
  pools : Slots FramePool := {}
  frames : Slots OwnedFrame := {}
  tables : Slots PageTable := {}
  ranges : Slots UserRange := {}

namespace Session

variable {α : Type}

def boot (memory : Memory) : Session := { kernel := .boot memory }

-- The memory a session starts with: 4 MiB of junk.
def junk : Memory := .filled 1024 0xcd

def onKernel (action : Action Kernel α) : Action Session α :=
  fun ⟨kernel, pools, frames, tables, ranges⟩ =>
    match action kernel with
    | .ok a kernel => .ok a ⟨kernel, pools, frames, tables, ranges⟩
    | .error stop kernel => .error stop ⟨kernel, pools, frames, tables, ranges⟩

def onMachine (action : Action Machine α) : Action Session α := onKernel (Kernel.onMachine action)

def required (object? : Option α) : Action Session α :=
  match object? with
  | some object => pure object
  | none => throw .absent

def pool (slot : Nat) : Action Session FramePool := do required ((← get).pools.get? slot)

def frame (slot : Nat) : Action Session OwnedFrame := do required ((← get).frames.get? slot)

def table (slot : Nat) : Action Session PageTable := do required ((← get).tables.get? slot)

def range (slot : Nat) : Action Session UserRange := do required ((← get).ranges.get? slot)

def keepPool (slot : Nat) (pool : FramePool) : Action Session Unit :=
  modify fun session => { session with pools := session.pools.set slot pool }

def keepFrame (slot : Nat) (frame : OwnedFrame) : Action Session Unit :=
  modify fun session => { session with frames := session.frames.set slot frame }

def keepTable (slot : Nat) (table : PageTable) : Action Session Unit :=
  modify fun session => { session with tables := session.tables.set slot table }

def keepRange (slot : Nat) (range : UserRange) : Action Session Unit :=
  modify fun session => { session with ranges := session.ranges.set slot range }

def forgetFrame (slot : Nat) : Action Session Unit :=
  modify fun session => { session with frames := session.frames.erase slot }

def forgetTable (slot : Nat) : Action Session Unit :=
  modify fun session => { session with tables := session.tables.erase slot }

-- Runs an action on the kernel and a kept table, whose changes last even if the action stops.
def onTable (slot : Nat) (action : Action (Kernel × PageTable) α) : Action Session α := do
  let table ← table slot
  fun ⟨kernel, pools, frames, tables, ranges⟩ =>
    match action (kernel, table) with
    | .ok a (kernel, table) => .ok a ⟨kernel, pools, frames, tables.set slot table, ranges⟩
    | .error stop (kernel, table) =>
        .error stop ⟨kernel, pools, frames, tables.set slot table, ranges⟩

-- Runs an action on the machine and a kept pool of its own.
def onPool (slot : Nat) (action : Action (Machine × FramePool) α) : Action Session α := do
  let pool ← pool slot
  fun ⟨⟨machine, shared⟩, pools, frames, tables, ranges⟩ =>
    match action (machine, pool) with
    | .ok a (machine, pool) =>
        .ok a ⟨⟨machine, shared⟩, pools.set slot pool, frames, tables, ranges⟩
    | .error stop (machine, pool) =>
        .error stop ⟨⟨machine, shared⟩, pools.set slot pool, frames, tables, ranges⟩

-- How many frames the shared pool could hand out now, unless it is not built or somebody holds it.
def free? (session : Session) : Option Nat := do
  let cell ← session.kernel.pool.value?
  if cell.borrowed then none else some cell.value.remaining

end Session

end PagedMemory
