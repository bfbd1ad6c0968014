import PagedMemory.Frame.SelfTest
import PagedMemory.Session.Basic
import PagedMemory.Session.Command

namespace PagedMemory.Session

def stepShared : SharedPoolCommand → Action Session Reply
  | .init kernelEnd memoryEnd => do
      onKernel (Kernel.initFrames kernelEnd memoryEnd)
      return .done
  | .initRange low high => do
      onKernel (Kernel.initFrameRange low high)
      return .done
  | .remaining => do return .count (← onKernel Kernel.remainingFrames)
  | .selfTest => do
      onKernel SelfTest.run
      return .done
  | .take => do
      match ← onKernel Kernel.takeFrame with
      | some frame => return .page frame
      | none => return .missing
  | .giveBack frame => do
      onKernel (Kernel.giveBackFrame frame)
      return .done
  | .isStacked frame => do return .truth (← onKernel (Kernel.isStackedFrame frame))
  | .hold => do
      onKernel Kernel.holdPool
      return .truth true
  | .letGo => do
      onKernel Kernel.letGoPool
      return .truth false
  | .remainingHeld => do
      let cell ← required (← get).kernel.pool.value?
      return .count cell.value.remaining

def stepPool (slot : Nat) (command : PoolCommand) : Action Session Reply := do
  let reply ← match command with
    | .create => do
        keepPool slot {}
        return .done
    | .init low high => onPool slot do
        let pool ← Action.onFirst (Machine.check (FramePool.between low high))
        Action.onSecond (set pool)
        return .done
    | .take => do
        match ← onPool slot FramePool.take with
        | some frame => pure (.page frame)
        | none => pure .missing
    | .giveBack frame => do
        onPool slot (FramePool.giveBack frame)
        pure .done
    | .isStacked frame => onPool slot do
        let (_, pool) ← get
        return .truth (← Action.onFirst (Machine.consult (pool.isStacked frame)))
    | .remaining => pure .done
  return .ofPool reply (← pool slot).remaining

def stepFrame (slot : Nat) : FrameCommand → Action Session Reply
  | .take => do
      match ← onKernel OwnedFrame.take with
      | some frame =>
          keepFrame slot frame
          return .page frame.page
      | none => return .missing
  | .claim page => do
      keepFrame slot (← onMachine (OwnedFrame.claim page))
      return .page page
  | .drop => do
      onKernel (← frame slot).drop
      forgetFrame slot
      return .done
  | .move target => do
      let frame ← frame slot
      keepFrame slot frame.disowned
      keepFrame target frame
      return .page frame.page
  | .release => do
      let frame ← frame slot
      let page ← onMachine (Machine.check frame.release)
      keepFrame slot frame.disowned
      return .page page
  | .page => do return .page (← frame slot).page
  | .text => do return .text (← frame slot).text

def frameNamed : FrameName → Action Session PhysPage
  | .page page => return page
  | .ownedBy slot => do return (← frame slot).page

def tokenNamed : SpaceName → Action Session UInt64
  | .token token => return token
  | .tableIn slot => do return (← table slot).token

def entryIn (slot : EntrySlot) : Action Session Entry :=
  onMachine (Machine.inspect fun memory => return memory.entry slot)

def stepTable (slot : Nat) : TableCommand → Action Session Reply
  | .create => do
      let table ← onKernel PageTable.create
      keepTable slot table
      return .page table.root
  | .view space => do
      let table := PageTable.ofToken (← tokenNamed space)
      keepTable slot table
      return .page table.root
  | .drop => do
      onKernel (← table slot).drop
      forgetTable slot
      return .done
  | .move target => do
      let table ← table slot
      keepTable slot table.disowned
      keepTable target table
      return .count table.nodes
  | .describe => do return .table (← table slot)
  | .map page frame flags => do
      onTable slot (PageTable.map page (← frameNamed frame) flags)
      return .count (← table slot).nodes
  | .unmap page => do
      onMachine ((← table slot).unmap page)
      return .count (← table slot).nodes
  | .translate page => do
      match ← onMachine (Machine.inspect ((← table slot).translate? page)) with
      | some entry => return .entry entry
      | none => return .missing
  | .translateAddr address => do
      match ← onMachine (Machine.inspect ((← table slot).translateAddr? address)) with
      | some address => return .address address
      | none => return .missing
  | .find page => do
      match ← onMachine (Machine.inspect ((← table slot).find? page)) with
      | some found => return .slot found (← entryIn found)
      | none => return .missing
  | .findOrBuild page => do
      let found ← onTable slot (PageTable.findOrBuild page)
      return .builtSlot found (← entryIn found) (← table slot).nodes
  | .poke page entry => do
      let found ← onTable slot (PageTable.findOrBuild page)
      onMachine (Machine.change (·.setEntry found entry))
      return .slot found (← entryIn found)

def stepMemory (command : MemoryCommand) : Action Session Reply := onMachine do
  match command with
  | .fill page value =>
      Machine.inspect (·.reach page.base)
      Machine.change (·.fillFrame page value)
      return .done
  | .frame page => Machine.inspect fun memory => do
      memory.reach page.base
      return .bytes (memory.frame page)
  | .read address count => Machine.inspect fun memory => do
      memory.reach address
      return .bytes (memory.read address count)
  | .write address bytes =>
      Machine.inspect (·.reach address)
      Machine.change (·.write address bytes)
      return .done
  | .word address => Machine.inspect fun memory => do
      memory.reach address
      return .word (memory.word address)
  | .setWord address word =>
      Machine.inspect (·.reach address)
      Machine.change (·.setWord address word)
      return .done

def viewRange (range : UserRange) (memory : Memory) : Except Fault RangeView := do
  return ⟨range.size, range.starts.length, range.start == range.stop, ← range.slices memory⟩

def stepSpace (space : SpaceName) (command : SpaceCommand) : Action Session Reply := do
  let table := PageTable.ofToken (← tokenNamed space)
  match command with
  | .describeRange start length => onMachine do
      let range ← Machine.consult (UserRange.ofMapped table start length)
      return .range (← Machine.inspect (viewRange range))
  | .keepRange slot start length => do
      let range ← onMachine (Machine.consult (UserRange.ofMapped table start length))
      keepRange slot range
      return .keptRange range.size range.starts.length
  | .copyTo start bytes => do
      onMachine (table.copyToUser start bytes)
      return .done
  | .copyFrom start length => do return .bytes (← onMachine (table.copyFromUser start length))
  | .locate address size => do
      return .address (← onMachine (Machine.inspect (table.locateObject address size)))
  | .write address object => do
      onMachine (table.writeObject address object.encode)
      return .done
  | .read address kind => do
      let bytes ← onMachine (table.readObject address kind.size)
      match kind with
      | .number _ => return .word (UserObject.decodeNumber bytes)
      | .status => return .status (UserObject.decodeStatus bytes)
      | .block _ => return .bytes bytes

def stepRange (slot : Nat) (command : RangeCommand) : Action Session Reply := do
  let range ← range slot
  match command with
  | .describe => return .range (← onMachine (Machine.inspect (viewRange range)))
  | .sliceAtEnd =>
      return .slice (← onMachine (Machine.inspect (range.sliceAt range.stop)))
  | .sliceAfter count =>
      let a := range.advance count
      if a = range.stop then return .atEnd
      else return .slice (← onMachine (Machine.inspect (range.sliceAt a)))
  | .copyOut bytes => return .count (← onMachine (range.copyOut bytes bytes.length))
  | .copyIn count => return .copied (← onMachine (Machine.inspect (range.copyIn count)))

def step : Command → Action Session Reply
  | .shared command => stepShared command
  | .pool slot command => stepPool slot command
  | .frame slot command => stepFrame slot command
  | .table slot command => stepTable slot command
  | .memory command => stepMemory command
  | .space space command => stepSpace space command
  | .range slot command => stepRange slot command

-- What a command shows: its reply or the reason it stopped, the lines it logged, and the frames
-- that are free after it.
structure Outcome where
  result : Except Stop Reply
  log : List LogEntry
  free? : Option Nat

-- Runs a command and empties the log.
def perform (command : Command) (session : Session) : Outcome × Session :=
  let (result, ⟨⟨⟨memory, log⟩, pool⟩, pools, frames, tables, ranges⟩) :=
    match step command session with
    | .ok reply session => (Except.ok reply, session)
    | .error stop session => (Except.error stop, session)
  let session : Session := ⟨⟨⟨memory, []⟩, pool⟩, pools, frames, tables, ranges⟩
  (⟨result, log, session.free?⟩, session)

end PagedMemory.Session
