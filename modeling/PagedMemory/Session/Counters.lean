import PagedMemory.Shared.Deferred
import PagedMemory.Shared.Exclusive
import PagedMemory.Slots

namespace PagedMemory

-- Counters in exclusive cells, and guards that hold one of them.
structure GuardedCounters where
  cells : Slots (Exclusive Int64) := {}
  guards : Slots Nat := {}

inductive GuardCommand where
  | create (cell : Nat) (value : Int64)
  | hold (cell guard : Nat)
  | release (guard : Nat)
  | get (guard : Nat)
  | set (guard : Nat) (value : Int64)
  | peek (cell : Nat)
  | add (cell : Nat) (amount : Int64)
  | isBorrowed (cell : Nat)

inductive CounterReply where
  | done
  | number (value : Int64)
  | truth (value : Bool)

namespace GuardedCounters

private def put (counters : GuardedCounters) (slot : Nat) (cell : Exclusive Int64) :
    GuardedCounters :=
  { counters with cells := counters.cells.set slot cell }

-- A command on a slot that holds nothing has no result.
def step (counters : GuardedCounters) :
    GuardCommand → Option (Except Fault (GuardedCounters × CounterReply))
  | .create slot value => some (.ok (counters.put slot ⟨value, false⟩, .done))
  | .hold slot guard => do
      let cell ← counters.cells.get? slot
      return do
        let held ← cell.borrow
        return ({ counters.put slot held with guards := counters.guards.set guard slot },
          .truth held.borrowed)
  | .release guard => do
      let slot ← counters.guards.get? guard
      let cell ← counters.cells.get? slot
      return .ok ({ counters.put slot cell.release with guards := counters.guards.erase guard },
        .done)
  | .get guard => do
      let slot ← counters.guards.get? guard
      let cell ← counters.cells.get? slot
      return .ok (counters, .number cell.value)
  | .set guard value => do
      let slot ← counters.guards.get? guard
      let cell ← counters.cells.get? slot
      return .ok (counters.put slot { cell with value }, .done)
  | .peek slot => do
      let cell ← counters.cells.get? slot
      return do
        let same ← cell.change id
        return (counters.put slot same, .number same.value)
  | .add slot amount => do
      let cell ← counters.cells.get? slot
      return do
        let changed ← cell.change (· + amount)
        return (counters.put slot changed, .number changed.value)
  | .isBorrowed slot => do
      let cell ← counters.cells.get? slot
      return .ok (counters, .truth cell.borrowed)

end GuardedCounters

-- A deferred counter and a deferred counter in an exclusive cell. Over both together, `built`
-- counts the counters that were built, and `ended` those that a reset or a rebuild has ended.
structure DeferredCounters where
  plain : Deferred Int64 := {}
  cell : Deferred (Exclusive Int64) := {}
  built : Nat := 0
  ended : Nat := 0

inductive DeferredCommand where
  | build (value : Int64)
  | reset
  | get
  | set (value : Int64)
  | buildCell (value : Int64)
  | resetCell
  | getCell
  | setCell (value : Int64)
  | holdCell

namespace DeferredCounters

def step (counters : DeferredCounters) :
    DeferredCommand → Except Fault (DeferredCounters × Option CounterReply)
  | .build value =>
      .ok ({ counters with
          plain := counters.plain.build value
          built := counters.built + 1
          ended := counters.ended + counters.plain.isBuilt.toNat }, some (.number value))
  | .reset =>
      .ok ({ counters with
          plain := counters.plain.reset
          ended := counters.ended + counters.plain.isBuilt.toNat }, none)
  | .get => do
      let value ← counters.plain.get
      return (counters, some (.number value))
  | .set value => do
      let _ ← counters.plain.get
      return ({ counters with plain := ⟨some value⟩ }, none)
  | .buildCell value =>
      .ok ({ counters with
          cell := counters.cell.build { value }
          built := counters.built + 1
          ended := counters.ended + counters.cell.isBuilt.toNat }, none)
  | .resetCell =>
      .ok ({ counters with
          cell := counters.cell.reset
          ended := counters.ended + counters.cell.isBuilt.toNat }, none)
  | .getCell => do
      let cell ← counters.cell.get
      let same ← cell.change id
      return (counters, some (.number same.value))
  | .setCell value => do
      let cell ← counters.cell.get
      let changed ← cell.change fun _ => value
      return ({ counters with cell := ⟨some changed⟩ }, none)
  | .holdCell => do
      let cell ← counters.cell.get
      let held ← cell.borrow
      return ({ counters with cell := ⟨some held⟩ }, some (.truth held.borrowed))

end DeferredCounters

end PagedMemory
