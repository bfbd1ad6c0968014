import PagedMemory.Proofs.Session.Accounts
import PagedMemory.Proofs.User.Alike
import PagedMemory.Session.Step

namespace PagedMemory.Session

-- A table that owns its nodes starts at this root.
def Live (session : Session) (root : PhysPage) : Prop :=
  ∃ slot owner, session.tables.get? slot = some owner ∧ owner.owned = true ∧ owner.root = root

-- A copy of so many bytes touches no frames but such as somebody was given and still owns.
def BacksCopy (session : Session) (range : UserRange) (count : Nat) : Prop :=
  range.CopiesIn (· ∈ session.heldFrames) session.kernel.machine.memory range.starts count

-- So does a copy to or from a range that is still to be made.
def BacksBytes (session : Session) (table : PageTable) (start length : UInt64) (count : Nat) : Prop :=
  ∀ range, UserRange.ofMapped table start length session.kernel.machine.memory = .ok range →
    session.BacksCopy range count

-- All bytes of an object are in such frames.
def BacksObject (session : Session) (table : PageTable) (a : UInt64) (size : Nat) : Prop :=
  ∀ place, table.locateObject a (UInt64.ofNat size) session.kernel.machine.memory = .ok place →
    session.kernel.machine.memory.reach place = .ok () →
    place.SpanIn (· ∈ session.heldFrames) size

def BacksSpace (session : Session) (table : PageTable) : SpaceCommand → Prop
  | .copyTo start bytes =>
      session.BacksBytes table start (UInt64.ofNat bytes.length) bytes.length
  | .copyFrom start length => session.BacksBytes table start length length.toNat
  | .write a object => session.BacksObject table a object.encode.length
  | .read a kind => session.BacksObject table a kind.size
  | _ => True

def BacksRange (session : Session) (range : UserRange) : RangeCommand → Prop
  | .copyOut bytes => session.BacksCopy range bytes.length
  | .copyIn count => session.BacksCopy range count
  | _ => True

-- What a client does that never asks for what memory held before it was started. Frames come from
-- the pool through owners only, and nobody returns a frame that another answers for. Nodes change
-- through the tables that own them. Lookups go through tables that still have an owner, and what is
-- stored or loaded through them is in frames that an owner has at that moment.
def Proper (session : Session) : Command → Prop
  | .shared .remaining => True
  | .shared .selfTest => True
  | .shared (.giveBack frame) => frame ∉ session.heldFrames ∧ frame ∉ session.nodeFrames
  | .shared _ => False
  | .pool _ _ => False
  | .frame slot .take => session.frames.get? slot = none
  | .frame _ (.claim _) => False
  | .frame _ (.move target) => session.frames.get? target = none
  | .frame _ _ => True
  | .table slot .create => session.tables.get? slot = none
  | .table slot (.view _) => session.tables.get? slot = none
  | .table _ (.move target) => session.tables.get? target = none
  | .table _ .drop => True
  | .table _ .describe => True
  | .table slot (.map _ _ _) | .table slot (.unmap _) | .table slot (.findOrBuild _) =>
      ∀ table, session.tables.get? slot = some table → table.owned = true
  | .table slot (.translate _) | .table slot (.translateAddr _) | .table slot (.find _) =>
      ∀ table, session.tables.get? slot = some table → session.Live table.root
  | .table _ (.poke _ _) => False
  | .memory _ => False
  | .space space command => ∀ token after, (tokenNamed space).run session = .ok token after →
      session.Live (PageTable.ofToken token).root ∧
        session.BacksSpace (PageTable.ofToken token) command
  | .range slot command => ∀ range, session.ranges.get? slot = some range →
      session.Live range.table.root ∧ session.BacksRange range command

end PagedMemory.Session
