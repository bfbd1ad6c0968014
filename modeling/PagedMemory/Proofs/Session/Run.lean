import PagedMemory.Proofs.Quiet
import PagedMemory.Proofs.Session.Accounts
import PagedMemory.Session.Step

namespace PagedMemory

-- A command that was carried out: the session it found and the reply it got.
structure Event where
  before : Session
  command : Command
  reply : Reply

namespace Session

variable {session : Session} {slot : Nat}

-- A frame named in a command, if the name stands for one.
def frameNamed? (session : Session) : FrameName → Option PhysPage
  | .page page => some page
  | .ownedBy slot => (session.frames.get? slot).map OwnedFrame.page

-- The words that the pool and the tables rely on: the links of the stack and all words of nodes that
-- point at nodes.
def ReliesOn (session : Session) (slot : EntrySlot) : Prop :=
  slot.index.val = 0 ∧ slot.node ∈ session.kernel.linkFrames ∨ slot.node ∈ session.interiorFrames

-- A command that writes at most to frames that somebody was given and did not return.
def Confined (session : Session) (loose : List PhysPage) (command : Command) : Prop :=
  ∀ reply after, (step command).run session = .ok reply after → ∀ frame,
    frame ∉ session.heldFrames → frame ∉ loose →
      after.kernel.machine.memory.frame frame = session.kernel.machine.memory.frame frame

end Session

-- Commands with which a client reads and writes memory by itself.
def Command.IsAccess : Command → Prop
  | .memory _ => True
  | .space _ _ => True
  | .range _ _ => True
  | _ => False

namespace Event

-- The frames that were taken from the pool by number, or released by their owner, and are still to
-- be returned.
def looseAfter (event : Event) (loose : List PhysPage) : List PhysPage :=
  match event.command, event.reply with
  | .shared .take, .page frame => frame :: loose
  | .shared (.giveBack frame), _ => loose.erase frame
  | .frame _ .release, .page frame => frame :: loose
  | _, _ => loose

-- What was last mapped to a page of the table in a slot. A table takes its mappings along when it
-- moves.
def recordAfter (event : Event) (record : Nat → VirtPage → Option (PhysPage × Flags)) (slot : Nat)
    (page : VirtPage) : Option (PhysPage × Flags) :=
  match event.command with
  | .table source .create => if slot = source then none else record slot page
  | .table source (.move target) => if slot = target then record source page else record slot page
  | .table source (.map other name flags) =>
      if slot = source ∧ page = other then (event.before.frameNamed? name).map (·, flags)
      else record slot page
  | .table source (.unmap other) =>
      if slot = source ∧ page = other then none else record slot page
  | _ => record slot page

section recordAfter

variable {before : Session} {reply : Reply} {source slot target : Nat} {page other : VirtPage}
  {name : FrameName} {flags : Flags} {record : Nat → VirtPage → Option (PhysPage × Flags)}

theorem recordAfter_create :
    recordAfter ⟨before, .table source .create, reply⟩ record slot page =
      if slot = source then none else record slot page := rfl

theorem recordAfter_move :
    recordAfter ⟨before, .table source (.move target), reply⟩ record slot page =
      if slot = target then record source page else record slot page := rfl

theorem recordAfter_map :
    recordAfter ⟨before, .table source (.map other name flags), reply⟩ record slot page =
      if slot = source ∧ page = other then (before.frameNamed? name).map (·, flags)
      else record slot page := rfl

theorem recordAfter_unmap :
    recordAfter ⟨before, .table source (.unmap other), reply⟩ record slot page =
      if slot = source ∧ page = other then none else record slot page := rfl

end recordAfter

-- Pages are unmapped through the table that owns the nodes.
def ByOwner (event : Event) : Prop :=
  match event.command with
  | .table slot (.unmap _) =>
      ∀ table, event.before.tables.get? slot = some table → table.owned = true
  | _ => True

-- A page is unmapped through a table that does not own its nodes, and its leaf lies in the frame.
def ClearsThroughView (event : Event) (frame : PhysPage) : Prop :=
  ∃ slot page table found, event.command = .table slot (.unmap page) ∧
    event.before.tables.get? slot = some table ∧ table.owned = false ∧
    table.find? page event.before.kernel.machine.memory = .ok (some found) ∧ found.node = frame

-- The frames outside, and the record of mappings, after a history whose last event comes first.

def loose : List Event → List PhysPage
  | [] => []
  | event :: past => event.looseAfter (loose past)

def record : List Event → Nat → VirtPage → Option (PhysPage × Flags)
  | [], _, _ => none
  | event :: past, slot, page => event.recordAfter (record past) slot page

end Event

namespace Session

-- What a well-behaved client does. It returns the frames it has and no others, leaves the pool to the
-- commands for it, does not put an object where one is, and writes to nothing but the frames it was
-- given. Through a table that does not own its nodes it unmaps no page whose leaf would be a word that
-- somebody relies on.
def Permitted (session : Session) (loose : List PhysPage) : Command → Prop
  | .shared .remaining => True
  | .shared .selfTest => True
  | .shared .take => True
  | .shared (.isStacked _) => True
  | .shared (.giveBack frame) => frame ∈ loose
  | .shared _ => False
  | .pool _ _ => False
  | .frame slot .take => session.frames.get? slot = none
  | .frame _ (.claim _) => False
  | .frame _ (.move target) => session.frames.get? target = none
  | .frame _ _ => True
  | .table slot .create => session.tables.get? slot = none
  | .table slot (.view _) => session.tables.get? slot = none
  | .table _ (.move target) => session.tables.get? target = none
  | .table slot (.unmap page) => ∀ table found, session.tables.get? slot = some table →
      table.owned = false → table.find? page session.kernel.machine.memory = .ok (some found) →
      (session.kernel.machine.memory.entry found).isValid = true → ¬session.ReliesOn found
  | .table _ (.poke _ _) => False
  | .table _ _ => True
  | .memory command => session.Confined loose (.memory command)
  | .space space command => session.Confined loose (.space space command)
  | .range slot command => session.Confined loose (.range slot command)

-- A session on any memory in which the pool was built once, for the whole frames between two
-- addresses that memory has, and in which the client behaves. The history tells what was done since.
inductive Run (low high : Nat) : Session → List Event → Prop where
  | start {memory : Memory} {kernelEnd memoryEnd : UInt64} {reply : Reply} {session : Session}
      (hlow : low = (PhysAddr.ofNat kernelEnd.toNat).pageCeil.number)
      (hhigh : high = (PhysAddr.ofNat memoryEnd.toNat).page.number)
      (hwindow : high ≤ memory.frames)
      (hinit : (step (.shared (.init kernelEnd memoryEnd))).run (boot memory) = .ok reply session) :
      Run low high session []
  | step {session after : Session} {history : List Event} {command : Command} {reply : Reply}
      (hrun : Run low high session history)
      (hpermitted : session.Permitted (Event.loose history) command)
      (hstep : (step command).run session = .ok reply after) :
      Run low high after (⟨session, command, reply⟩ :: history)

end Session

namespace Session

variable {session after : Session} {low high slot : Nat} {loose : List PhysPage}
  {command : Command} {reply : Reply} {table : PageTable} {α : Type}

-- What somebody has is left alone by what others do: the frames that were given out and not returned,
-- except by those who write to memory, and the nodes of every table but the one that was named. A leaf
-- that is cleared through a view may lie anywhere.
structure Undisturbed (loose : List PhysPage) (event : Event) (after : Session) : Prop where
  given : ¬event.command.IsAccess → ∀ frame,
    frame ∈ event.before.heldFrames ∨ frame ∈ loose →
    frame ∈ after.heldFrames ∨ frame ∈ event.looseAfter loose → ¬event.ClearsThroughView frame →
      after.kernel.machine.memory.frame frame = event.before.kernel.machine.memory.frame frame
  nodes : ∀ slot table, event.before.tables.get? slot = some table →
    (∀ command, event.command ≠ .table slot command) →
    ∀ frame ∈ table.holds event.before.kernel.machine.memory, ¬event.ClearsThroughView frame →
      after.kernel.machine.memory.frame frame = event.before.kernel.machine.memory.frame frame

-- What is kept up from one session to the next.
def Carries (low high : Nat) (loose : List PhysPage) (event : Event) (after : Session) : Prop :=
  ∃ free, Accounts low high after (event.looseAfter loose) free ∧
    (event.ByOwner → ∀ record, event.before.Agrees record →
      after.Agrees (event.recordAfter record)) ∧
    Undisturbed loose event after

-- A command keeps everything up, or stops for a reason that is not the pool's.
def Sound (low high : Nat) (loose : List PhysPage) (session : Session) (command : Command) : Prop :=
  match (step command).run session with
  | .ok reply after => Carries low high loose ⟨session, command, reply⟩ after
  | .error stop _ => ¬stop.BlamesPool

theorem Sound.of_ok (reply : Reply) (after : Session)
    (hrun : (step command).run session = .ok reply after)
    (h : Carries low high loose ⟨session, command, reply⟩ after) :
    Sound low high loose session command := by
  rw [Sound, hrun]
  exact h

theorem Sound.of_error {stop : Stop} (hrun : (step command).run session = .error stop after)
    (h : ¬stop.BlamesPool) : Sound low high loose session command := by
  rw [Sound, hrun]
  exact h

-- Commands that leave the tables alone. They write to frames of the pool, or to such as are theirs.
theorem Accounts.carries {event : Event} {free free' : List PhysPage}
    (h : Accounts low high event.before loose free) (htables : after.tables = event.before.tables)
    (hoffers : after.kernel.Offers low high free')
    (hspared : ∀ other ∉ free, other ∉ free' →
      (event.command.IsAccess → other ∉ event.before.heldFrames ∧ other ∉ loose) →
      after.kernel.machine.memory.frame other = event.before.kernel.machine.memory.frame other)
    (hslots : after.frames.Distinct)
    (hperm : (free' ++ after.heldFrames ++ event.looseAfter loose).Perm
      (free ++ event.before.heldFrames ++ loose))
    (hrecord : ∀ record, event.recordAfter record = record) : Carries low high loose event after := by
  have hnodes : ∀ other ∈ event.before.nodeFrames, after.kernel.machine.memory.frame other =
      event.before.kernel.machine.memory.frame other := by
    intro other hmem
    obtain ⟨hfree, hheld, hloose⟩ := h.node_apart hmem
    refine hspared other hfree (fun hfree' => ?_) fun _ => ⟨hheld, hloose⟩
    have hbefore := hperm.mem_iff.mp (List.mem_append_left _ (List.mem_append_left _ hfree'))
    simp only [List.mem_append, hfree, hheld, hloose, or_self] at hbefore
  have haccounts := h.change htables hoffers
    (fun other hmem => hnodes other (interiorFrames_subset hmem)) hslots hperm
  refine ⟨free', haccounts, fun _ record hagrees => ?_, ⟨fun haccess frame hgiven hkept _ => ?_,
    fun slot table hget _ frame hmem _ => hnodes frame (Slots.mem_total_of_get? hget hmem)⟩⟩
  · rw [hrecord]
    exact hagrees.change htables hnodes
  · refine hspared frame (h.given_apart hgiven) (haccounts.given_apart hkept) fun h => ?_
    exact (haccess h).elim

-- Commands that look and do nothing.
theorem Accounts.sound_of_quiet {free : List PhysPage} (h : Accounts low high session loose free)
    (hquiet : Quiet Eq (step command))
    (hloose : ∀ reply, Event.looseAfter ⟨session, command, reply⟩ loose = loose)
    (hrecord : ∀ reply record, Event.recordAfter ⟨session, command, reply⟩ record = record) :
    Sound low high loose session command := by
  cases hrun : (step command).run session with
  | ok reply after =>
      cases hquiet.ok hrun
      refine .of_ok _ _ hrun
        (h.carries rfl h.offers (fun _ _ _ _ => rfl) h.frameSlots ?_ (hrecord reply))
      rw [hloose]
  | error stop after => exact .of_error hrun (hquiet.not_blamesPool hrun)

-- Looking up an object.

theorem run_required_some (object : α) :
    (required (some object)).run session = .ok object session := rfl

theorem run_required_none : (required (none : Option α)).run session = .error .absent session := rfl

theorem run_required_eq_ok {object? : Option α} {object : α}
    (h : (required object?).run session = .ok object after) :
    object? = some object ∧ after = session := by
  cases object? with
  | some other =>
      cases h
      exact ⟨rfl, rfl⟩
  | none => cases h

theorem run_frame (slot : Nat) :
    (Session.frame slot).run session = (required (session.frames.get? slot)).run session := rfl

theorem run_frame_some {frame : OwnedFrame} (hget : session.frames.get? slot = some frame) :
    (Session.frame slot).run session = .ok frame session := by
  rw [run_frame, hget, run_required_some]

theorem run_frame_none (hget : session.frames.get? slot = none) :
    (Session.frame slot).run session = .error .absent session := by
  rw [run_frame, hget, run_required_none]

theorem run_table (slot : Nat) :
    (Session.table slot).run session = (required (session.tables.get? slot)).run session := rfl

theorem run_table_some (hget : session.tables.get? slot = some table) :
    (Session.table slot).run session = .ok table session := by
  rw [run_table, hget, run_required_some]

theorem run_table_none (hget : session.tables.get? slot = none) :
    (Session.table slot).run session = .error .absent session := by
  rw [run_table, hget, run_required_none]

theorem run_onTable_none (action : Action (Kernel × PageTable) α)
    (hget : session.tables.get? slot = none) :
    (onTable slot action).run session = .error .absent session :=
  Action.run_bind_error (run_table_none hget)

theorem run_onTable_some (action : Action (Kernel × PageTable) α)
    (hget : session.tables.get? slot = some table) :
    (onTable slot action).run session =
      match action.run (session.kernel, table) with
      | .ok a (kernel, table) =>
          .ok a { session with kernel, tables := session.tables.set slot table }
      | .error stop (kernel, table) =>
          .error stop { session with kernel, tables := session.tables.set slot table } :=
  Action.run_bind_ok (run_table_some hget)

end Session

end PagedMemory
