import PagedMemory.Proofs.Keeps
import PagedMemory.Proofs.Session.ClientSteps

namespace PagedMemory

-- Commands that only look something up in a table.
def TableCommand.IsLookup : TableCommand → Prop
  | .describe => True
  | .translate _ => True
  | .translateAddr _ => True
  | .find _ => True
  | _ => False

namespace Session

variable {session after : Session} {slot other : Nat} {command : Command} {reply : Reply}
  {α β : Type}

-- An action that leaves the table in a slot in its place, even if it stops.
def Bystands (slot : Nat) (action : Action Session α) : Prop :=
  Keeps (fun session after => after.tables.get? slot = session.tables.get? slot) action

namespace Bystands

variable {action : Action Session α} {next : α → Action Session β}

theorem pure (a : α) : Bystands slot (Pure.pure a : Action Session α) := fun _ => rfl

theorem bind (h : Bystands slot action) (hnext : ∀ a, Bystands slot (next a)) :
    Bystands slot (action >>= next) :=
  Keeps.bind (fun hfirst hsecond => hsecond.trans hfirst) h hnext

-- Actions that do not look for a table.

theorem get : Bystands slot (MonadState.get : Action Session Session) := fun _ => rfl

theorem onKernel (action : Action Kernel α) : Bystands slot (onKernel action) := by
  intro session
  rw [Action.left, run_onKernel]
  cases action.run session.kernel <;> rfl

theorem onMachine (action : Action Machine α) : Bystands slot (onMachine action) :=
  onKernel (Kernel.onMachine action)

theorem required (object? : Option α) : Bystands slot (required object?) := by
  intro session
  cases object? <;> rfl

theorem pool (other : Nat) : Bystands slot (Session.pool other) := get.bind fun _ => required _

theorem frame (other : Nat) : Bystands slot (Session.frame other) := get.bind fun _ => required _

theorem keepPool (other : Nat) (pool : FramePool) : Bystands slot (keepPool other pool) :=
  fun _ => rfl

theorem keepFrame (other : Nat) (frame : OwnedFrame) : Bystands slot (keepFrame other frame) :=
  fun _ => rfl

theorem forgetFrame (other : Nat) : Bystands slot (forgetFrame other) := fun _ => rfl

theorem onPool (other : Nat) (action : Action (Machine × FramePool) α) :
    Bystands slot (onPool other action) := by
  refine (pool other).bind fun pool session => ?_
  simp only [Action.left, EStateM.run]
  cases action (session.kernel.machine, pool) <;> rfl

-- Actions on the table in another slot.

theorem table (other : Nat) : Bystands slot (Session.table other) := get.bind fun _ => required _

theorem keepTable (hne : slot ≠ other) (table : PageTable) :
    Bystands slot (keepTable other table) := fun _ =>
  Slots.get?_set_other _ _ _ _ hne

theorem forgetTable (hne : slot ≠ other) : Bystands slot (forgetTable other) := fun _ =>
  Slots.get?_erase_other _ _ _ hne

theorem onTable (hne : slot ≠ other) (action : Action (Kernel × PageTable) α) :
    Bystands slot (onTable other action) := by
  refine (table other).bind fun table session => ?_
  simp only [Action.left, EStateM.run]
  cases action (session.kernel, table) <;> exact Slots.get?_set_other _ _ _ _ hne

theorem tokenNamed (space : SpaceName) : Bystands slot (tokenNamed space) := by
  cases space with
  | token token => exact .pure token
  | tableIn other => exact (table other).bind fun _ => .pure _

theorem frameNamed (name : FrameName) : Bystands slot (frameNamed name) := by
  cases name with
  | page page => exact .pure page
  | ownedBy other => exact (frame other).bind fun _ => .pure _

theorem entryIn (found : EntrySlot) : Bystands slot (entryIn found) :=
  onMachine (Machine.inspect fun memory => return memory.entry found)

end Bystands

theorem bystands_stepShared (command : SharedPoolCommand) :
    Bystands slot (stepShared command) := by
  cases command with
  | take =>
      refine (Bystands.onKernel _).bind fun frame? => ?_
      cases frame? <;> exact .pure _
  | remainingHeld => exact Bystands.get.bind fun _ => (Bystands.required _).bind fun _ => .pure _
  | _ => exact (Bystands.onKernel _).bind fun _ => .pure _

theorem bystands_stepPool (other : Nat) (command : PoolCommand) :
    Bystands slot (stepPool other command) := by
  cases command with
  | create => exact (Bystands.keepPool other _).bind fun _ => .pure _
  | take =>
      refine (Bystands.onPool other _).bind fun frame? => ?_
      cases frame? <;> exact (Bystands.pool other).bind fun _ => .pure _
  | remaining => exact (Bystands.pool other).bind fun _ => .pure _
  | _ => exact (Bystands.onPool other _).bind fun _ => (Bystands.pool other).bind fun _ => .pure _

theorem bystands_stepFrame (other : Nat) (command : FrameCommand) :
    Bystands slot (stepFrame other command) := by
  cases command with
  | take =>
      refine (Bystands.onKernel _).bind fun frame? => ?_
      cases frame? with
      | none => exact .pure _
      | some frame => exact (Bystands.keepFrame other frame).bind fun _ => .pure _
  | claim page =>
      exact (Bystands.onKernel _).bind fun _ => (Bystands.keepFrame other _).bind fun _ => .pure _
  | drop =>
      exact (Bystands.frame other).bind fun _ => (Bystands.onKernel _).bind fun _ =>
        (Bystands.forgetFrame other).bind fun _ => .pure _
  | move target =>
      exact (Bystands.frame other).bind fun _ => (Bystands.keepFrame other _).bind fun _ =>
        (Bystands.keepFrame target _).bind fun _ => .pure _
  | release =>
      exact (Bystands.frame other).bind fun _ => (Bystands.onKernel _).bind fun _ =>
        (Bystands.keepFrame other _).bind fun _ => .pure _
  | page => exact (Bystands.frame other).bind fun _ => .pure _
  | text => exact (Bystands.frame other).bind fun _ => .pure _

theorem bystands_stepTable_of_lookup {command : TableCommand} (other : Nat) (h : command.IsLookup) :
    Bystands slot (stepTable other command) := by
  cases command with
  | describe => exact (Bystands.table other).bind fun _ => .pure _
  | translate page =>
      refine (Bystands.table other).bind fun _ => (Bystands.onMachine _).bind fun entry? => ?_
      cases entry? <;> exact .pure _
  | translateAddr address =>
      refine (Bystands.table other).bind fun _ => (Bystands.onMachine _).bind fun address? => ?_
      cases address? <;> exact .pure _
  | find page =>
      refine (Bystands.table other).bind fun _ => (Bystands.onMachine _).bind fun found? => ?_
      cases found? with
      | none => exact .pure _
      | some found => exact (Bystands.entryIn found).bind fun _ => .pure _
  | _ => exact h.elim

theorem bystands_stepTable (command : TableCommand) (hne : slot ≠ other)
    (htarget : command ≠ .move slot) : Bystands slot (stepTable other command) := by
  cases command with
  | create =>
      exact (Bystands.onKernel _).bind fun _ => (Bystands.keepTable hne _).bind fun _ => .pure _
  | view space =>
      exact (Bystands.tokenNamed space).bind fun _ => (Bystands.keepTable hne _).bind fun _ =>
        .pure _
  | drop =>
      exact (Bystands.table other).bind fun _ => (Bystands.onKernel _).bind fun _ =>
        (Bystands.forgetTable hne).bind fun _ => .pure _
  | move target =>
      have hne' : slot ≠ target := fun heq => htarget (heq ▸ rfl)
      exact (Bystands.table other).bind fun _ => (Bystands.keepTable hne _).bind fun _ =>
        (Bystands.keepTable hne' _).bind fun _ => .pure _
  | map page frame flags =>
      exact (Bystands.frameNamed frame).bind fun _ => (Bystands.onTable hne _).bind fun _ =>
        (Bystands.table other).bind fun _ => .pure _
  | unmap page =>
      exact (Bystands.table other).bind fun _ => (Bystands.onMachine _).bind fun _ =>
        (Bystands.table other).bind fun _ => .pure _
  | findOrBuild page =>
      exact (Bystands.onTable hne _).bind fun found => (Bystands.entryIn found).bind fun _ =>
        (Bystands.table other).bind fun _ => .pure _
  | poke page entry =>
      exact (Bystands.onTable hne _).bind fun found => (Bystands.onMachine _).bind fun _ =>
        (Bystands.entryIn found).bind fun _ => .pure _
  | _ => exact bystands_stepTable_of_lookup other trivial

-- A table that is not named by a command, and in whose place none is put, is what it was.
theorem get?_of_step (hnamed : ∀ other, command ≠ .table slot other)
    (htarget : ∀ source, command ≠ .table source (.move slot))
    (hstep : (step command).run session = .ok reply after) :
    after.tables.get? slot = session.tables.get? slot := by
  have hkept : Bystands slot (step command) → after.tables.get? slot = session.tables.get? slot :=
    fun hbystands => Action.left_of_ok hstep ▸ hbystands session
  cases command with
  | shared command => exact hkept (bystands_stepShared command)
  | pool other command => exact hkept (bystands_stepPool other command)
  | frame other command => exact hkept (bystands_stepFrame other command)
  | table other command =>
      refine hkept (bystands_stepTable command (fun heq => hnamed command (heq ▸ rfl)) ?_)
      exact fun heq => htarget other (heq ▸ rfl)
  | memory command => rw [((quiet_stepMemory command).ok hstep).tables]
  | space space command => rw [((quiet_stepSpace space command).ok hstep).tables]
  | range other command => rw [((quiet_stepRange other command).ok hstep).tables]

end Session

end PagedMemory
