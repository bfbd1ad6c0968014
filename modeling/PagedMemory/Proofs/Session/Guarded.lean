import PagedMemory.Proofs.Keeps
import PagedMemory.Proofs.Session.Progress
import PagedMemory.Proofs.Table.Guarded

namespace PagedMemory.Session

open Kernel (Open)

variable {session after : Session} {slot : Nat} {table : PageTable} {page : VirtPage} {α : Type}
  {command : Command}

-- Contents of memory are compared here and never computed.
attribute [local irreducible] Memory.entry Memory.frame Memory.setEntry

-- The session while somebody uses the pool.
def guarded (session : Session) : Session := { session with kernel := session.kernel.guarded }

-- A node is missing on the way to a page's leaf, in a table that may get one.
def MissesNode (session : Session) (slot : Nat) (page : VirtPage) : Prop :=
  ∃ table, session.tables.get? slot = some table ∧ table.owned = true ∧
    table.find? page session.kernel.machine.memory = .ok none

-- The commands that need the pool: those that ask it for frames, or give frames back to it, or ask it
-- anything else.
def Reaches (session : Session) : Command → Prop
  | .shared (.initRange _ high) => high.toNat ≤ session.kernel.machine.memory.frames
  | .shared .letGo => False
  | .shared .remainingHeld => False
  | .shared _ => True
  | .frame _ .take => True
  | .frame slot .drop => ∃ frame, session.frames.get? slot = some frame ∧ frame.owned = true
  | .table _ .create => True
  | .table slot .drop => ∃ table, session.tables.get? slot = some table ∧ table.owned = true ∧
      PageTable.FirstShown session.kernel.machine.memory PageTable.rootHeight table.root
  | .table slot (.map page name _) =>
      session.MissesNode slot page ∧ ∃ frame, session.frameNamed? name = some frame
  | .table slot (.findOrBuild page) => session.MissesNode slot page
  | .table slot (.poke page _) => session.MissesNode slot page
  | _ => False

section unrefused

-- Nobody is refused while the pool is not in use, and all give it back.

abbrev Free (session : Session) : Prop := session.kernel.Open

theorem unrefused_onKernel {action : Action Kernel α} (h : Unrefused Open action) :
    Unrefused Free (onKernel action) := by
  intro session hopen
  have haction := h session.kernel hopen
  rw [run_onKernel]
  cases hrun : action.run session.kernel with
  | ok a kernel => rwa [hrun] at haction
  | error stop kernel => rwa [hrun] at haction

theorem unrefused_onMachine {action : Action Machine α} (h : Unrefused Anything action) :
    Unrefused Free (onMachine action) := unrefused_onKernel (Kernel.unrefused_onMachine h)

theorem unrefused_of_beside {action : Action Session α} (h : Quiet Beside action) :
    Unrefused Free action := by
  refine .of_quiet h fun {session after} hbeside hopen => ?_
  rw [Free, Open, hbeside.pool]
  exact hopen

theorem unrefused_required (object? : Option α) : Unrefused Free (required object?) :=
  unrefused_of_beside (quiet_of_eq (quiet_required object?))

theorem unrefused_frame (slot : Nat) : Unrefused Free (frame slot) :=
  Unrefused.get.bind fun _ => unrefused_required _

theorem unrefused_table (slot : Nat) : Unrefused Free (Session.table slot) :=
  Unrefused.get.bind fun _ => unrefused_required _

-- What is kept is no concern of the pool.

theorem unrefused_keepPool (slot : Nat) (pool : FramePool) : Unrefused Free (keepPool slot pool) :=
  .modify id

theorem unrefused_keepFrame (slot : Nat) (frame : OwnedFrame) :
    Unrefused Free (keepFrame slot frame) := .modify id

theorem unrefused_keepTable (slot : Nat) (table : PageTable) :
    Unrefused Free (keepTable slot table) := .modify id

theorem unrefused_forgetFrame (slot : Nat) : Unrefused Free (forgetFrame slot) := .modify id

theorem unrefused_forgetTable (slot : Nat) : Unrefused Free (forgetTable slot) := .modify id

theorem unrefused_onTable {action : Action (Kernel × PageTable) α} (slot : Nat)
    (h : Unrefused (fun s => s.1.Open) action) : Unrefused Free (onTable slot action) := by
  refine (unrefused_table slot).bind fun table => ?_
  intro session hopen
  have haction := h (session.kernel, table) hopen
  simp only [EStateM.run] at haction ⊢
  cases hrun : action (session.kernel, table) with
  | ok a after =>
      rw [hrun] at haction
      exact haction
  | error stop after =>
      rw [hrun] at haction
      exact haction

theorem unrefused_onPool {action : Action (Machine × FramePool) α} (slot : Nat)
    (h : Unrefused Anything action) : Unrefused Free (onPool slot action) := by
  refine (Unrefused.get.bind fun _ => unrefused_required _ : Unrefused Free (pool slot)).bind
    fun pool => ?_
  intro session hopen
  have haction := h (session.kernel.machine, pool) trivial
  simp only [EStateM.run] at haction ⊢
  cases hrun : action (session.kernel.machine, pool) with
  | ok a after =>
      rw [hrun] at haction
      exact hopen
  | error stop after =>
      rw [hrun] at haction
      exact haction

theorem unrefused_stepShared {command : SharedPoolCommand} (hhold : command ≠ .hold) :
    Unrefused Free (stepShared command) := by
  cases command with
  | init kernelEnd memoryEnd =>
      exact (unrefused_onKernel (Kernel.unrefused_initFrames _ _)).bind fun _ => .pure _
  | initRange low high =>
      exact (unrefused_onKernel (Kernel.unrefused_initFrameRange _ _)).bind fun _ => .pure _
  | remaining => exact (unrefused_onKernel Kernel.unrefused_remainingFrames).bind fun _ => .pure _
  | selfTest => exact (unrefused_onKernel SelfTest.unrefused_run).bind fun _ => .pure _
  | take =>
      refine (unrefused_onKernel Kernel.unrefused_takeFrame).bind fun frame? => ?_
      cases frame? with
      | some frame => exact .pure _
      | none => exact .pure _
  | giveBack frame =>
      exact (unrefused_onKernel (Kernel.unrefused_giveBackFrame frame)).bind fun _ => .pure _
  | isStacked frame =>
      exact (unrefused_onKernel (Kernel.unrefused_isStackedFrame frame)).bind fun _ => .pure _
  | hold => exact (hhold rfl).elim
  | letGo =>
      refine (unrefused_onKernel ?_).bind fun _ => .pure _
      rintro ⟨machine, shared⟩ ⟨pool, hpool⟩
      subst hpool
      exact ⟨pool, rfl⟩
  | remainingHeld => exact Unrefused.get.bind fun _ => (unrefused_required _).bind fun _ => .pure _

theorem unrefused_stepPool (slot : Nat) (command : PoolCommand) :
    Unrefused Free (stepPool slot command) := by
  have hpool : Unrefused Free (pool slot) := Unrefused.get.bind fun _ => unrefused_required _
  cases command with
  | create =>
      exact (unrefused_keepPool slot _).bind fun _ => .pure _
  | init low high =>
      refine (unrefused_onPool slot ?_).bind fun _ => hpool.bind fun _ => .pure _
      refine (Unrefused.anything_onFirst (Machine.unrefused_inspect fun _ => ?_)).bind
        fun pool => FramePool.unrefused_set pool
      rw [FramePool.between]
      split
      · exact .ok _
      · exact .error id
  | take =>
      refine (unrefused_onPool slot FramePool.unrefused_take).bind fun frame? => ?_
      cases frame? with
      | some frame => exact hpool.bind fun _ => .pure _
      | none => exact hpool.bind fun _ => .pure _
  | giveBack frame =>
      exact (unrefused_onPool slot (FramePool.unrefused_giveBack frame)).bind fun _ =>
        hpool.bind fun _ => .pure _
  | isStacked frame =>
      refine (unrefused_onPool slot ?_).bind fun _ => hpool.bind fun _ => .pure _
      refine Unrefused.get.bind ?_
      rintro ⟨_, pool⟩
      exact (Unrefused.anything_onFirst (Machine.unrefused_consult (pool.spares_isStacked frame))).bind
        fun _ => .pure _
  | remaining => exact hpool.bind fun _ => .pure _

theorem unrefused_stepFrame (slot : Nat) (command : FrameCommand) :
    Unrefused Free (stepFrame slot command) := by
  cases command with
  | take =>
      refine (unrefused_onKernel OwnedFrame.unrefused_take).bind fun frame? => ?_
      cases frame? with
      | some frame => exact (unrefused_keepFrame slot _).bind fun _ => .pure _
      | none => exact .pure _
  | claim page =>
      exact (unrefused_onMachine (OwnedFrame.unrefused_claim page)).bind fun frame =>
        (unrefused_keepFrame slot _).bind fun _ => .pure _
  | drop =>
      exact (unrefused_frame slot).bind fun frame =>
        (unrefused_onKernel frame.unrefused_drop).bind fun _ =>
          (unrefused_forgetFrame slot).bind fun _ => .pure _
  | move target =>
      exact (unrefused_frame slot).bind fun frame => (unrefused_keepFrame slot _).bind fun _ =>
        (unrefused_keepFrame target frame).bind fun _ => .pure _
  | release =>
      exact (unrefused_frame slot).bind fun frame =>
        (unrefused_onMachine (Machine.unrefused_inspect fun _ => frame.spares_release)).bind
          fun _ => (unrefused_keepFrame slot _).bind fun _ => .pure _
  | page => exact (unrefused_frame slot).bind fun _ => .pure _
  | text => exact (unrefused_frame slot).bind fun _ => .pure _

theorem unrefused_frameNamed (name : FrameName) : Unrefused Free (frameNamed name) := by
  cases name with
  | page page => exact .pure page
  | ownedBy slot => exact (unrefused_frame slot).bind fun _ => .pure _

theorem unrefused_entryIn (found : EntrySlot) : Unrefused Free (entryIn found) :=
  unrefused_onMachine (Machine.unrefused_inspect fun _ => .ok _)

theorem unrefused_stepTable (slot : Nat) (command : TableCommand) :
    Unrefused Free (stepTable slot command) := by
  cases command with
  | create =>
      exact (unrefused_onKernel PageTable.unrefused_create).bind fun _ =>
        (unrefused_keepTable slot _).bind fun _ => .pure _
  | view space =>
      exact (unrefused_of_beside (quiet_of_eq (Accounts.quiet_tokenNamed space))).bind fun _ =>
        (unrefused_keepTable slot _).bind fun _ => .pure _
  | drop =>
      exact (unrefused_table slot).bind fun table =>
        (unrefused_onKernel table.unrefused_drop).bind fun _ =>
          (unrefused_forgetTable slot).bind fun _ => .pure _
  | move target =>
      exact (unrefused_table slot).bind fun table => (unrefused_keepTable slot _).bind fun _ =>
        (unrefused_keepTable target table).bind fun _ => .pure _
  | describe => exact (unrefused_table slot).bind fun _ => .pure _
  | map page name flags =>
      exact (unrefused_frameNamed name).bind fun frame =>
        (unrefused_onTable slot (PageTable.unrefused_map page frame flags)).bind fun _ =>
          (unrefused_table slot).bind fun _ => .pure _
  | unmap page =>
      exact (unrefused_table slot).bind fun table =>
        (unrefused_onMachine (.of_quiet PageTable.quiet_unmap fun _ _ => trivial)).bind fun _ =>
          (unrefused_table slot).bind fun _ => .pure _
  | translate page =>
      refine (unrefused_table slot).bind fun table => (unrefused_onMachine
        (Machine.unrefused_inspect fun _ => PageTable.spares_translate?)).bind fun entry? => ?_
      cases entry? with
      | some entry => exact .pure _
      | none => exact .pure _
  | translateAddr address =>
      refine (unrefused_table slot).bind fun table => (unrefused_onMachine
        (Machine.unrefused_inspect fun _ => PageTable.spares_translateAddr?)).bind fun address? => ?_
      cases address? with
      | some address => exact .pure _
      | none => exact .pure _
  | find page =>
      refine (unrefused_table slot).bind fun table => (unrefused_onMachine
        (Machine.unrefused_inspect fun _ => PageTable.spares_find?)).bind fun found? => ?_
      cases found? with
      | some found => exact (unrefused_entryIn found).bind fun _ => .pure _
      | none => exact .pure _
  | findOrBuild page =>
      exact (unrefused_onTable slot (PageTable.unrefused_findOrBuild page)).bind fun found =>
        (unrefused_entryIn found).bind fun _ => (unrefused_table slot).bind fun _ => .pure _
  | poke page entry =>
      exact (unrefused_onTable slot (PageTable.unrefused_findOrBuild page)).bind fun found =>
        (unrefused_onMachine (Machine.unrefused_change _)).bind fun _ =>
          (unrefused_entryIn found).bind fun _ => .pure _

theorem unrefused_step (hhold : command ≠ .shared .hold) : Unrefused Free (step command) := by
  cases command with
  | shared command => exact unrefused_stepShared fun heq => hhold (congrArg Command.shared heq)
  | pool slot command => exact unrefused_stepPool slot command
  | frame slot command => exact unrefused_stepFrame slot command
  | table slot command => exact unrefused_stepTable slot command
  | memory command => exact unrefused_of_beside (quiet_stepMemory command)
  | space space command => exact unrefused_of_beside (quiet_stepSpace space command)
  | range slot command => exact unrefused_of_beside (quiet_stepRange slot command)

end unrefused

end PagedMemory.Session
