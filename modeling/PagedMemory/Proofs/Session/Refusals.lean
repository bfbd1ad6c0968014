import PagedMemory.Proofs.Session.Guarded

namespace PagedMemory.Session

open Kernel (Open)

variable {session : Session} {low high slot : Nat} {table : PageTable} {page : VirtPage}
  {history : List Event} {command : Command} {α : Type}

-- Contents of memory are compared here and never computed.
attribute [local irreducible] Memory.entry Memory.frame Memory.setEntry

section commutes

-- What does not need the pool goes the same way while somebody uses it.

theorem onKernel_guarded {action : Action Kernel α}
    (h : action.run session.kernel.guarded =
      Action.mapState Kernel.guarded (action.run session.kernel)) :
    (onKernel action).run session.guarded =
      Action.mapState guarded ((onKernel action).run session) := by
  have hkernel : session.guarded.kernel = session.kernel.guarded := rfl
  rw [run_onKernel, run_onKernel, hkernel, h]
  cases action.run session.kernel <;> rfl

theorem commutes_onMachine (action : Action Machine α) : Commutes guarded (onMachine action) :=
  fun session => onKernel_guarded (Kernel.commutes_onMachine action session.kernel)

theorem commutes_required (object? : Option α) : Commutes guarded (required object?) := by
  intro session
  cases object? <;> rfl

theorem commutes_pool (slot : Nat) : Commutes guarded (Session.pool slot) :=
  fun session => commutes_required (session.pools.get? slot) session

theorem commutes_frame (slot : Nat) : Commutes guarded (Session.frame slot) :=
  fun session => commutes_required (session.frames.get? slot) session

theorem commutes_table (slot : Nat) : Commutes guarded (Session.table slot) :=
  fun session => commutes_required (session.tables.get? slot) session

theorem commutes_range (slot : Nat) : Commutes guarded (Session.range slot) :=
  fun session => commutes_required (session.ranges.get? slot) session

theorem commutes_keepPool (slot : Nat) (pool : FramePool) :
    Commutes guarded (keepPool slot pool) := fun _ => rfl

theorem commutes_keepFrame (slot : Nat) (frame : OwnedFrame) :
    Commutes guarded (keepFrame slot frame) := fun _ => rfl

theorem commutes_keepTable (slot : Nat) (table : PageTable) :
    Commutes guarded (keepTable slot table) := fun _ => rfl

theorem commutes_keepRange (slot : Nat) (range : UserRange) :
    Commutes guarded (keepRange slot range) := fun _ => rfl

theorem commutes_forgetFrame (slot : Nat) : Commutes guarded (forgetFrame slot) := fun _ => rfl

theorem commutes_forgetTable (slot : Nat) : Commutes guarded (forgetTable slot) := fun _ => rfl

theorem commutes_onPool (slot : Nat) (action : Action (Machine × FramePool) α) :
    Commutes guarded (onPool slot action) := by
  refine (commutes_pool slot).bind fun pool session => ?_
  simp only [EStateM.run]
  have hmachine : session.guarded.kernel.machine = session.kernel.machine := rfl
  rw [hmachine]
  cases action (session.kernel.machine, pool) <;> rfl

theorem onTable_guarded {action : Action (Kernel × PageTable) α}
    (h : ∀ table, session.tables.get? slot = some table →
      action.run (session.kernel.guarded, table) =
        Action.mapState (Prod.map Kernel.guarded id) (action.run (session.kernel, table))) :
    (onTable slot action).run session.guarded =
      Action.mapState guarded ((onTable slot action).run session) := by
  cases hget : session.tables.get? slot with
  | none =>
      have hget' : session.guarded.tables.get? slot = none := hget
      rw [run_onTable_none action hget, run_onTable_none action hget']
      rfl
  | some table =>
      have hget' : session.guarded.tables.get? slot = some table := hget
      have hkernel : session.guarded.kernel = session.kernel.guarded := rfl
      rw [run_onTable_some action hget, run_onTable_some action hget', hkernel, h table hget]
      cases action.run (session.kernel, table) <;> rfl

theorem commutes_tokenNamed (space : SpaceName) : Commutes guarded (tokenNamed space) := by
  cases space with
  | token token => exact .pure token
  | tableIn slot => exact (commutes_table slot).bind fun _ => .pure _

theorem commutes_frameNamed (name : FrameName) : Commutes guarded (frameNamed name) := by
  cases name with
  | page page => exact .pure page
  | ownedBy slot => exact (commutes_frame slot).bind fun _ => .pure _

theorem commutes_entryIn (found : EntrySlot) : Commutes guarded (entryIn found) :=
  commutes_onMachine _

theorem commutes_stepPool (slot : Nat) (command : PoolCommand) :
    Commutes guarded (stepPool slot command) := by
  cases command with
  | create => exact (commutes_keepPool slot _).bind fun _ => .pure _
  | init low high =>
      exact (commutes_onPool slot _).bind fun _ => (commutes_pool slot).bind fun _ => .pure _
  | take =>
      refine (commutes_onPool slot _).bind fun frame? => ?_
      cases frame? with
      | some frame => exact (commutes_pool slot).bind fun _ => .pure _
      | none => exact (commutes_pool slot).bind fun _ => .pure _
  | giveBack frame =>
      exact (commutes_onPool slot _).bind fun _ => (commutes_pool slot).bind fun _ => .pure _
  | isStacked frame =>
      exact (commutes_onPool slot _).bind fun _ => (commutes_pool slot).bind fun _ => .pure _
  | remaining => exact (commutes_pool slot).bind fun _ => .pure _

theorem commutes_stepSpace (space : SpaceName) (command : SpaceCommand) :
    Commutes guarded (stepSpace space command) := by
  refine (commutes_tokenNamed space).bind fun token => ?_
  cases command with
  | describeRange start length => exact commutes_onMachine _
  | keepRange slot start length =>
      exact (commutes_onMachine _).bind fun range => (commutes_keepRange slot range).bind fun _ =>
        .pure _
  | copyTo start bytes => exact (commutes_onMachine _).bind fun _ => .pure _
  | copyFrom start length => exact (commutes_onMachine _).bind fun _ => .pure _
  | locate address size => exact (commutes_onMachine _).bind fun _ => .pure _
  | write address object => exact (commutes_onMachine _).bind fun _ => .pure _
  | read address kind =>
      refine (commutes_onMachine _).bind fun bytes => ?_
      cases kind <;> exact .pure _

theorem commutes_stepRange (slot : Nat) (command : RangeCommand) :
    Commutes guarded (stepRange slot command) := by
  refine (commutes_range slot).bind fun range => ?_
  cases command with
  | describe => exact (commutes_onMachine _).bind fun _ => .pure _
  | sliceAtEnd => exact (commutes_onMachine _).bind fun _ => .pure _
  | sliceAfter count =>
      dsimp only
      split
      · exact .pure _
      · exact (commutes_onMachine _).bind fun _ => .pure _
  | copyOut bytes => exact (commutes_onMachine _).bind fun _ => .pure _
  | copyIn count => exact (commutes_onMachine _).bind fun _ => .pure _

end commutes

-- Two sessions that differ at most in the order in which their tables are listed.
structure Same (session after : Session) : Prop where
  kernel : after.kernel = session.kernel
  pools : after.pools = session.pools
  frames : after.frames = session.frames
  ranges : after.ranges = session.ranges
  tables : ∀ slot, after.tables.get? slot = session.tables.get? slot

theorem same_refl (session : Session) : session.Same session := ⟨rfl, rfl, rfl, rfl, fun _ => rfl⟩

theorem same_withTable (hget : session.tables.get? slot = some table) :
    session.Same (session.withTable slot session.kernel table) := by
  refine ⟨rfl, rfl, rfl, rfl, fun other => ?_⟩
  by_cases hslot : other = slot
  · subst hslot
    exact (Slots.get?_set_same _ _ _).trans hget.symm
  · exact Slots.get?_set_other _ _ _ _ hslot

-- A command that is refused because the pool is in use has done nothing.
def Refused (session : Session) (command : Command) : Prop :=
  ∃ after, (step command).run session = .error (.fault .reentrant) after ∧ session.Same after

section refused

variable (hheld : session.kernel.Held)

theorem Refused.onKernel {action : Action Kernel α} {next : α → Action Session Reply}
    (hstep : step command = onKernel action >>= next)
    (haction : action.run session.kernel = .error (.fault .reentrant) session.kernel) :
    session.Refused command := by
  refine ⟨session, ?_, same_refl session⟩
  rw [hstep]
  exact Action.run_bind_error (run_onKernel_error haction)

theorem Refused.onTable {action : Action (Kernel × PageTable) α} {next : α → Action Session Reply}
    (hstep : (step command).run session = (onTable slot action >>= next).run session)
    (hget : session.tables.get? slot = some table)
    (haction : action.run (session.kernel, table) =
      .error (.fault .reentrant) (session.kernel, table)) : session.Refused command := by
  have htable := run_onTable_some action hget
  rw [haction] at htable
  exact ⟨_, hstep.trans (Action.run_bind_error htable), same_withTable hget⟩

include hheld

theorem refused_shared {command : SharedPoolCommand} (h : session.Reaches (.shared command)) :
    session.Refused (.shared command) := by
  cases command with
  | init kernelEnd memoryEnd =>
      exact .onKernel rfl (Kernel.run_initFrames_of_held hheld kernelEnd memoryEnd)
  | initRange low high =>
      refine .onKernel rfl ?_
      have hfits : (Kernel.onMachine (Machine.inspect fun memory =>
          if high.toNat ≤ memory.frames then .ok () else .error .beyondMemory)).run session.kernel =
            .ok () session.kernel := by
        rw [Kernel.run_onMachine, Machine.run_inspect_ok (if_pos h)]
      exact (Action.run_bind_ok hfits).trans (Kernel.run_initFrames_of_held hheld _ _)
  | remaining => exact .onKernel rfl (Kernel.run_withPool_of_held hheld _)
  | selfTest => exact .onKernel rfl (Kernel.run_selfTest_of_held hheld)
  | take => exact .onKernel rfl (Kernel.run_withPool_of_held hheld _)
  | giveBack frame => exact .onKernel rfl (Kernel.run_withPool_of_held hheld _)
  | isStacked frame => exact .onKernel rfl (Kernel.run_withPool_of_held hheld _)
  | hold => exact .onKernel rfl (Kernel.run_holdPool_of_held hheld)
  | letGo => exact h.elim
  | remainingHeld => exact h.elim

theorem refused_frame {command : FrameCommand} (h : session.Reaches (.frame slot command)) :
    session.Refused (.frame slot command) := by
  cases command with
  | take => exact .onKernel rfl (Kernel.run_takeFrame_of_held hheld)
  | drop =>
      obtain ⟨frame, hget, howned⟩ := h
      have hdrop : frame.drop.run session.kernel = .error (.fault .reentrant) session.kernel := by
        rw [OwnedFrame.drop, if_pos howned]
        exact Kernel.run_withPool_of_held hheld _
      exact ⟨session, (Action.run_bind_ok (run_frame_some hget)).trans
        (Action.run_bind_error (run_onKernel_error hdrop)), same_refl session⟩
  | claim page => exact h.elim
  | move target => exact h.elim
  | release => exact h.elim
  | page => exact h.elim
  | text => exact h.elim

theorem refused_table {command : TableCommand} (h : session.Reaches (.table slot command)) :
    session.Refused (.table slot command) := by
  cases command with
  | create =>
      exact .onKernel rfl (Action.run_bind_error (Kernel.run_takeNode_of_held hheld _))
  | drop =>
      obtain ⟨table, hget, howned, hshown⟩ := h
      have hdrop : table.drop.run session.kernel = .error (.fault .reentrant) session.kernel := by
        rw [PageTable.drop, if_pos howned]
        exact PageTable.run_freeFrom_of_held hheld hshown
      exact ⟨session, (Action.run_bind_ok (run_table_some hget)).trans
        (Action.run_bind_error (run_onKernel_error hdrop)), same_refl session⟩
  | map page name flags =>
      obtain ⟨⟨table, hget, howned, hmissing⟩, frame, hname⟩ := h
      have hframe := run_frameNamed session name
      rw [hname, run_required_some] at hframe
      refine .onTable (Action.run_bind_ok hframe) hget ?_
      exact Action.run_bind_error (PageTable.run_findOrBuild_of_held hheld howned hmissing)
  | findOrBuild page =>
      obtain ⟨table, hget, howned, hmissing⟩ := h
      exact .onTable rfl hget (PageTable.run_findOrBuild_of_held hheld howned hmissing)
  | poke page entry =>
      obtain ⟨table, hget, howned, hmissing⟩ := h
      exact .onTable rfl hget (PageTable.run_findOrBuild_of_held hheld howned hmissing)
  | view space => exact h.elim
  | move target => exact h.elim
  | describe => exact h.elim
  | unmap page => exact h.elim
  | translate page => exact h.elim
  | translateAddr address => exact h.elim
  | find page => exact h.elim

-- While somebody uses the pool, whoever needs it is refused.
theorem refused_of_reaches (h : session.Reaches command) : session.Refused command := by
  cases command with
  | shared command => exact refused_shared hheld h
  | pool slot command => exact h.elim
  | frame slot command => exact refused_frame hheld h
  | table slot command => exact refused_table hheld h
  | memory command => exact h.elim
  | space space command => exact h.elim
  | range slot command => exact h.elim

end refused

section guarded

-- All others do the same as ever.

theorem stepShared_guarded {command : SharedPoolCommand} (hletGo : command ≠ .letGo)
    (h : ¬session.Reaches (.shared command)) :
    (stepShared command).run session.guarded =
      Action.mapState guarded ((stepShared command).run session) := by
  cases command with
  | initRange low high =>
      have hinit : (Kernel.initFrameRange low high).run session.kernel.guarded =
          Action.mapState Kernel.guarded ((Kernel.initFrameRange low high).run session.kernel) := by
        refine Action.run_bind_mapState (Kernel.commutes_onMachine _ session.kernel) fun _ _ hrun => ?_
        rw [Kernel.run_onMachine, Machine.run_inspect_error (if_neg h)] at hrun
        cases hrun
      exact Action.run_bind_mapState (onKernel_guarded hinit) fun _ _ _ => rfl
  | remainingHeld =>
      obtain ⟨⟨machine, ⟨value?⟩⟩, pools, frames, tables, ranges⟩ := session
      cases value? <;> rfl
  | letGo => exact (hletGo rfl).elim
  | init kernelEnd memoryEnd => exact (h trivial).elim
  | remaining => exact (h trivial).elim
  | selfTest => exact (h trivial).elim
  | take => exact (h trivial).elim
  | giveBack frame => exact (h trivial).elim
  | isStacked frame => exact (h trivial).elim
  | hold => exact (h trivial).elim

theorem stepFrame_guarded {command : FrameCommand} (h : ¬session.Reaches (.frame slot command)) :
    (stepFrame slot command).run session.guarded =
      Action.mapState guarded ((stepFrame slot command).run session) := by
  cases command with
  | take => exact (h trivial).elim
  | claim page =>
      exact ((commutes_onMachine _).bind fun frame => (commutes_keepFrame slot frame).bind fun _ =>
        .pure _) session
  | drop =>
      refine Action.run_bind_mapState (commutes_frame slot session) fun frame after hrun => ?_
      obtain ⟨hget, rfl⟩ := run_required_eq_ok hrun
      have hview : frame.owned ≠ true := fun howned => h ⟨frame, hget, howned⟩
      refine Action.run_bind_mapState (onKernel_guarded ?_) fun _ after _ =>
        ((commutes_forgetFrame slot).bind fun _ => .pure _) after
      rw [OwnedFrame.drop, if_neg hview]
      rfl
  | move target =>
      exact ((commutes_frame slot).bind fun frame => (commutes_keepFrame slot _).bind fun _ =>
        (commutes_keepFrame target frame).bind fun _ => .pure _) session
  | release =>
      exact ((commutes_frame slot).bind fun frame => (commutes_onMachine _).bind fun _ =>
        (commutes_keepFrame slot _).bind fun _ => .pure _) session
  | page => exact ((commutes_frame slot).bind fun _ => .pure _) session
  | text => exact ((commutes_frame slot).bind fun _ => .pure _) session

theorem stepTable_guarded {command : TableCommand} (h : ¬session.Reaches (.table slot command)) :
    (stepTable slot command).run session.guarded =
      Action.mapState guarded ((stepTable slot command).run session) := by
  have hbuild {page : VirtPage} (hnot : ¬session.MissesNode slot page) (table : PageTable)
      (hget : session.tables.get? slot = some table) (howned : table.owned = true) :
      table.find? page session.kernel.machine.memory ≠ .ok none :=
    fun hmissing => hnot ⟨table, hget, howned, hmissing⟩
  cases command with
  | create => exact (h trivial).elim
  | view space =>
      exact ((commutes_tokenNamed space).bind fun token => (commutes_keepTable slot _).bind fun _ =>
        .pure _) session
  | drop =>
      refine Action.run_bind_mapState (commutes_table slot session) fun table after hrun => ?_
      obtain ⟨hget, rfl⟩ := run_required_eq_ok hrun
      refine Action.run_bind_mapState (onKernel_guarded ?_) fun _ after _ =>
        ((commutes_forgetTable slot).bind fun _ => .pure _) after
      rw [PageTable.drop]
      split
      · rename_i howned
        have hnot : ¬PageTable.FirstShown after.kernel.machine.memory PageTable.rootHeight
            table.root := fun hshown => h ⟨table, hget, howned, hshown⟩
        have hnot' : ¬PageTable.FirstShown after.kernel.guarded.machine.memory
            PageTable.rootHeight table.root := hnot
        rw [PageTable.run_freeFrom_of_outside hnot, PageTable.run_freeFrom_of_outside hnot']
        rfl
      · rfl
  | move target =>
      exact ((commutes_table slot).bind fun table => (commutes_keepTable slot _).bind fun _ =>
        (commutes_keepTable target table).bind fun _ => .pure _) session
  | describe => exact ((commutes_table slot).bind fun _ => .pure _) session
  | map page name flags =>
      refine Action.run_bind_mapState (commutes_frameNamed name session) fun frame after hrun => ?_
      obtain ⟨hframe, rfl⟩ := run_required_eq_ok ((run_frameNamed session name).symm.trans hrun)
      refine Action.run_bind_mapState (onTable_guarded fun table hget => ?_) fun _ after _ =>
        ((commutes_table slot).bind fun _ => .pure _) after
      exact PageTable.map_guarded
        (hbuild (fun hmisses => h ⟨hmisses, frame, hframe⟩) table hget)
  | findOrBuild page =>
      refine Action.run_bind_mapState (onTable_guarded fun table hget => ?_) fun found after _ =>
        ((commutes_entryIn found).bind fun _ => (commutes_table slot).bind fun _ => .pure _) after
      exact PageTable.findOrBuild_guarded (hbuild h table hget)
  | poke page entry =>
      refine Action.run_bind_mapState (onTable_guarded fun table hget => ?_) fun found after _ =>
        ((commutes_onMachine _).bind fun _ => (commutes_entryIn found).bind fun _ => .pure _) after
      exact PageTable.findOrBuild_guarded (hbuild h table hget)
  | unmap page =>
      exact ((commutes_table slot).bind fun table => (commutes_onMachine _).bind fun _ =>
        (commutes_table slot).bind fun _ => .pure _) session
  | translate page =>
      refine ((commutes_table slot).bind fun table => (commutes_onMachine _).bind
        fun entry? => ?_) session
      cases entry? <;> exact .pure _
  | translateAddr address =>
      refine ((commutes_table slot).bind fun table => (commutes_onMachine _).bind
        fun address? => ?_) session
      cases address? <;> exact .pure _
  | find page =>
      refine ((commutes_table slot).bind fun table => (commutes_onMachine _).bind
        fun found? => ?_) session
      cases found? with
      | some found => exact (commutes_entryIn found).bind fun _ => .pure _
      | none => exact .pure _

theorem step_guarded (hletGo : command ≠ .shared .letGo) (h : ¬session.Reaches command) :
    (step command).run session.guarded = Action.mapState guarded ((step command).run session) := by
  cases command with
  | shared command =>
      exact stepShared_guarded (fun heq => hletGo (congrArg Command.shared heq)) h
  | pool slot command => exact commutes_stepPool slot command session
  | frame slot command => exact stepFrame_guarded h
  | table slot command => exact stepTable_guarded h
  | memory command => exact commutes_onMachine _ session
  | space space command => exact commutes_stepSpace space command session
  | range slot command => exact commutes_stepRange slot command session

theorem run_hold_of_open (hopen : session.kernel.Open) :
    (step (.shared .hold)).run session = .ok (.truth true) session.guarded :=
  Action.run_bind_ok (run_onKernel_ok (Kernel.run_holdPool_of_open hopen))

theorem run_letGo_of_open (hopen : session.kernel.Open) :
    (step (.shared .letGo)).run session.guarded = .ok (.truth false) session := by
  obtain ⟨⟨machine, shared⟩, pools, frames, tables, ranges⟩ := session
  obtain ⟨pool, hpool⟩ := hopen
  cases hpool
  rfl

end guarded

-- In every session, the end of a table that owns its nodes needs the pool.
theorem Accounts.reaches_drop {loose free : List PhysPage} (h : Accounts low high session loose free)
    (hget : session.tables.get? slot = some table) (howned : table.owned = true) :
    session.Reaches (.table slot .drop) :=
  ⟨table, hget, howned, PageTable.firstShown_of_nodes (h.standing hget howned).window⟩

-- Nobody who finds the pool free is refused, and whoever has used it gives it back. When somebody
-- holds it, all who need it are refused and nothing has changed. All others do what they would have
-- done.
theorem refused_exactly_when_held (hopen : session.kernel.Open) :
    Fault.reentrant.message = "ExclusiveCell: reentrant access" ∧
    (∀ command, command ≠ .shared .hold → ∀ after,
      (step command).run session ≠ .error (.fault .reentrant) after ∧
      ∀ reply, (step command).run session = .ok reply after → after.kernel.Open) ∧
    (step (.shared .hold)).run session = .ok (.truth true) session.guarded ∧
    (step (.shared .letGo)).run session.guarded = .ok (.truth false) session ∧
    (∀ command, session.Reaches command → session.guarded.Refused command) ∧
    (∀ command, ¬session.Reaches command → command ≠ .shared .letGo →
      (step command).run session.guarded =
        Action.mapState guarded ((step command).run session)) ∧
    ∀ low high history, Run low high session history → ∀ slot table,
      session.tables.get? slot = some table → table.owned = true →
        session.Reaches (.table slot .drop) := by
  refine ⟨rfl, fun command hhold after => ⟨(unrefused_step hhold).error hopen, fun _ =>
      (unrefused_step hhold).ok hopen⟩, run_hold_of_open hopen, run_letGo_of_open hopen,
    fun command hreaches => refused_of_reaches hopen.held hreaches,
    fun command hnot hletGo => step_guarded hletGo hnot, ?_⟩
  intro low high history hrun slot table hget howned
  obtain ⟨free, haccounts, -⟩ := hrun.invariant
  exact haccounts.reaches_drop hget howned

-- While somebody holds the pool, a page of a new table cannot be mapped and the table cannot be ended,
-- but the page can be looked up.
theorem refused_in_new_table : ∃ session history, Run 1 8 session history ∧ session.kernel.Open ∧
    session.guarded.Refused (.table 0 (.map (.ofNat 5) (.page (.ofNat 7)) ⟨2⟩)) ∧
    session.guarded.Refused (.table 0 .drop) ∧
    (step (.table 0 (.translate (.ofNat 5)))).run session.guarded = .ok .missing session.guarded ∧
    ∃ nodes after, (step (.table 0 (.map (.ofNat 5) (.page (.ofNat 7)) ⟨2⟩))).run session =
      .ok (.count nodes) after ∧ after.kernel.Open := by
  obtain ⟨empty, session, root, free, hrun, haccounts, hcount, -, htables, hunmapped⟩ :=
    Run.exists_created (.filled 1024 0xcd) 0x1000 0x8000 rfl rfl (by decide) (by decide)
  have hget : session.tables.get? 0 = some ⟨root, true, 1⟩ := by
    rw [htables, Slots.get?_set_same]
  have hopen : session.kernel.Open := by
    obtain ⟨pool, hpool, -⟩ := haccounts.offers
    exact ⟨pool, hpool⟩
  have hmissing : PageTable.missingFrom session.kernel.machine.memory (.ofNat 5) PageTable.rootHeight
      root = 2 := PageTable.missingFrom_of_alone (haccounts.counted 0 _ hget rfl).symm
  have hnone : (PageTable.mk root true 1).find? (.ofNat 5) session.kernel.machine.memory =
      .ok none := by
    rw [(haccounts.standing hget rfl).find?_eq]
    cases hslot : PageTable.slotFrom session.kernel.machine.memory (.ofNat 5) PageTable.rootHeight
        root with
    | none => rfl
    | some slot => cases hmissing.symm.trans (PageTable.missingFrom_of_slotFrom hslot)
  have hroom : PageTable.missingFrom session.kernel.machine.memory (.ofNat 5) PageTable.rootHeight
      root ≤ free.length := by
    have hfree : free.length + 1 = 8 - 1 := hcount
    rw [hmissing]
    omega
  have hname : session.frameNamed? (.page (.ofNat 7)) = some (.ofNat 7) := rfl
  obtain ⟨nodes, after, hmap, -⟩ := haccounts.step_map hget rfl hname (hunmapped (.ofNat 5)) hroom ⟨2⟩
  obtain ⟨-, hfree, -, -, hrefused, hothers, hdrop⟩ := refused_exactly_when_held hopen
  have hlookup : (step (.table 0 (.translate (.ofNat 5)))).run session = .ok .missing session := by
    have htranslate : (onMachine (Machine.inspect
        ((PageTable.mk root true 1).translate? (.ofNat 5)))).run session = .ok none session := by
      refine run_onMachine_ok (Machine.run_inspect_ok ?_)
      rw [PageTable.translate?, hnone]
      rfl
    exact (Action.run_bind_ok (run_table_some hget)).trans (Action.run_bind_ok htranslate)
  refine ⟨session, _, hrun, hopen, hrefused _ ⟨⟨_, hget, rfl, hnone⟩, _, rfl⟩,
    hrefused _ (hdrop 1 8 _ hrun 0 _ hget rfl), ?_, nodes, after, hmap,
    (hfree (.table 0 (.map (.ofNat 5) (.page (.ofNat 7)) ⟨2⟩)) (by simp) after).2 _ hmap⟩
  rw [hothers (.table 0 (.translate (.ofNat 5))) id (by simp), hlookup]
  rfl

end PagedMemory.Session
