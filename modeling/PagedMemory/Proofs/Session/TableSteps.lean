import PagedMemory.Proofs.Session.Views

namespace PagedMemory

theorem PageTable.holds_disowned (memory : Memory) (table : PageTable) :
    table.disowned.holds memory = [] := rfl

namespace Session

variable {session after : Session} {low high slot target : Nat} {loose free free' : List PhysPage}
  {table table' : PageTable} {kernel' : Kernel} {page : VirtPage} {frame : PhysPage}
  {name : FrameName} {flags : Flags} {α : Type}

-- Contents of memory are compared here and never computed.
attribute [local irreducible] Memory.entry Memory.frame Memory.setEntry

-- A session in which a command worked on the table in a slot.
def withTable (session : Session) (slot : Nat) (kernel : Kernel) (table : PageTable) : Session :=
  { session with kernel, tables := session.tables.set slot table }

-- Mapping a page, once the frame behind its name is known.

theorem run_frameNamed (session : Session) (name : FrameName) :
    (frameNamed name).run session = (required (session.frameNamed? name)).run session := by
  cases name with
  | page page => rfl
  | ownedBy slot =>
      cases hget : session.frames.get? slot with
      | none =>
          rw [frameNamed?, hget, Option.map_none, run_required_none]
          exact Action.run_bind_error (run_frame_none hget)
      | some frame =>
          rw [frameNamed?, hget, Option.map_some, run_required_some]
          exact Action.run_bind_ok (run_frame_some hget)

theorem step_map_of_ok (hname : session.frameNamed? name = some frame)
    (hget : session.tables.get? slot = some table)
    (hrun : (PageTable.map page frame flags).run (session.kernel, table) = .ok () (kernel', table')) :
    (step (.table slot (.map page name flags))).run session = .ok (.count table'.nodes)
      { session with kernel := kernel', tables := session.tables.set slot table' } := by
  have hframe := run_frameNamed session name
  rw [hname, run_required_some] at hframe
  have hmap := run_onTable_some (PageTable.map page frame flags) hget
  rw [hrun] at hmap
  exact (Action.run_bind_ok hframe).trans ((Action.run_bind_ok hmap).trans
    (Action.run_bind_ok (run_table_some (Slots.get?_set_same session.tables slot table'))))

theorem step_map_of_error {stop : Stop} (hname : session.frameNamed? name = some frame)
    (hget : session.tables.get? slot = some table)
    (hrun : (PageTable.map page frame flags).run (session.kernel, table) =
      .error stop (kernel', table')) :
    (step (.table slot (.map page name flags))).run session = .error stop
      { session with kernel := kernel', tables := session.tables.set slot table' } := by
  have hframe := run_frameNamed session name
  rw [hname, run_required_some] at hframe
  have hmap := run_onTable_some (PageTable.map page frame flags) hget
  rw [hrun] at hmap
  exact (Action.run_bind_ok hframe).trans (Action.run_bind_error hmap)

namespace Accounts

-- One table may change, with frames from the pool and to it. All other frames are spared.
theorem exchangeTable (slot : Nat) (h : Accounts low high session loose free)
    (hframes : after.frames = session.frames)
    (herase : after.tables.erase slot = session.tables.erase slot)
    (hslots : after.tables.Distinct) (hoffers : after.kernel.Offers low high free')
    (hspared : ∀ other ∉ free, other ∉ (session.tables.get? slot).elim []
        (PageTable.holds session.kernel.machine.memory) →
      after.kernel.machine.memory.frame other = session.kernel.machine.memory.frame other)
    (hperm : (free' ++ (after.tables.get? slot).elim []
        (PageTable.holds after.kernel.machine.memory)).Perm
      (free ++ (session.tables.get? slot).elim [] (PageTable.holds session.kernel.machine.memory)))
    (hcounted : ∀ table, after.tables.get? slot = some table → table.owned = true →
      table.nodes = (PageTable.nodesFrom after.kernel.machine.memory PageTable.rootHeight
        table.root).length) : Accounts low high after loose free' := by
  refine h.changeTable hframes herase hslots hoffers (fun other hmem => ?_) hperm hcounted
  have hnode := (h.nodes_perm slot).mem_iff.mpr (List.mem_append_right _ hmem)
  exact hspared other (h.node_apart hnode).1 (h.other_apart hmem)

-- Commands that do so.
theorem carriesTable {event : Event} (slot : Nat)
    (h : Accounts low high event.before loose free)
    (haccounts : Accounts low high after loose free')
    (hcommand : ∃ command, event.command = .table slot command)
    (herase : after.tables.erase slot = event.before.tables.erase slot)
    (hspared : ∀ other ∉ free, other ∉ (event.before.tables.get? slot).elim []
        (PageTable.holds event.before.kernel.machine.memory) →
      after.kernel.machine.memory.frame other = event.before.kernel.machine.memory.frame other)
    (hloose : event.looseAfter loose = loose)
    (hthis : ∀ record, event.before.Agrees record →
      ∀ table, after.tables.get? slot = some table → table.owned = true → ∀ page,
        PageTable.mappedFrom after.kernel.machine.memory page PageTable.rootHeight table.root =
          (event.recordAfter record slot page).map Entry.leafOf)
    (hothers : ∀ record, ∀ other ≠ slot, ∀ page,
      event.recordAfter record other page = record other page) :
    Carries low high loose event after := by
  have hspared' : ∀ other ∈ (event.before.tables.erase slot).total
      (PageTable.holds event.before.kernel.machine.memory),
      after.kernel.machine.memory.frame other =
        event.before.kernel.machine.memory.frame other := fun other hmem => by
    have hnode := (h.nodes_perm slot).mem_iff.mpr (List.mem_append_right _ hmem)
    exact hspared other (h.node_apart hnode).1 (h.other_apart hmem)
  have hthisNode : ∀ frame, frame ∈ (event.before.tables.get? slot).elim []
      (PageTable.holds event.before.kernel.machine.memory) → frame ∈ event.before.nodeFrames :=
    fun frame hmem => (h.nodes_perm slot).mem_iff.mpr (List.mem_append_left _ hmem)
  refine ⟨free', hloose.symm ▸ haccounts, fun _ record hagrees => ?_, ⟨fun _ frame hgiven _ _ => ?_,
    fun other table hget hnamed frame hmem _ => ?_⟩⟩
  · exact hagrees.changeTable herase hspared' (hthis record hagrees) (hothers record)
  · refine hspared frame (h.given_apart hgiven) fun hin => ?_
    obtain ⟨-, hheld, hloose⟩ := h.node_apart (hthisNode frame hin)
    exact hgiven.elim hheld hloose
  · obtain ⟨command, hslot⟩ := hcommand
    have hne : other ≠ slot := by
      rintro rfl
      exact hnamed command hslot
    exact hspared' frame (Slots.mem_total_of_get? ((Slots.get?_erase_other _ _ _ hne).trans hget) hmem)

theorem quiet_table (slot : Nat) : Quiet Eq (Session.table slot) :=
  fun session => quiet_required (session.tables.get? slot) session

theorem quiet_entryIn (found : EntrySlot) : Quiet Eq (entryIn found) :=
  quiet_inspect fun _ => .ok _

theorem sound_describe (h : Accounts low high session loose free) :
    Sound low high loose session (.table slot .describe) :=
  h.sound_of_quiet ((quiet_table slot).bind Eq.trans fun _ => .pure (fun _ => rfl) _)
    (fun _ => rfl) fun _ _ => rfl

theorem sound_translate (h : Accounts low high session loose free) :
    Sound low high loose session (.table slot (.translate page)) := by
  refine h.sound_of_quiet ((quiet_table slot).bind Eq.trans fun table => ?_) (fun _ => rfl)
    fun _ _ => rfl
  refine (quiet_inspect fun _ => PageTable.spares_translate?).bind Eq.trans fun entry? => ?_
  cases entry? with
  | some entry => exact .pure (fun _ => rfl) _
  | none => exact .pure (fun _ => rfl) _

theorem sound_translateAddr {address : VirtAddr} (h : Accounts low high session loose free) :
    Sound low high loose session (.table slot (.translateAddr address)) := by
  refine h.sound_of_quiet ((quiet_table slot).bind Eq.trans fun table => ?_) (fun _ => rfl)
    fun _ _ => rfl
  refine (quiet_inspect fun _ => PageTable.spares_translateAddr?).bind Eq.trans fun address? => ?_
  cases address? with
  | some address => exact .pure (fun _ => rfl) _
  | none => exact .pure (fun _ => rfl) _

theorem sound_find (h : Accounts low high session loose free) :
    Sound low high loose session (.table slot (.find page)) := by
  refine h.sound_of_quiet ((quiet_table slot).bind Eq.trans fun table => ?_) (fun _ => rfl)
    fun _ _ => rfl
  refine (quiet_inspect fun _ => PageTable.spares_find?).bind Eq.trans fun found? => ?_
  cases found? with
  | some found =>
      exact (quiet_entryIn found).bind Eq.trans fun _ => .pure (fun _ => rfl) _
  | none => exact .pure (fun _ => rfl) _

-- A new table starts with a root, and with nothing mapped.

theorem step_create_of_nil (h : Accounts low high session loose []) (slot : Nat) :
    (step (.table slot .create)).run session = .error (.fault .noFrameForRoot) session :=
  Action.run_bind_error (run_onKernel_error (PageTable.run_create_nil h.offers))

theorem created {root : PhysPage} {rest : List PhysPage}
    (h : Accounts low high session loose (root :: rest))
    (hempty : session.tables.get? slot = none) (hoffers : kernel'.Offers low high rest)
    (hspared : ∀ other ≠ root,
      kernel'.machine.memory.frame other = session.kernel.machine.memory.frame other)
    (hnodes : PageTable.nodesFrom kernel'.machine.memory PageTable.rootHeight root = [root]) :
    Accounts low high (session.withTable slot kernel' ⟨root, true, 1⟩) loose rest := by
  have hget := Slots.get?_set_same session.tables slot ⟨root, true, 1⟩
  refine h.exchangeTable slot rfl (Slots.erase_set _ _ _) (h.tableSlots.set _ _) hoffers ?_ ?_ ?_
  · intro other hfree _
    exact hspared other fun heq => hfree (heq ▸ List.mem_cons_self)
  · rw [withTable, hget, hempty, Option.elim_some, Option.elim_none, List.append_nil,
      PageTable.holds_of_owned rfl, hnodes]
    exact List.perm_append_singleton root rest
  · intro table htable _
    rw [withTable, hget] at htable
    cases htable
    exact (congrArg List.length hnodes).symm

theorem sound_create (h : Accounts low high session loose free)
    (hempty : session.tables.get? slot = none) :
    Sound low high loose session (.table slot .create) := by
  cases free with
  | nil => exact .of_error (h.step_create_of_nil slot) id
  | cons root rest =>
      obtain ⟨kernel', hrun, hoffers, -, -, hspared, hnodes, hunmapped⟩ :=
        PageTable.run_create_cons h.offers
      have hget := Slots.get?_set_same session.tables slot ⟨root, true, 1⟩
      refine .of_ok (.page root) (session.withTable slot kernel' ⟨root, true, 1⟩)
        (Action.run_bind_ok (run_onKernel_ok hrun))
        (h.carriesTable slot (h.created hempty hoffers hspared hnodes) ⟨_, rfl⟩
          (Slots.erase_set _ _ _) ?_ rfl ?_ ?_)
      · intro other hfree _
        exact hspared other fun heq => hfree (heq ▸ List.mem_cons_self)
      · intro record _ table htable _ page
        rw [withTable, hget] at htable
        cases htable
        rw [Event.recordAfter_create, if_pos rfl, Option.map_none]
        exact hunmapped page
      · exact fun record other hne page => if_neg hne

theorem quiet_tokenNamed (space : SpaceName) : Quiet Eq (tokenNamed space) := by
  cases space with
  | token token => exact .pure (fun _ => rfl) token
  | tableIn slot =>
      exact (quiet_table slot).bind Eq.trans fun _ => .pure (fun _ => rfl) _

-- A view owns nothing.
theorem sound_view {space : SpaceName} (h : Accounts low high session loose free)
    (hempty : session.tables.get? slot = none) :
    Sound low high loose session (.table slot (.view space)) := by
  cases hrun : (tokenNamed space).run session with
  | error stop after =>
      exact .of_error (Action.run_bind_error hrun) ((quiet_tokenNamed space).not_blamesPool hrun)
  | ok token after =>
      cases (quiet_tokenNamed space).ok hrun
      have hget := Slots.get?_set_same session.tables slot (PageTable.ofToken token)
      refine .of_ok (.page (PageTable.ofToken token).root)
        { session with tables := session.tables.set slot (PageTable.ofToken token) }
        (Action.run_bind_ok hrun)
        (h.carriesTable slot (h.exchangeTable slot rfl (Slots.erase_set _ _ _) (h.tableSlots.set _ _)
          h.offers (fun _ _ _ => rfl) ?_ ?_) ⟨_, rfl⟩ (Slots.erase_set _ _ _) (fun _ _ _ => rfl) rfl ?_
          fun _ _ _ _ => rfl)
      · rw [hget, hempty, Option.elim_some, Option.elim_none, PageTable.holds_of_view rfl]
      · intro table htable howned
        rw [hget] at htable
        cases htable
        cases howned
      · intro record _ table htable howned
        rw [hget] at htable
        cases htable
        cases howned

-- The end of a table returns its nodes.

theorem step_drop_of_owned (h : Accounts low high session loose free)
    (hget : session.tables.get? slot = some table) (howned : table.owned = true) :
    ∃ kernel', (step (.table slot .drop)).run session = .ok .done
        { session with kernel := kernel', tables := session.tables.erase slot } ∧
      Kernel.Returned low high session.kernel kernel'
        (PageTable.nodesFrom session.kernel.machine.memory PageTable.rootHeight table.root) free := by
  obtain ⟨kernel', hrun, hreturned⟩ := PageTable.run_drop h.offers howned (h.out hget howned)
  exact ⟨kernel', (Action.run_bind_ok (run_table_some hget)).trans
    (Action.run_bind_ok (run_onKernel_ok hrun)), hreturned⟩

theorem sound_drop_of_owned (h : Accounts low high session loose free)
    (hget : session.tables.get? slot = some table) (howned : table.owned = true) :
    Sound low high loose session (.table slot .drop) := by
  have hgone := Slots.get?_erase_same session.tables slot
  obtain ⟨kernel', hstep, hreturned⟩ := h.step_drop_of_owned hget howned
  have hspared : ∀ other ∉ free, other ∉ (session.tables.get? slot).elim []
      (PageTable.holds session.kernel.machine.memory) →
      kernel'.machine.memory.frame other = session.kernel.machine.memory.frame other := by
    intro other _ hnot
    rw [hget, Option.elim_some, PageTable.holds_of_owned howned] at hnot
    exact hreturned.spared other hnot
  refine .of_ok _ _ hstep
    (h.carriesTable slot (h.exchangeTable slot rfl (Slots.erase_erase _ _) (h.tableSlots.erase _)
      hreturned.offers hspared ?_ ?_) ⟨_, rfl⟩ (Slots.erase_erase _ _) hspared rfl ?_
      fun _ _ _ _ => rfl)
  · rw [hgone, hget, Option.elim_none, Option.elim_some, List.append_nil,
      PageTable.holds_of_owned howned]
    exact ((List.reverse_perm _).append_right _).trans List.perm_append_comm
  · intro table' htable'
    rw [hgone] at htable'
    cases htable'
  · intro record _ table' htable'
    rw [hgone] at htable'
    cases htable'

theorem step_drop_of_view (hget : session.tables.get? slot = some table)
    (hview : table.owned = false) :
    (step (.table slot .drop)).run session =
      .ok .done { session with tables := session.tables.erase slot } :=
  (Action.run_bind_ok (run_table_some hget)).trans
    (Action.run_bind_ok (run_onKernel_ok (PageTable.run_drop_of_view hview)))

theorem sound_drop_of_view (h : Accounts low high session loose free)
    (hget : session.tables.get? slot = some table) (hview : table.owned = false) :
    Sound low high loose session (.table slot .drop) := by
  have hgone := Slots.get?_erase_same session.tables slot
  refine .of_ok _ _ (step_drop_of_view hget hview)
    (h.carriesTable slot (h.exchangeTable slot rfl (Slots.erase_erase _ _) (h.tableSlots.erase _)
      h.offers (fun _ _ _ => rfl) ?_ ?_) ⟨_, rfl⟩ (Slots.erase_erase _ _) (fun _ _ _ => rfl) rfl ?_
      fun _ _ _ _ => rfl)
  · rw [hgone, hget, Option.elim_none, Option.elim_some, PageTable.holds_of_view hview]
  · intro table' htable'
    rw [hgone] at htable'
    cases htable'
  · intro record _ table' htable'
    rw [hgone] at htable'
    cases htable'

theorem sound_drop (h : Accounts low high session loose free) :
    Sound low high loose session (.table slot .drop) := by
  cases hget : session.tables.get? slot with
  | none => exact .of_error (Action.run_bind_error (run_table_none hget)) id
  | some table =>
      by_cases howned : table.owned = true
      · exact h.sound_drop_of_owned hget howned
      · rw [Bool.not_eq_true] at howned
        exact h.sound_drop_of_view hget howned

-- One page of a table may be mapped anew, with nodes that come from the pool.
theorem remapped (fresh : List PhysPage) {rest : List PhysPage} {mapping : Option Entry}
    (h : Accounts low high session loose (fresh ++ rest))
    (hget : session.tables.get? slot = some table) (howned : table.owned = true)
    (hframes : after.frames = session.frames)
    (herase : after.tables.erase slot = session.tables.erase slot)
    (hslots : after.tables.Distinct)
    (hget' : after.tables.get? slot = some { table with nodes := table.nodes + fresh.length })
    (hoffers : after.kernel.Offers low high rest)
    (hremapped : PageTable.Remapped session.kernel.machine.memory
      after.kernel.machine.memory table.root fresh page mapping) :
    Accounts low high after loose rest := by
  refine h.exchangeTable slot hframes herase hslots hoffers ?_ ?_ ?_
  · intro other hfree hnot
    rw [hget, Option.elim_some, PageTable.holds_of_owned howned] at hnot
    exact hremapped.spared other (fun hin => hfree (List.mem_append_left _ hin)) hnot
  · rw [hget, hget', Option.elim_some, Option.elim_some, PageTable.holds_of_owned howned,
      PageTable.holds_of_owned (by exact howned)]
    refine (hremapped.nodes.append_left rest).trans ?_
    rw [← List.append_assoc]
    exact List.perm_append_comm.append_right _
  · intro table' htable' _
    rw [hget'] at htable'
    cases htable'
    have hcounted := h.counted slot table hget howned
    have hlength := hremapped.nodes.length_eq
    rw [List.length_append] at hlength
    simp only
    omega

-- Commands that do so.
theorem carriesRemapped {event : Event} (fresh : List PhysPage) {rest : List PhysPage}
    {mapping : Option Entry}
    (h : Accounts low high event.before loose (fresh ++ rest))
    (haccounts : Accounts low high after loose rest)
    (hcommand : ∃ command, event.command = .table slot command)
    (hget : event.before.tables.get? slot = some table) (howned : table.owned = true)
    (herase : after.tables.erase slot = event.before.tables.erase slot)
    (hget' : after.tables.get? slot = some { table with nodes := table.nodes + fresh.length })
    (hremapped : PageTable.Remapped event.before.kernel.machine.memory
      after.kernel.machine.memory table.root fresh page mapping)
    (hloose : event.looseAfter loose = loose)
    (hsame : ∀ record, event.before.Agrees record →
      mapping = (event.recordAfter record slot page).map Entry.leafOf)
    (hrecord : ∀ record other otherPage, ¬(other = slot ∧ otherPage = page) →
      event.recordAfter record other otherPage = record other otherPage) :
    Carries low high loose event after := by
  refine h.carriesTable slot haccounts hcommand herase ?_ hloose ?_ ?_
  · intro other hfree hnot
    rw [hget, Option.elim_some, PageTable.holds_of_owned howned] at hnot
    exact hremapped.spared other (fun hin => hfree (List.mem_append_left _ hin)) hnot
  · intro record hagrees table' htable' _ other
    rw [hget'] at htable'
    cases htable'
    by_cases hpage : other = page
    · rw [hpage, ← hsame record hagrees]
      exact hremapped.same
    · rw [hrecord record slot other fun heq => hpage heq.2,
        ← hagrees slot table hget howned other]
      exact hremapped.others other hpage
  · exact fun record other hne otherPage =>
      hrecord record other otherPage fun heq => hne heq.1

-- A table in a slot has worked on one of its pages.
theorem remapped_withTable {fresh rest : List PhysPage} {mapping : Option Entry}
    (h : Accounts low high session loose (fresh ++ rest))
    (hget : session.tables.get? slot = some table) (howned : table.owned = true)
    (hoffers : kernel'.Offers low high rest)
    (hremapped : PageTable.Remapped session.kernel.machine.memory kernel'.machine.memory table.root
      fresh page mapping) :
    Accounts low high
      (session.withTable slot kernel' { table with nodes := table.nodes + fresh.length }) loose
      rest :=
  h.remapped fresh hget howned rfl (Slots.erase_set _ _ _) (h.tableSlots.set _ _)
    (Slots.get?_set_same _ _ _) hoffers hremapped

-- A walk that makes nodes, from the session it finds to the one it leaves.
theorem step_findOrBuild_cases (h : Accounts low high session loose free)
    (hget : session.tables.get? slot = some table) (howned : table.owned = true) (page : VirtPage) :
    ∃ fresh rest kernel', free = fresh ++ rest ∧ kernel'.Offers low high rest ∧
      kernel'.machine.log = session.kernel.machine.log ∧
      PageTable.Paved page session.kernel.machine.memory kernel'.machine.memory
        PageTable.rootHeight table.root fresh ∧
      ((∃ found, (step (.table slot (.findOrBuild page))).run session =
            .ok (.builtSlot found (kernel'.machine.memory.entry found) (table.nodes + fresh.length))
              (session.withTable slot kernel'
                { table with nodes := table.nodes + fresh.length }) ∧
          PageTable.slotFrom kernel'.machine.memory page PageTable.rootHeight table.root =
            some found ∧
          fresh.length = PageTable.missingFrom session.kernel.machine.memory page
            PageTable.rootHeight table.root) ∨
        (rest = [] ∧
          fresh.length < PageTable.missingFrom session.kernel.machine.memory page
            PageTable.rootHeight table.root ∧
          (step (.table slot (.findOrBuild page))).run session = .error (.fault .noFrameForNode)
            (session.withTable slot kernel'
              { table with nodes := table.nodes + fresh.length }))) := by
  have hbuild := run_onTable_some (PageTable.findOrBuild page) hget
  obtain ⟨fresh, rest, kernel', rfl, hoffers, hlog, hpaved, hcase⟩ :=
    (h.standing hget howned).builds h.offers page
  refine ⟨fresh, rest, kernel', rfl, hoffers, hlog, hpaved, ?_⟩
  rw [← PageTable.run_findOrBuild howned] at hcase
  rcases hcase with ⟨found, hrun, hslot, hlength⟩ | ⟨hrest, hlength, hrun⟩
  · let built : PageTable := { table with nodes := table.nodes + fresh.length }
    have hget' : (session.withTable slot kernel' built).tables.get? slot = some built :=
      Slots.get?_set_same session.tables slot built
    have hentry : (entryIn found).run (session.withTable slot kernel' built) =
      .ok (kernel'.machine.memory.entry found) (session.withTable slot kernel' built) := rfl
    rw [hrun] at hbuild
    exact Or.inl ⟨found, (Action.run_bind_ok hbuild).trans ((Action.run_bind_ok hentry).trans
      (Action.run_bind_ok (run_table_some hget'))), hslot, hlength⟩
  · rw [hrun] at hbuild
    exact Or.inr ⟨hrest, hlength, Action.run_bind_error hbuild⟩

-- Nodes that were made belong to the table. What is mapped stays mapped.
theorem sound_findOrBuild (h : Accounts low high session loose free) :
    Sound low high loose session (.table slot (.findOrBuild page)) := by
  cases hget : session.tables.get? slot with
  | none => exact .of_error (Action.run_bind_error (Action.run_bind_error (run_table_none hget))) id
  | some table =>
      by_cases howned : table.owned = true
      · obtain ⟨fresh, rest, kernel', rfl, hoffers, -, hpaved, hcase⟩ :=
          h.step_findOrBuild_cases hget howned page
        rcases hcase with ⟨found, hstep, -⟩ | ⟨-, -, hstep⟩
        · exact .of_ok _ _ hstep
            (h.carriesRemapped fresh
              (h.remapped_withTable hget howned hoffers (hpaved.toGrown.remapped page)) ⟨_, rfl⟩ hget
              howned (Slots.erase_set _ _ _) (Slots.get?_set_same _ _ _) (hpaved.toGrown.remapped page)
              rfl (fun record hagrees => hagrees slot table hget howned page) fun _ _ _ _ => rfl)
        · exact .of_error hstep id
      · rw [Bool.not_eq_true] at howned
        have hbuild := run_onTable_some (PageTable.findOrBuild page) hget
        rw [PageTable.run_findOrBuild_of_view howned] at hbuild
        exact .of_error (Action.run_bind_error hbuild) id

-- A command that maps a page, from the session it finds to the one it leaves: the page is mapped
-- already, or it is mapped now, or there are too few frames for the nodes on the way to its leaf.
theorem step_map_cases (h : Accounts low high session loose free)
    (hget : session.tables.get? slot = some table) (howned : table.owned = true)
    (hname : session.frameNamed? name = some frame) (page : VirtPage) (flags : Flags) :
    (∃ entry, PageTable.mappedFrom session.kernel.machine.memory page PageTable.rootHeight table.root =
        some entry ∧
      (step (.table slot (.map page name flags))).run session = .error (.fault (.alreadyMapped page))
        (session.withTable slot ⟨⟨session.kernel.machine.memory,
          session.kernel.machine.log ++ (Fault.alreadyMapped page).lines⟩, session.kernel.pool⟩
          table)) ∨
    PageTable.mappedFrom session.kernel.machine.memory page PageTable.rootHeight table.root = none ∧
      ∃ fresh rest kernel', free = fresh ++ rest ∧ kernel'.Offers low high rest ∧
        kernel'.machine.log = session.kernel.machine.log ∧
        (((step (.table slot (.map page name flags))).run session =
              .ok (.count (table.nodes + fresh.length)) (session.withTable slot kernel'
                { table with nodes := table.nodes + fresh.length }) ∧
            fresh.length = PageTable.missingFrom session.kernel.machine.memory page
              PageTable.rootHeight table.root ∧
            PageTable.Remapped session.kernel.machine.memory kernel'.machine.memory table.root fresh
              page (some (.leaf frame flags)) ∧
            ∃ built found, PageTable.Paved page session.kernel.machine.memory built
                PageTable.rootHeight table.root fresh ∧
              PageTable.slotFrom built page PageTable.rootHeight table.root = some found ∧
              kernel'.machine.memory = built.setEntry found (.leaf frame flags)) ∨
          (rest = [] ∧
            fresh.length < PageTable.missingFrom session.kernel.machine.memory page
              PageTable.rootHeight table.root ∧
            (step (.table slot (.map page name flags))).run session =
              .error (.fault .noFrameForNode) (session.withTable slot kernel'
                { table with nodes := table.nodes + fresh.length }) ∧
            PageTable.Paved page session.kernel.machine.memory kernel'.machine.memory
              PageTable.rootHeight table.root fresh)) := by
  have hstanding := h.standing hget howned
  cases hmapped : PageTable.mappedFrom session.kernel.machine.memory page PageTable.rootHeight
      table.root with
  | some entry =>
      exact Or.inl ⟨entry, rfl,
        step_map_of_error hname hget (PageTable.run_map_of_mapped hstanding hmapped)⟩
  | none =>
      obtain ⟨fresh, rest, kernel', rfl, hoffers, hlog, hcase⟩ :=
        PageTable.run_map_of_unmapped frame flags hstanding h.offers hmapped
      refine Or.inr ⟨rfl, fresh, rest, kernel', rfl, hoffers, hlog, ?_⟩
      rcases hcase with ⟨hrun, hlength, hremapped, hfound⟩ | ⟨hrest, hlength, hrun, hpaved⟩
      · exact Or.inl ⟨step_map_of_ok hname hget hrun, hlength, hremapped, hfound⟩
      · exact Or.inr ⟨hrest, hlength, step_map_of_error hname hget hrun, hpaved⟩

-- A page is mapped that was not.
theorem sound_map (h : Accounts low high session loose free) :
    Sound low high loose session (.table slot (.map page name flags)) := by
  have hframe := run_frameNamed session name
  cases hname : session.frameNamed? name with
  | none =>
      rw [hname, run_required_none] at hframe
      exact .of_error (Action.run_bind_error hframe) id
  | some frame =>
      rw [hname, run_required_some] at hframe
      cases hget : session.tables.get? slot with
      | none =>
          exact .of_error ((Action.run_bind_ok hframe).trans
            (Action.run_bind_error (Action.run_bind_error (run_table_none hget)))) id
      | some table =>
          by_cases howned : table.owned = true
          · rcases h.step_map_cases hget howned hname page flags with ⟨entry, -, hstep⟩ |
              ⟨-, fresh, rest, kernel', rfl, hoffers, -, ⟨hstep, -, hremapped, -⟩ | ⟨-, -, hstep, -⟩⟩
            · exact .of_error hstep id
            · refine .of_ok _ _ hstep
                (h.carriesRemapped fresh (h.remapped_withTable hget howned hoffers hremapped)
                  ⟨_, rfl⟩ hget howned (Slots.erase_set _ _ _) (Slots.get?_set_same _ _ _) hremapped
                  rfl ?_ ?_)
              · intro record _
                rw [Event.recordAfter_map, if_pos ⟨rfl, rfl⟩, hname]
                rfl
              · exact fun record other otherPage hne => if_neg hne
            · exact .of_error hstep id
          · rw [Bool.not_eq_true] at howned
            exact .of_error (step_map_of_error hname hget (PageTable.run_map_of_view howned)) id

-- The owner of the nodes unmaps a page.
theorem sound_unmap_of_owned (h : Accounts low high session loose free)
    (hget : session.tables.get? slot = some table) (howned : table.owned = true) :
    Sound low high loose session (.table slot (.unmap page)) := by
  have htable := run_table_some hget
  have hstanding := h.standing hget howned
  cases hmapped : PageTable.mappedFrom session.kernel.machine.memory page PageTable.rootHeight
      table.root with
  | none =>
      have hunmap := run_onMachine_error (PageTable.run_unmap_of_unmapped hstanding hmapped)
      exact .of_error ((Action.run_bind_ok htable).trans (Action.run_bind_error hunmap)) id
  | some entry =>
      obtain ⟨machine', hrun, -, hremapped⟩ := PageTable.run_unmap_of_mapped hstanding hmapped
      let after : Session := { session with kernel := ⟨machine', session.kernel.pool⟩ }
      have hunmap : (onMachine (table.unmap page)).run session = .ok () after :=
        run_onMachine_ok hrun
      have hoffers : after.kernel.Offers low high free :=
        h.offers.congr rfl hremapped.frames fun frame hmem =>
          hremapped.spared frame List.not_mem_nil (hstanding.apart frame hmem)
      refine .of_ok _ after ((Action.run_bind_ok htable).trans
        ((Action.run_bind_ok hunmap).trans (Action.run_bind_ok (run_table_some hget))))
        (h.carriesRemapped []
          (h.remapped [] hget howned rfl rfl h.tableSlots hget hoffers hremapped) ⟨_, rfl⟩ hget howned
          rfl hget hremapped rfl ?_ ?_)
      · intro record _
        rw [Event.recordAfter_unmap, if_pos ⟨rfl, rfl⟩, Option.map_none]
      · exact fun record other otherPage hne => if_neg hne

theorem sound_unmap (h : Accounts low high session loose free)
    (hspared : ∀ table found, session.tables.get? slot = some table → table.owned = false →
      table.find? page session.kernel.machine.memory = .ok (some found) →
      (session.kernel.machine.memory.entry found).isValid = true → ¬session.ReliesOn found) :
    Sound low high loose session (.table slot (.unmap page)) := by
  cases hget : session.tables.get? slot with
  | none => exact .of_error (Action.run_bind_error (run_table_none hget)) id
  | some table =>
      by_cases howned : table.owned = true
      · exact h.sound_unmap_of_owned hget howned
      · rw [Bool.not_eq_true] at howned
        exact h.sound_unmap_of_view hget howned fun found => hspared table found hget howned

-- A table moves to an empty slot, and leaves a view behind.
theorem sound_move (h : Accounts low high session loose free)
    (hempty : session.tables.get? target = none) :
    Sound low high loose session (.table slot (.move target)) := by
  cases hget : session.tables.get? slot with
  | none => exact .of_error (Action.run_bind_error (run_table_none hget)) id
  | some table =>
      have hne : target ≠ slot := fun heq => by rw [heq, hget] at hempty; cases hempty
      let tables := (session.tables.set slot table.disowned).set target table
      have htotal : tables.total (PageTable.holds session.kernel.machine.memory) =
          table.holds session.kernel.machine.memory ++
            (session.tables.erase slot).total (PageTable.holds session.kernel.machine.memory) :=
        Slots.total_move hne hempty (PageTable.holds_disowned _ table)
      have hlookup : ∀ other found, tables.get? other = some found → found.owned = true →
          other = target ∧ found = table ∨
            other ≠ target ∧ session.tables.get? other = some found := by
        intro other found hfound howned
        by_cases hother : other = target
        · rw [hother, Slots.get?_set_same, Option.some_inj] at hfound
          exact Or.inl ⟨hother, hfound.symm⟩
        · rw [Slots.get?_set_other _ _ _ _ hother] at hfound
          by_cases hslot : other = slot
          · rw [hslot, Slots.get?_set_same, Option.some_inj] at hfound
            rw [← hfound] at howned
            cases howned
          · rw [Slots.get?_set_other _ _ _ _ hslot] at hfound
            exact Or.inr ⟨hother, hfound⟩
      refine .of_ok (.count table.nodes) { session with tables }
        (Action.run_bind_ok (run_table_some hget)) ⟨free, ⟨h.offers, ?_, h.frameSlots,
          (h.tableSlots.set _ _).set _ _, ?_⟩, fun _ record hagrees => ?_,
          ⟨fun _ _ _ _ _ => rfl, fun _ _ _ _ _ _ _ => rfl⟩⟩
      · have hnodes := h.nodes_perm slot
        rw [hget, Option.elim_some, ← htotal] at hnodes
        exact (hnodes.symm.append_left _).trans h.shared
      · intro other found hfound howned
        rcases hlookup other found hfound howned with ⟨-, rfl⟩ | ⟨-, hfound⟩
        · exact h.counted slot found hget howned
        · exact h.counted other found hfound howned
      · intro other found hfound howned page
        rw [Event.recordAfter_move]
        rcases hlookup other found hfound howned with ⟨hother, rfl⟩ | ⟨hother, hfound⟩
        · rw [if_pos hother]
          exact hagrees slot found hget howned page
        · rw [if_neg hother]
          exact hagrees other found hfound howned page

end Accounts

end Session

end PagedMemory
