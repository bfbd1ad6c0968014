import PagedMemory.Proofs.Keeps
import PagedMemory.Proofs.Session.Ownership
import PagedMemory.Proofs.Session.Ranges
import PagedMemory.Proofs.Table.Walk

namespace PagedMemory.Session

variable {session after : Session} {slot : Nat} {command : Command} {reply : Reply} {stop : Stop}
  {table view : PageTable} {page : VirtPage} {name : FrameName} {flags : Flags} {frame : PhysPage}

-- Contents of memory are compared here and never computed.
attribute [local irreducible] Memory.entry Memory.setEntry

-- What a command shows and leaves behind, read off its run.

theorem result_of_ok (hrun : (step command).run session = .ok reply after) :
    (perform command session).1.result = .ok reply := by
  rw [EStateM.run] at hrun
  simp only [perform, hrun]

theorem result_of_error (hrun : (step command).run session = .error stop after) :
    (perform command session).1.result = .error stop := by
  rw [EStateM.run] at hrun
  simp only [perform, hrun]

theorem untouched_perform_iff : session.Untouched (perform command session).2 ↔
    session.Untouched ((step command).left session) := by
  simp only [Untouched, perform, Action.left, EStateM.run]
  cases step command session <;> exact Iff.rfl

-- Commands that only look, and those that only put objects where others are.

theorem keeps_table (slot : Nat) : Keeps Untouched (Session.table slot) :=
  .bind untouched_trans untouched_refl fun session => keeps_required (session.tables.get? slot)

theorem keeps_tokenNamed (space : SpaceName) : Keeps Untouched (tokenNamed space) := by
  cases space with
  | token token => exact .pure untouched_refl token
  | tableIn slot => exact (keeps_table slot).bind untouched_trans fun _ => .pure untouched_refl _

theorem keeps_asks {α : Type} (slot : Nat) (question : PageTable → Memory → Except Fault (Option α))
    {next : Option α → Action Session Reply} (hnext : ∀ answer?, Keeps Untouched (next answer?)) :
    Keeps Untouched (do
      let answer? ← onMachine (Machine.inspect (question (← Session.table slot)))
      next answer?) :=
  (keeps_table slot).bind untouched_trans fun _ =>
    (keeps_onMachine (Machine.keeps_inspect _)).bind untouched_trans hnext

theorem keeps_translate : Keeps Untouched (step (.table slot (.translate page))) := by
  refine keeps_asks slot (PageTable.translate? · page) fun entry? => ?_
  cases entry? <;> exact .pure untouched_refl _

theorem keeps_translateAddr (address : VirtAddr) :
    Keeps Untouched (step (.table slot (.translateAddr address))) := by
  refine keeps_asks slot (PageTable.translateAddr? · address) fun address? => ?_
  cases address? <;> exact .pure untouched_refl _

theorem keeps_find : Keeps Untouched (step (.table slot (.find page))) := by
  refine keeps_asks slot (PageTable.find? · page) fun found? => ?_
  cases found? with
  | none => exact .pure untouched_refl _
  | some found =>
      exact (keeps_onMachine (Machine.keeps_inspect _)).bind untouched_trans fun _ =>
        .pure untouched_refl _

theorem keeps_view (space : SpaceName) : Keeps Untouched (step (.table slot (.view space))) :=
  (keeps_tokenNamed space).bind untouched_trans fun _ _ => ⟨rfl, rfl⟩

theorem keeps_move (target : Nat) : Keeps Untouched (step (.table slot (.move target))) :=
  (keeps_table slot).bind untouched_trans fun _ _ => ⟨rfl, rfl⟩

theorem keeps_describe : Keeps Untouched (step (.table slot .describe)) :=
  (keeps_table slot).bind untouched_trans fun _ => .pure untouched_refl _

-- Whoever unmaps a page that is not mapped is stopped before anything is written.
theorem step_unmap_of_not_maps (hget : session.tables.get? slot = some table)
    (hnot : ¬table.Maps session.kernel.machine.memory page) :
    ∃ stop after, (step (.table slot (.unmap page))).run session = .error stop after ∧
      session.Untouched after := by
  rw [PageTable.maps_iff_found] at hnot
  rcases PageTable.run_unmap_cases table page session.kernel.machine with
    ⟨found, hfind, hvalid, -⟩ | ⟨-, stop, machine', herror, hmemory⟩
  · exact (hnot ⟨found, hfind, hvalid⟩).elim
  · exact ⟨stop, _, step_unmap_of_error hget herror, hmemory, rfl⟩

-- A leaf that was valid is not the same when it is cleared.
theorem not_untouched_cleared {found : EntrySlot}
    (hwindow : found.node.number < session.kernel.machine.memory.frames)
    (hvalid : (session.kernel.machine.memory.entry found).isValid = true) :
    ¬session.Untouched (session.cleared found) := by
  rintro ⟨hmemory, -⟩
  rw [memory_cleared] at hmemory
  rw [← hmemory, Memory.entry_setEntry_same _ hwindow, Entry.isValid_empty] at hvalid
  cases hvalid

-- Whoever unmaps a page writes to memory if the page is mapped, and only then.
theorem untouched_unmap_iff (hget : session.tables.get? slot = some table) :
    session.Untouched ((step (.table slot (.unmap page))).left session) ↔
      ¬table.Maps session.kernel.machine.memory page := by
  by_cases hmaps : table.Maps session.kernel.machine.memory page
  · obtain ⟨found, hfind, hvalid⟩ := PageTable.maps_iff_found.mp hmaps
    rw [Action.left_of_ok (step_unmap_of_found hget hfind hvalid)]
    have hwritten := not_untouched_cleared (PageTable.findFrom_window hfind) hvalid
    exact ⟨fun huntouched => (hwritten huntouched).elim, fun hnot => (hnot hmaps).elim⟩
  · obtain ⟨stop, after, hrun, huntouched⟩ := step_unmap_of_not_maps hget hmaps
    rw [Action.left_of_error hrun]
    exact ⟨fun _ => hmaps, fun _ => huntouched⟩

-- Nothing is made or mapped through a view.

theorem run_findOrBuild_of_view (hget : session.tables.get? slot = some view)
    (hview : view.owned = false) :
    (onTable slot (PageTable.findOrBuild page)).run session =
      .error (.fault .notOwned) { session with tables := session.tables.set slot view } := by
  rw [run_onTable_some _ hget, PageTable.run_findOrBuild_of_view hview]

theorem step_findOrBuild_of_view (hget : session.tables.get? slot = some view)
    (hview : view.owned = false) :
    (step (.table slot (.findOrBuild page))).run session =
      .error (.fault .notOwned) { session with tables := session.tables.set slot view } :=
  Action.run_bind_error (run_findOrBuild_of_view hget hview)

theorem step_poke_of_view (hget : session.tables.get? slot = some view)
    (hview : view.owned = false) (entry : Entry) :
    (step (.table slot (.poke page entry))).run session =
      .error (.fault .notOwned) { session with tables := session.tables.set slot view } :=
  Action.run_bind_error (run_findOrBuild_of_view hget hview)

theorem step_map_of_view (hget : session.tables.get? slot = some view)
    (hview : view.owned = false) (hname : session.frameNamed? name = some frame) :
    (step (.table slot (.map page name flags))).run session =
      .error (.fault .notOwned) { session with tables := session.tables.set slot view } :=
  step_map_of_error hname hget (PageTable.run_map_of_view hview)

-- The name of a frame may also stand for none.
theorem untouched_map_of_view (hget : session.tables.get? slot = some view)
    (hview : view.owned = false) :
    session.Untouched ((step (.table slot (.map page name flags))).left session) := by
  cases hname : session.frameNamed? name with
  | some frame =>
      rw [Action.left_of_error (step_map_of_view hget hview hname)]
      exact untouched_refl session
  | none =>
      have hframe := run_frameNamed session name
      rw [hname, run_required_none] at hframe
      have hrun : (step (.table slot (.map page name flags))).run session =
          .error .absent session := Action.run_bind_error hframe
      rw [Action.left_of_error hrun]
      exact untouched_refl session

theorem untouched_of_view {command : TableCommand} (hget : session.tables.get? slot = some view)
    (hview : view.owned = false) (hcreate : command ≠ .create)
    (hunmap : ∀ page, command ≠ .unmap page) :
    session.Untouched ((step (.table slot command)).left session) := by
  cases command with
  | create => exact (hcreate rfl).elim
  | view space => exact keeps_view space session
  | drop =>
      rw [Action.left_of_ok (Accounts.step_drop_of_view hget hview)]
      exact untouched_refl session
  | move target => exact keeps_move target session
  | describe => exact keeps_describe session
  | map page name flags => exact untouched_map_of_view hget hview
  | unmap page => exact (hunmap page rfl).elim
  | translate page => exact keeps_translate session
  | translateAddr address => exact keeps_translateAddr address session
  | find page => exact keeps_find session
  | findOrBuild page =>
      rw [Action.left_of_error (step_findOrBuild_of_view hget hview)]
      exact untouched_refl session
  | poke page entry =>
      rw [Action.left_of_error (step_poke_of_view hget hview entry)]
      exact untouched_refl session

-- A table that does not own its nodes, whether it was made of a register value or left behind by a
-- move. What is done through it, or with its register value, changes no byte of memory and nothing in
-- the pool, except that a mapped page may be unmapped, which clears its leaf. To find a slot and make
-- nodes for it, or to map a page, stops before anything is written. Unmapping asks for no owner.
theorem view_writes_only_by_unmap (hget : session.tables.get? slot = some view)
    (hview : view.owned = false) :
    (∀ command, command ≠ .create →
      (session.Untouched (perform (.table slot command) session).2 ↔
        ∀ page, command = .unmap page → ¬view.Maps session.kernel.machine.memory page)) ∧
    (∀ other, session.Untouched (perform (.table other (.view (.tableIn slot))) session).2) ∧
    (∀ page, (perform (.table slot (.findOrBuild page)) session).1.result =
      .error (.fault .notOwned)) ∧
    (∀ page entry, (perform (.table slot (.poke page entry)) session).1.result =
      .error (.fault .notOwned)) ∧
    (∀ page name flags frame, session.frameNamed? name = some frame →
      (perform (.table slot (.map page name flags)) session).1.result =
        .error (.fault .notOwned)) ∧
    (∀ page, view.Maps session.kernel.machine.memory page →
      ∃ found, view.find? page session.kernel.machine.memory = .ok (some found) ∧
        (perform (.table slot (.unmap page)) session).1.result = .ok (.count view.nodes) ∧
        (perform (.table slot (.unmap page)) session).2.kernel.machine.memory =
          session.kernel.machine.memory.setEntry found .empty) ∧
    ∀ page, ¬view.Maps session.kernel.machine.memory page →
      ∃ stop, (perform (.table slot (.unmap page)) session).1.result = .error stop := by
  refine ⟨fun command hcreate => ?_, fun other => ?_, fun page => ?_, fun page entry => ?_,
    fun page name flags frame hname => ?_, fun page hmaps => ?_, fun page hnot => ?_⟩
  · rw [untouched_perform_iff]
    by_cases hunmap : ∃ page, command = .unmap page
    · obtain ⟨page, rfl⟩ := hunmap
      rw [untouched_unmap_iff hget]
      refine ⟨fun hnot other heq => ?_, fun hnot => hnot page rfl⟩
      cases heq
      exact hnot
    · have huntouched := untouched_of_view hget hview hcreate fun page heq => hunmap ⟨page, heq⟩
      exact ⟨fun _ page heq => (hunmap ⟨page, heq⟩).elim, fun _ => huntouched⟩
  · exact untouched_perform_iff.mpr (keeps_view (.tableIn slot) session)
  · exact result_of_error (step_findOrBuild_of_view hget hview)
  · exact result_of_error (step_poke_of_view hget hview entry)
  · exact result_of_error (step_map_of_view hget hview hname)
  · obtain ⟨found, hfind, hvalid⟩ := PageTable.maps_iff_found.mp hmaps
    have hrun := step_unmap_of_found hget hfind hvalid
    refine ⟨found, hfind, result_of_ok hrun, ?_⟩
    rw [EStateM.run] at hrun
    simp only [perform, hrun, memory_cleared]
  · obtain ⟨stop, after, hrun, -⟩ := step_unmap_of_not_maps hget hnot
    exact ⟨stop, result_of_error hrun⟩

-- A view of a table that maps one page.
theorem Run.exists_view_of_one_page (page : VirtPage) : ∃ session history token,
    Run 1 8 session history ∧
    history.map Event.command = [.table 1 (.view (.token token)),
      .table 0 (.map page (.page (.ofNat 7)) ⟨2⟩), .table 0 .create] ∧
    session.tables.get? 1 = some (.ofToken token) ∧
    ∀ other, (PageTable.ofToken token).Maps session.kernel.machine.memory other ↔
      other = page := by
  obtain ⟨session, history, table, hrun, hcommands, hothers, -, -, hmaps⟩ :=
    exists_only_one_page page
  refine ⟨_, _, table.token, hrun.view (hothers 1 (by decide)) table.token, ?_,
    Slots.get?_set_same _ _ _, fun other => ?_⟩
  · rw [List.map_cons, hcommands]
  · exact (PageTable.maps_ofToken_token table _ other).trans (hmaps other)

-- Through the view the page is unmapped, and memory is not what it was.
theorem view_unmaps_page : ∃ session history token reply, Run 1 8 session history ∧
    history.map Event.command = [.table 1 (.view (.token token)),
      .table 0 (.map (.ofNat 5) (.page (.ofNat 7)) ⟨2⟩), .table 0 .create] ∧
    session.tables.get? 1 = some (.ofToken token) ∧
    (perform (.table 1 (.unmap (.ofNat 5))) session).1.result = .ok reply ∧
    ¬session.Untouched (perform (.table 1 (.unmap (.ofNat 5))) session).2 := by
  obtain ⟨session, history, token, hrun, hcommands, hget, hmaps⟩ :=
    Run.exists_view_of_one_page (.ofNat 5)
  have hmapped := (hmaps (.ofNat 5)).mpr rfl
  obtain ⟨found, hfind, hvalid⟩ := PageTable.maps_iff_found.mp hmapped
  refine ⟨session, history, token, _, hrun, hcommands, hget,
    result_of_ok (step_unmap_of_found hget hfind hvalid), ?_⟩
  rw [untouched_perform_iff, untouched_unmap_iff hget]
  exact fun hnot => hnot hmapped

-- In the same session nothing is mapped through the view, and a page that is not mapped is not unmapped
-- through it.
theorem view_writes_only_by_unmap_of_one_page : ∃ session history token,
    Run 1 8 session history ∧ session.tables.get? 1 = some (.ofToken token) ∧
    session.Untouched (perform (.table 1 (.unmap (.ofNat 6))) session).2 ∧
    (∃ stop, (perform (.table 1 (.unmap (.ofNat 6))) session).1.result = .error stop) ∧
    session.Untouched (perform (.table 1 (.map (.ofNat 6) (.page (.ofNat 7)) ⟨2⟩)) session).2 ∧
    (perform (.table 1 (.map (.ofNat 6) (.page (.ofNat 7)) ⟨2⟩)) session).1.result =
      .error (.fault .notOwned) ∧
    ¬session.Untouched (perform (.table 1 (.unmap (.ofNat 5))) session).2 := by
  obtain ⟨session, history, token, hrun, -, hget, hmaps⟩ := Run.exists_view_of_one_page (.ofNat 5)
  obtain ⟨huntouched, -, -, -, hmap, -, hunmap⟩ := view_writes_only_by_unmap hget rfl
  have hnot : ¬(PageTable.ofToken token).Maps session.kernel.machine.memory (.ofNat 6) := by
    rw [hmaps]
    decide
  refine ⟨session, history, token, hrun, hget, ?_, hunmap _ hnot, ?_, hmap _ _ _ _ rfl, ?_⟩
  · refine (huntouched (.unmap (.ofNat 6)) (by simp)).mpr fun page heq => ?_
    cases heq
    exact hnot
  · exact (huntouched _ (by simp)).mpr fun page heq => by cases heq
  · rw [huntouched (.unmap (.ofNat 5)) (by simp)]
    exact fun hunmapped => hunmapped _ rfl ((hmaps (.ofNat 5)).mpr rfl)

end PagedMemory.Session
