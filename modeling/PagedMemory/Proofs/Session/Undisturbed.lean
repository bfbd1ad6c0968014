import PagedMemory.Proofs.Session.Ranges
import PagedMemory.Proofs.Table.Walk

namespace PagedMemory

namespace Event

variable {event : Event} {frame : PhysPage}

theorem ByOwner.not_clearsThroughView (h : event.ByOwner) : ¬event.ClearsThroughView frame := by
  rintro ⟨slot, page, table, found, hcommand, hget, hview, -⟩
  rw [ByOwner, hcommand] at h
  have howned := h table hget
  rw [hview] at howned
  cases howned

end Event

namespace Session

variable {session after : Session} {low high slot : Nat} {history : List Event} {command : Command}
  {reply : Reply} {frame : PhysPage}

-- Contents of memory are compared here and never computed.
attribute [local irreducible] Memory.entry Memory.frame Memory.setEntry Memory.fillFrame

-- A leaf that is cleared was valid before, so that its frame is not what it was.
theorem frame_ne_of_clearsThroughView
    (hclears : Event.ClearsThroughView ⟨session, command, reply⟩ frame)
    (hstep : (step command).run session = .ok reply after) :
    after.kernel.machine.memory.frame frame ≠ session.kernel.machine.memory.frame frame := by
  obtain ⟨slot, page, table, found, rfl, hget, -, hfind, rfl⟩ := hclears
  obtain ⟨found', hfind', hvalid, rfl⟩ := found_of_step_unmap hget hstep
  cases hfind.symm.trans hfind'
  refine Memory.frame_setEntry_ne (PageTable.findFrom_window hfind) fun hempty => ?_
  rw [hempty, Entry.isValid_empty] at hvalid
  cases hvalid

namespace Run

-- The last command may unmap any page through any table.
theorem undisturbed (hrun : Run low high session history)
    (hpermitted : (∀ slot page, command ≠ .table slot (.unmap page)) →
      session.Permitted (Event.loose history) command)
    (hstep : (Session.step command).run session = .ok reply after) :
    Undisturbed (Event.loose history) ⟨session, command, reply⟩ after := by
  by_cases hview : ∃ slot page table, command = .table slot (.unmap page) ∧
      session.tables.get? slot = some table ∧ table.owned = false
  · obtain ⟨slot, page, table, rfl, hget, hview⟩ := hview
    exact undisturbed_unmap_of_view hget hview hstep
  · have hpermitted : session.Permitted (Event.loose history) command := by
      by_cases hunmap : ∃ slot page, command = .table slot (.unmap page)
      · obtain ⟨slot, page, rfl⟩ := hunmap
        intro table found hget hnot
        exact (hview ⟨slot, page, table, rfl, hget, hnot⟩).elim
      · exact hpermitted fun slot page heq => hunmap ⟨slot, page, heq⟩
    obtain ⟨free, haccounts, -⟩ := hrun.invariant
    have hsound := haccounts.sound hpermitted
    rw [Sound, hstep] at hsound
    obtain ⟨-, -, -, hundisturbed⟩ := hsound
    exact hundisturbed

theorem frame_taken (hrun : Run low high session history)
    (hstep : (Session.step (.frame slot .take)).run session = .ok (.page frame) after) :
    after.kernel.machine.memory.frame frame = List.replicate 4096 0 := by
  obtain ⟨free, haccounts, -⟩ := hrun.invariant
  cases free with
  | nil => cases hstep.symm.trans (haccounts.step_frame_take_nil slot)
  | cons page rest =>
      obtain ⟨kernel', htake, hmemory, -⟩ := haccounts.step_frame_take_cons slot
      have hafter := hstep.symm.trans htake
      rw [EStateM.Result.ok.injEq, Reply.page.injEq] at hafter
      obtain ⟨rfl, rfl⟩ := hafter
      change kernel'.machine.memory.frame frame = _
      rw [hmemory]
      exact Memory.frame_fillFrame_same 0 (haccounts.offers.lt_frames List.mem_cons_self)

-- Frames that somebody was given and keeps, and the nodes of tables that are not named, stay as they
-- are, whatever is done with the pool, with frames and with tables. Only what is unmapped through a
-- table that does not own its nodes changes them: the frame of the leaf, and no other. A frame comes
-- from the pool filled with zeros.
theorem frames_undisturbed (hrun : Run low high session history)
    (hpermitted : (∀ slot page, command ≠ .table slot (.unmap page)) →
      session.Permitted (Event.loose history) command)
    (hstep : (Session.step command).run session = .ok reply after) :
    (¬command.IsAccess → ∀ frame,
      frame ∈ session.heldFrames ∨ frame ∈ Event.loose history →
      frame ∈ after.heldFrames ∨ frame ∈ Event.loose (⟨session, command, reply⟩ :: history) →
      (after.kernel.machine.memory.frame frame = session.kernel.machine.memory.frame frame ↔
        ¬Event.ClearsThroughView ⟨session, command, reply⟩ frame)) ∧
    (∀ slot table, session.tables.get? slot = some table →
      (∀ other, command ≠ .table slot other) →
      ∀ frame ∈ table.holds session.kernel.machine.memory,
        (after.kernel.machine.memory.frame frame = session.kernel.machine.memory.frame frame ↔
          ¬Event.ClearsThroughView ⟨session, command, reply⟩ frame)) ∧
    ∀ slot frame, command = .frame slot .take → reply = .page frame →
      after.kernel.machine.memory.frame frame = List.replicate 4096 0 := by
  have hundisturbed := hrun.undisturbed hpermitted hstep
  refine ⟨fun haccess frame hgiven hkept => ?_, fun slot table hget hother frame hmem => ?_,
    fun slot frame hcommand hreply => ?_⟩
  · refine ⟨fun hsame hclears => ?_, hundisturbed.given haccess frame hgiven hkept⟩
    exact frame_ne_of_clearsThroughView hclears hstep hsame
  · refine ⟨fun hsame hclears => ?_, hundisturbed.nodes slot table hget hother frame hmem⟩
    exact frame_ne_of_clearsThroughView hclears hstep hsame
  · subst hcommand hreply
    exact hrun.frame_taken hstep

-- A frame is taken from a new pool, and a table is made after that.
theorem exists_taken : ∃ session taken after frame root, Run 1 8 session [] ∧
    session.Permitted [] (.frame 0 .take) ∧
    (Session.step (.frame 0 .take)).run session = .ok (.page frame) taken ∧
    taken.Permitted [] (.table 0 .create) ∧
    (Session.step (.table 0 .create)).run taken = .ok (.page root) after ∧
    taken.heldFrames = [frame] ∧ after.heldFrames = [frame] := by
  obtain ⟨session, hrun, hframes, htables⟩ : ∃ session, Run 1 8 session [] ∧
      session.frames = {} ∧ session.tables = {} :=
    exists_start (.filled 1024 0xcd) 0x1000 0x8000 rfl rfl (by decide) (by decide)
  have hempty : session.Permitted [] (.frame 0 .take) := by
    rw [Permitted, hframes]
    rfl
  obtain ⟨free, haccounts, -⟩ := hrun.invariant
  have hcount := haccounts.free_length
  rw [heldFrames_of_empty hframes, nodeFrames_of_empty htables] at hcount
  simp only [Event.loose, List.length_nil] at hcount
  obtain ⟨frame, taken, htake, hframes', htables'⟩ := haccounts.step_frame_take 0 (by omega)
  have hempty' : taken.Permitted [] (.table 0 .create) := by
    rw [Permitted, htables', htables]
    rfl
  have hheld : taken.heldFrames = [frame] := by
    rw [heldFrames, hframes', Slots.total_set, hframes]
    rfl
  obtain ⟨free', haccounts', -⟩ := (hrun.step hempty htake).invariant
  have hcount' := haccounts'.free_length
  rw [hheld, nodeFrames_of_empty (htables'.trans htables)] at hcount'
  simp only [Event.loose, Event.looseAfter, List.length_nil, List.length_singleton] at hcount'
  obtain ⟨root, after, hcreate, hframes'', -⟩ := haccounts'.step_create 0 (by omega)
  refine ⟨session, taken, after, frame, root, hrun, hempty, htake, hempty', hcreate, hheld, ?_⟩
  rw [heldFrames, hframes'']
  exact hheld

-- The frame reads as zeros, and still does when the table is there.
theorem frames_undisturbed_by_new_table : ∃ session taken after frame root,
    Run 1 8 session [] ∧
    (Session.step (.frame 0 .take)).run session = .ok (.page frame) taken ∧
    (Session.step (.table 0 .create)).run taken = .ok (.page root) after ∧
    after.kernel.machine.memory.frame frame = List.replicate 4096 0 := by
  obtain ⟨session, taken, after, frame, root, hrun, hempty, htake, hempty', hcreate, hheld, hheld'⟩ :=
    exists_taken
  obtain ⟨-, -, hzero⟩ := frames_undisturbed hrun (fun _ => hempty) htake
  obtain ⟨hkept, -, -⟩ := frames_undisturbed (hrun.step hempty htake) (fun _ => hempty') hcreate
  have hgiven : frame ∈ taken.heldFrames := hheld ▸ List.mem_singleton_self frame
  have hstill : frame ∈ after.heldFrames := hheld' ▸ List.mem_singleton_self frame
  have hsame := (hkept id frame (Or.inl hgiven) (Or.inl hstill)).mpr
    (Event.ByOwner.not_clearsThroughView trivial)
  exact ⟨session, taken, after, frame, root, hrun, htake, hcreate,
    hsame.trans (hzero 0 frame rfl rfl)⟩

-- A table that maps a page moves, and the page is unmapped through what it left behind. The node with
-- the leaf is one of the table that moved.
theorem nodes_disturbed_through_moved : ∃ session history table frame reply after,
    Run 1 8 session history ∧
    history.map Event.command = [.table 0 (.move 1),
      .table 0 (.map (.ofNat 5) (.page (.ofNat 7)) ⟨2⟩), .table 0 .create] ∧
    session.tables.get? 1 = some table ∧ frame ∈ table.holds session.kernel.machine.memory ∧
    (Session.step (.table 0 (.unmap (.ofNat 5)))).run session = .ok reply after ∧
    after.kernel.machine.memory.frame frame ≠ session.kernel.machine.memory.frame frame := by
  obtain ⟨session, history, table, hrun, hcommands, hothers, hget, howned, hmaps⟩ :=
    exists_only_one_page (.ofNat 5)
  have hempty : session.Permitted (Event.loose history) (.table 0 (.move 1)) :=
    hothers 1 (by decide)
  obtain ⟨found, hfind, hvalid⟩ := PageTable.maps_iff_found.mp ((hmaps (.ofNat 5)).mpr rfl)
  let moved : Session :=
    { session with tables := (session.tables.set 0 table.disowned).set 1 table }
  have hmove : (Session.step (.table 0 (.move 1))).run session = .ok (.count table.nodes) moved :=
    Action.run_bind_ok (run_table_some hget)
  have hleft : moved.tables.get? 0 = some table.disowned := by
    rw [Slots.get?_set_other _ _ _ _ (by decide), Slots.get?_set_same]
  have hunmap := step_unmap_of_found hleft hfind hvalid
  have hclears : Event.ClearsThroughView
      ⟨moved, .table 0 (.unmap (.ofNat 5)), .count table.disowned.nodes⟩ found.node :=
    ⟨0, .ofNat 5, table.disowned, found, rfl, hleft, rfl, hfind, rfl⟩
  refine ⟨moved, _, table, found.node, _, _, hrun.step hempty hmove, ?_, Slots.get?_set_same _ _ _,
    ?_, hunmap, frame_ne_of_clearsThroughView hclears hunmap⟩
  · rw [List.map_cons, hcommands]
  · rw [PageTable.holds_of_owned howned]
    exact PageTable.walkFrom_subset (PageTable.findFrom_node_mem hfind)

end Run

end Session

end PagedMemory
