import PagedMemory.Proofs.Frame.Links
import PagedMemory.Proofs.Session.Progress

namespace PagedMemory.Session

variable {session : Session} {low high slot : Nat} {loose free : List PhysPage}
  {history : List Event} {table : PageTable} {page : VirtPage} {found : EntrySlot}

-- Contents of memory are compared here and never computed.
attribute [local irreducible] Memory.entry Memory.frame Memory.setEntry

-- Each frame of the range is in one of four places: free, with an owner, outside, or a node of an
-- owning table.
def OneOwner (low high : Nat) (session : Session) (loose : List PhysPage) : Prop :=
  ∃ free, session.kernel.Offers low high free ∧
    (free ++ session.heldFrames ++ loose ++ session.nodeFrames).Perm (PhysPage.upTo low high)

-- The nodes of all owning tables, by their own count.
def nodeCount (session : Session) : Nat :=
  session.tables.count fun table => if table.owned then table.nodes else 0

namespace Accounts

theorem oneOwner (h : Accounts low high session loose free) : session.OneOwner low high loose :=
  ⟨free, h.offers, h.shared⟩

theorem nodeCount_eq (h : Accounts low high session loose free) :
    session.nodeCount = session.nodeFrames.length := by
  refine (Slots.length_total fun entry hmem => ?_).symm
  obtain ⟨slot, table⟩ := entry
  simp only [PageTable.holds]
  split
  · rename_i howned
    exact (h.counted slot table (Slots.get?_of_entry_mem h.tableSlots hmem) howned).symm
  · rfl

-- A word in a node that points at nodes: with it the nodes behind it are lost, and nobody has them.
theorem nodes_lost (h : Accounts low high session loose free)
    (hinterior : found.node ∈ session.interiorFrames)
    (hvalid : (session.kernel.machine.memory.entry found).isValid = true) :
    (session.cleared found).nodeFrames.length < session.nodeFrames.length := by
  obtain ⟨⟨slot, table⟩, hentry, hmem⟩ := Slots.mem_total.mp hinterior
  have hget := Slots.get?_of_entry_mem h.tableSlots hentry
  have howned : table.owned = true := by
    by_contra hview
    rw [PageTable.interior, if_neg hview] at hmem
    cases hmem
  rw [PageTable.interior, if_pos howned] at hmem
  have hstanding := h.standing hget howned
  have hin := PageTable.interiorFrom_subset hmem
  obtain ⟨lost, hlost, hperm⟩ :=
    PageTable.exists_lost hstanding.nodup (hstanding.window _ hin) hmem hvalid
  -- The trees of all other tables are spared.
  have hothers : (session.tables.erase slot).total
      (PageTable.holds (session.cleared found).kernel.machine.memory) =
        (session.tables.erase slot).total (PageTable.holds session.kernel.machine.memory) := by
    refine Slots.total_congr fun entry hother => PageTable.holds_congr fun frame hframe => ?_
    refine Memory.frame_setEntry_other fun heq => ?_
    refine h.other_apart (Slots.mem_total.mpr ⟨entry, hother, PageTable.interior_subset hframe⟩) ?_
    rw [hget, Option.elim_some, PageTable.holds_of_owned howned, heq]
    exact hin
  have hold := (h.nodes_perm slot).length_eq
  have hnew := (Slots.total_perm (f := PageTable.holds (session.cleared found).kernel.machine.memory)
    slot h.tableSlots hget).length_eq
  rw [hget] at hold
  rw [hothers] at hnew
  simp only [Option.elim_some, PageTable.holds_of_owned howned, List.length_append,
    hperm.length_eq] at hold hnew
  have hpos := List.length_pos_iff.mpr hlost
  change (session.cleared found).nodeFrames.length = _ at hnew
  change session.nodeFrames.length = _ at hold
  rw [memory_cleared] at hnew
  omega

-- The link of a free frame: with it the frames below it on the stack are lost.
theorem link_spared (h : Accounts low high session loose free)
    (howner : (session.cleared found).OneOwner low high loose)
    (hlink : found.index.val = 0) (hmem : found.node ∈ session.kernel.linkFrames) :
    (session.kernel.machine.memory.entry found).isValid = false := by
  obtain ⟨free', hoffers', hshared'⟩ := howner
  have hfree := h.offers.mem_of_linkFrames hmem
  have hfound : EntrySlot.first found.node = found := by
    obtain ⟨node, index⟩ := found
    exact congrArg (EntrySlot.mk node) (Fin.ext hlink.symm)
  have hnodes : (session.cleared found).nodeFrames = session.nodeFrames := by
    refine Slots.total_congr fun entry hentry => PageTable.holds_congr fun frame hframe => ?_
    refine Memory.frame_setEntry_other fun heq => ?_
    have hnode := Slots.mem_total.mpr ⟨entry, hentry, PageTable.interior_subset hframe⟩
    exact (h.node_apart (heq ▸ hnode)).1 hfree
  have hperm : free'.Perm free := by
    rw [hnodes, heldFrames_cleared] at hshared'
    have hboth := hshared'.trans h.shared.symm
    rwa [List.perm_append_right_iff, List.perm_append_right_iff, List.perm_append_right_iff]
      at hboth
  have hword := h.offers.link_determined hoffers' rfl hperm hmem fun other hne => by
    refine Memory.word_base_setEntry_other fun heq => hne ?_
    exact congrArg EntrySlot.node heq
  have hentry : ∀ memory : Memory, memory.entry found = ⟨memory.word found.node.base⟩ := by
    intro memory
    rw [← Memory.entry_first, hfound]
  rw [hentry, ← hword, ← hentry, memory_cleared,
    Memory.entry_setEntry_same _ (h.offers.lt_frames hfree)]
  rfl

-- A valid word may be cleared if, and only if, neither the trees nor the pool rely on it.
theorem oneOwner_cleared_iff (h : Accounts low high session loose free)
    (hvalid : (session.kernel.machine.memory.entry found).isValid = true) :
    (session.cleared found).OneOwner low high loose ↔ ¬session.ReliesOn found := by
  refine ⟨fun howner hrelies => ?_, fun hnot => (h.cleared hnot).oneOwner⟩
  rcases hrelies with ⟨hlink, hmem⟩ | hinterior
  · have hempty := h.link_spared howner hlink hmem
    rw [hvalid] at hempty
    cases hempty
  · obtain ⟨free', hoffers', hshared'⟩ := howner
    have hlost := h.nodes_lost hinterior hvalid
    have hframe : ∀ frame ∈ free, (session.cleared found).kernel.machine.memory.frame frame =
        session.kernel.machine.memory.frame frame := fun frame hmem =>
      Memory.frame_setEntry_other fun heq =>
        (h.node_apart (interiorFrames_subset hinterior)).1 (heq ▸ hmem)
    have hoffers : (session.cleared found).kernel.Offers low high free :=
      h.offers.congr rfl (Memory.frames_setEntry _ _ _) hframe
    have hfree := hoffers.unique hoffers'
    have hlength := (hshared'.trans h.shared.symm).length_eq
    simp only [hfree, heldFrames_cleared, List.length_append] at hlength
    omega

end Accounts

-- A view may be made of any register value.
theorem Run.view (hrun : Run low high session history) (hempty : session.tables.get? slot = none)
    (token : UInt64) :
    Run low high { session with tables := session.tables.set slot (.ofToken token) }
      (⟨session, .table slot (.view (.token token)), .page (PageTable.ofToken token).root⟩ ::
        history) :=
  hrun.step hempty rfl

namespace Run

-- Each frame has one owner in every session, all frames are accounted for, and the pool never finds
-- a frame it did not expect. Unmapping a page breaks this at once if the cleared word is one that
-- others rely on, and in no other case.
theorem frames_have_one_owner (hrun : Run low high session history) :
    session.OneOwner low high (Event.loose history) ∧
    (∃ count, (Session.step (.shared .remaining)).run session = .ok (.count count) session ∧
      count + session.heldFrames.length + (Event.loose history).length + session.nodeCount =
        high - low) ∧
    (∀ command stop after, session.Permitted (Event.loose history) command →
      (Session.step command).run session = .error stop after → ¬stop.BlamesPool) ∧
    ∀ slot table page found reply after, session.tables.get? slot = some table →
      table.find? page session.kernel.machine.memory = .ok (some found) →
      (Session.step (.table slot (.unmap page))).run session = .ok reply after →
      (after.OneOwner low high (Event.loose history) ↔ ¬session.ReliesOn found) := by
  obtain ⟨free, haccounts, -⟩ := hrun.invariant
  refine ⟨haccounts.oneOwner, ⟨_, haccounts.step_remaining, ?_⟩, ?_, ?_⟩
  · rw [haccounts.nodeCount_eq]
    exact haccounts.free_length
  · intro command stop after hpermitted hstep
    have hsound := haccounts.sound hpermitted
    rwa [Sound, hstep] at hsound
  · intro slot table page found reply after hget hfind hstep
    rcases step_unmap_cases page hget with
      ⟨found', hfind', hvalid, hclear⟩ | ⟨stop, _, hstop, -⟩
    · have hfound := hfind.symm.trans hfind'
      cases hfound
      have hafter := hstep.symm.trans hclear
      cases hafter
      exact haccounts.oneOwner_cleared_iff hvalid
    · have habsurd := hstep.symm.trans hstop
      cases habsurd

-- A view in the middle of a table, made of a register value as any other. Page zero is mapped to the
-- root, and through the view the root's own entry is its leaf.
theorem exists_relied_found : ∃ session history view found token root, Run 1 8 session history ∧
    history.map Event.command = [.table 1 (.view (.token token)),
      .table 0 (.map (.ofNat 0) (.page root) ⟨0⟩), .table 0 .create] ∧
    session.tables.get? 1 = some view ∧ view.owned = false ∧
    view.find? (.ofNat 0) session.kernel.machine.memory = .ok (some found) ∧
    (session.kernel.machine.memory.entry found).isValid = true ∧ session.ReliesOn found := by
  obtain ⟨empty, created, session, root, nodes, hrun, -, hget, hothers⟩ :=
    exists_mapped (.filled 1024 0xcd) 0x1000 0x8000 rfl rfl (by decide) (by decide) (.ofNat 0) id ⟨0⟩
  obtain ⟨free, haccounts, hagrees⟩ := hrun.invariant
  have hwindow := (haccounts.standing hget rfl).window
  have hmapped := hagrees (by simp [Event.ByOwner]) 0 _ hget rfl (.ofNat 0)
  rw [Event.record, Event.recordAfter_map, if_pos ⟨rfl, rfl⟩] at hmapped
  obtain ⟨inner, found, hfind, hnode, hvalid⟩ := PageTable.exists_inner_view hwindow hmapped
  let token := PageTable.token ⟨inner, true, 0⟩
  have hget' := Slots.get?_set_same session.tables 1 (.ofToken token)
  have htable : (session.tables.set 1 (.ofToken token)).get? 0 = some ⟨root, true, nodes⟩ := by
    rw [Slots.get?_set_other _ _ _ _ (by decide), hget]
  refine ⟨_, _, .ofToken token, found, token, root, hrun.view (hothers 1 (by decide)) token, rfl,
    hget', rfl, ?_, hvalid, Or.inr (Slots.mem_total_of_get? htable ?_)⟩
  · rw [PageTable.find?, PageTable.root_ofToken_token]
    exact hfind
  · rw [hnode]
    exact PageTable.mem_interiorFrom_succ.mpr (Or.inr rfl)

-- The frames behind that entry are lost when the page is unmapped through the view.
theorem frames_lost_through_view : ∃ session history view token root reply after,
    Run 1 8 session history ∧
    history.map Event.command = [.table 1 (.view (.token token)),
      .table 0 (.map (.ofNat 0) (.page root) ⟨0⟩), .table 0 .create] ∧
    session.tables.get? 1 = some view ∧ view.owned = false ∧
    (Session.step (.table 1 (.unmap (.ofNat 0)))).run session = .ok reply after ∧
    ¬after.OneOwner 1 8 (Event.loose history) := by
  obtain ⟨session, history, view, found, token, root, hrun, hcommands, hget, hview, hfind, hvalid,
    hrelies⟩ := exists_relied_found
  obtain ⟨free, haccounts, -⟩ := hrun.invariant
  refine ⟨session, history, view, token, root, _, _, hrun, hcommands, hget, hview,
    step_unmap_of_found hget hfind hvalid, fun howner => ?_⟩
  exact (haccounts.oneOwner_cleared_iff hvalid).mp howner hrelies

-- In the same session everything is in order before that, and nothing can be mapped through the view.
theorem frames_have_one_owner_before_view_unmaps : ∃ session history view found,
    Run 1 8 session history ∧ session.OneOwner 1 8 (Event.loose history) ∧
    (∃ count, (Session.step (.shared .remaining)).run session = .ok (.count count) session ∧
      count + session.heldFrames.length + (Event.loose history).length + session.nodeCount = 7) ∧
    session.tables.get? 1 = some view ∧ ¬(Stop.fault .notOwned).BlamesPool ∧
    ((session.cleared found).OneOwner 1 8 (Event.loose history) ↔ ¬session.ReliesOn found) := by
  obtain ⟨session, history, view, found, -, -, hrun, -, hget, hview, hfind, hvalid, -⟩ :=
    exists_relied_found
  obtain ⟨howner, hcount, hstops, hunmaps⟩ := frames_have_one_owner hrun
  have hname : session.frameNamed? (.page (.ofNat 7)) = some (.ofNat 7) := rfl
  exact ⟨session, history, view, found, hrun, howner, hcount, hget,
    hstops (.table 1 (.map (.ofNat 0) (.page (.ofNat 7)) ⟨2⟩)) _ _ trivial
      (step_map_of_error hname hget (PageTable.run_map_of_view hview)),
    hunmaps 1 view (.ofNat 0) found _ _ hget hfind (step_unmap_of_found hget hfind hvalid)⟩

end Run

end PagedMemory.Session
