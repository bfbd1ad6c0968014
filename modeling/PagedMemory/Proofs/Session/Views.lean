import PagedMemory.Proofs.Session.Run
import PagedMemory.Proofs.Table.Cutting
import PagedMemory.Proofs.Table.Lookup

namespace PagedMemory.Session

variable {session after : Session} {low high slot : Nat} {loose free : List PhysPage}
  {table : PageTable} {page : VirtPage} {found : EntrySlot} {reply : Reply}

-- Contents of memory are compared here and never computed.
attribute [local irreducible] Memory.entry Memory.frame Memory.setEntry

-- What is left of a session when a word of a node is cleared.
def cleared (session : Session) (found : EntrySlot) : Session :=
  { session with kernel :=
      ⟨⟨session.kernel.machine.memory.setEntry found .empty, session.kernel.machine.log⟩,
        session.kernel.pool⟩ }

theorem memory_cleared : (session.cleared found).kernel.machine.memory =
    session.kernel.machine.memory.setEntry found .empty := rfl

theorem heldFrames_cleared : (session.cleared found).heldFrames = session.heldFrames := rfl

-- Whoever unmaps a page clears the leaf found through the table, if it is valid.

theorem run_unmap_of_found (hfind : table.find? page session.kernel.machine.memory = .ok (some found))
    (hvalid : (session.kernel.machine.memory.entry found).isValid = true) :
    (onMachine (table.unmap page)).run session = .ok () (session.cleared found) :=
  run_onMachine_ok (PageTable.run_unmap_of_slot hfind hvalid)

theorem step_unmap_of_found (hget : session.tables.get? slot = some table)
    (hfind : table.find? page session.kernel.machine.memory = .ok (some found))
    (hvalid : (session.kernel.machine.memory.entry found).isValid = true) :
    (step (.table slot (.unmap page))).run session =
      .ok (.count table.nodes) (session.cleared found) := by
  have hget' : (session.cleared found).tables.get? slot = some table := hget
  exact (Action.run_bind_ok (run_table_some hget)).trans
    ((Action.run_bind_ok (run_unmap_of_found hfind hvalid)).trans
      (Action.run_bind_ok (run_table_some hget')))

theorem step_unmap_of_error {machine' : Machine} {stop : Stop}
    (hget : session.tables.get? slot = some table)
    (herror : (table.unmap page).run session.kernel.machine = .error stop machine') :
    (step (.table slot (.unmap page))).run session =
      .error stop { session with kernel := ⟨machine', session.kernel.pool⟩ } :=
  (Action.run_bind_ok (run_table_some hget)).trans
    (Action.run_bind_error (run_onMachine_error herror))

theorem step_unmap_cases (page : VirtPage) (hget : session.tables.get? slot = some table) :
    (∃ found, table.find? page session.kernel.machine.memory = .ok (some found) ∧
        (session.kernel.machine.memory.entry found).isValid = true ∧
        (step (.table slot (.unmap page))).run session =
          .ok (.count table.nodes) (session.cleared found)) ∨
      ∃ stop after, (step (.table slot (.unmap page))).run session = .error stop after ∧
        ¬stop.BlamesPool := by
  rcases PageTable.run_unmap_cases table page session.kernel.machine with
    ⟨found, hfind, hvalid, -⟩ | ⟨-, stop, machine', herror, -⟩
  · exact Or.inl ⟨found, hfind, hvalid, step_unmap_of_found hget hfind hvalid⟩
  · exact Or.inr ⟨stop, _, step_unmap_of_error hget herror, PageTable.quiet_unmap.not_blamesPool herror⟩

-- A page that was unmapped had a valid leaf, which is what was cleared.
theorem found_of_step_unmap (hget : session.tables.get? slot = some table)
    (hstep : (step (.table slot (.unmap page))).run session = .ok reply after) :
    ∃ found, table.find? page session.kernel.machine.memory = .ok (some found) ∧
      (session.kernel.machine.memory.entry found).isValid = true ∧ after = session.cleared found := by
  rcases step_unmap_cases page hget with ⟨found, hfind, hvalid, hclear⟩ | ⟨stop, _, hstop, -⟩
  · cases hstep.symm.trans hclear
    exact ⟨found, hfind, hvalid, rfl⟩
  · cases hstep.symm.trans hstop

-- The leaf is all that changes when this is done through a view.
theorem undisturbed_unmap_of_view (hget : session.tables.get? slot = some table)
    (hview : table.owned = false)
    (hstep : (step (.table slot (.unmap page))).run session = .ok reply after) :
    Undisturbed loose ⟨session, .table slot (.unmap page), reply⟩ after := by
  obtain ⟨found, hfind, -, rfl⟩ := found_of_step_unmap hget hstep
  have hclears : Event.ClearsThroughView ⟨session, .table slot (.unmap page), reply⟩ found.node :=
    ⟨slot, page, table, found, rfl, hget, hview, hfind, rfl⟩
  refine ⟨fun _ frame _ _ hnot => ?_, fun _ _ _ _ frame _ hnot => ?_⟩
  · exact Memory.frame_setEntry_other fun heq => hnot (heq ▸ hclears)
  · exact Memory.frame_setEntry_other fun heq => hnot (heq ▸ hclears)

namespace Accounts

-- Trees and the pool do not notice, as long as they do not rely on the word that is cleared.
theorem cleared (h : Accounts low high session loose free) (hnot : ¬session.ReliesOn found) :
    Accounts low high (session.cleared found) loose free := by
  rw [ReliesOn, not_or, not_and] at hnot
  refine h.change rfl ?_ ?_ h.frameSlots (List.Perm.refl _)
  · refine h.offers.congr_links rfl (Memory.frames_setEntry _ _ _) fun frame hmem => ?_
    apply Memory.word_base_setEntry_other
    rintro rfl
    exact hnot.1 rfl hmem
  · intro other hmem
    exact Memory.frame_setEntry_other fun heq => hnot.2 (heq ▸ hmem)

theorem sound_unmap_of_view (h : Accounts low high session loose free)
    (hget : session.tables.get? slot = some table) (hview : table.owned = false)
    (hspared : ∀ found, table.find? page session.kernel.machine.memory = .ok (some found) →
      (session.kernel.machine.memory.entry found).isValid = true → ¬session.ReliesOn found) :
    Sound low high loose session (.table slot (.unmap page)) := by
  rcases step_unmap_cases page hget with ⟨found, hfind, hvalid, hrun⟩ | ⟨stop, after, hrun, hstop⟩
  · refine .of_ok _ _ hrun ⟨free, h.cleared (hspared found hfind hvalid), fun howner => ?_,
      undisturbed_unmap_of_view hget hview hrun⟩
    have howned := howner table hget
    rw [hview] at howned
    cases howned
  · exact .of_error hrun hstop

end Accounts

end PagedMemory.Session
