import PagedMemory.Proofs.Session.Progress
import PagedMemory.Proofs.Table.Walk

namespace PagedMemory.Session

variable {session : Session} {low high slot other : Nat} {loose free : List PhysPage}
  {history : List Event} {table owner : PageTable}

-- Contents of memory are compared here and never computed.
attribute [local irreducible] Memory.entry Memory.frame

-- What a lookup through one table visits is not a node of another.
theorem Accounts.walk_apart (h : Accounts low high session loose free) (hne : other ≠ slot)
    (hget : session.tables.get? slot = some table) (howned : table.owned = true)
    (hget' : session.tables.get? other = some owner) (howned' : owner.owned = true)
    (page : VirtPage) :
    ∀ node ∈ owner.walk page session.kernel.machine.memory,
      node ∉ PageTable.nodesFrom session.kernel.machine.memory PageTable.rootHeight table.root := by
  intro node hmem
  exact h.nodes_apart hne hget howned hget' howned' (PageTable.walkFrom_subset hmem)

namespace Run

-- The end of an owner returns all nodes of its tree, whatever the leaves are mapped to, and no other
-- frame: each node after those below it, in the order of the indices, and the root last. The pool
-- hands them out again from the root on. Memory changes in the first words of the nodes only, so
-- lookups that visit none of them go on as before, among them all lookups through other owners. The
-- end of a view changes nothing.
theorem drop_returns_nodes (hrun : Run low high session history)
    (hget : session.tables.get? slot = some table) :
    (table.owned = true → ∃ kernel' nodes count,
      (Session.step (.table slot .drop)).run session = .ok .done
        { session with kernel := kernel', tables := session.tables.erase slot } ∧
      nodes = PageTable.nodesFrom session.kernel.machine.memory PageTable.rootHeight table.root ∧
      nodes.Nodup ∧ nodes.length = table.nodes ∧ nodes.getLast? = some table.root ∧
      (nodes.forM Kernel.giveBackFrame).run session.kernel = .ok () kernel' ∧
      Kernel.remainingFrames.run session.kernel = .ok count session.kernel ∧
      Kernel.remainingFrames.run kernel' = .ok (count + table.nodes) kernel' ∧
      (∃ kernel'', ((List.replicate table.nodes ()).mapM fun _ => Kernel.takeFrame).run kernel' =
        .ok (nodes.reverse.map some) kernel'') ∧
      (∀ a, (∀ node ∈ nodes, a.value < node.base.value ∨ node.base.value + 8 ≤ a.value) →
        kernel'.machine.memory.byte a = session.kernel.machine.memory.byte a) ∧
      (∀ other owner page, other ≠ slot → session.tables.get? other = some owner →
        owner.owned = true → owner.translate? page kernel'.machine.memory =
          owner.translate? page session.kernel.machine.memory) ∧
      ∀ (view : PageTable) page,
        (∀ node ∈ view.walk page session.kernel.machine.memory, node ∉ nodes) →
          view.translate? page kernel'.machine.memory =
            view.translate? page session.kernel.machine.memory) ∧
    (table.owned = false → (Session.step (.table slot .drop)).run session =
      .ok .done { session with tables := session.tables.erase slot }) := by
  obtain ⟨free, haccounts, -⟩ := hrun.invariant
  refine ⟨fun howned => ?_, Accounts.step_drop_of_view hget⟩
  obtain ⟨kernel', hstep, hreturned⟩ := haccounts.step_drop_of_owned hget howned
  have hcounted := haccounts.counted slot table hget howned
  have hspared : ∀ (view : PageTable) page,
      (∀ node ∈ view.walk page session.kernel.machine.memory, node ∉ PageTable.nodesFrom
        session.kernel.machine.memory PageTable.rootHeight table.root) →
      view.translate? page kernel'.machine.memory =
        view.translate? page session.kernel.machine.memory := fun view page hapart =>
    PageTable.translate?_congr hreturned.window fun node hmem =>
      hreturned.spared node (hapart node hmem)
  refine ⟨kernel', _, free.length, hstep, rfl, (haccounts.out hget howned).nodup, hcounted.symm, ?_,
    hreturned.run, Kernel.run_remainingFrames haccounts.offers, ?_, ?_, ?_, ?_, hspared⟩
  · exact List.getLast?_concat
  · have hremaining := Kernel.run_remainingFrames hreturned.offers
    rwa [List.length_append, List.length_reverse, ← hcounted, Nat.add_comm] at hremaining
  · obtain ⟨kernel'', htake, -⟩ := Kernel.run_takeFrames hreturned.offers
    rw [List.length_reverse, ← hcounted] at htake
    exact ⟨kernel'', htake⟩
  · exact fun a hout => hreturned.words a.value hout
  · intro other owner page hne hget' howned'
    exact hspared owner page (haccounts.walk_apart hne hget howned hget' howned' page)

-- A table with one page mapped, to a frame that memory does not have.
theorem drop_returns_nodes_of_one_page : ∃ session history table kernel' count,
    ∃ nodes : List PhysPage, Run 1 8 session history ∧ session.tables.get? 0 = some table ∧
    table.owned = true ∧
    (Session.step (.table 0 .drop)).run session = .ok .done
      { session with kernel := kernel', tables := session.tables.erase 0 } ∧
    nodes.length = table.nodes ∧ nodes.getLast? = some table.root ∧
    Kernel.remainingFrames.run session.kernel = .ok count session.kernel ∧
    Kernel.remainingFrames.run kernel' = .ok (count + table.nodes) kernel' ∧
    ∃ kernel'', ((List.replicate table.nodes ()).mapM fun _ => Kernel.takeFrame).run kernel' =
      .ok (nodes.reverse.map some) kernel'' := by
  obtain ⟨empty, created, session, root, nodes, hrun, -, hget, -⟩ :=
    exists_mapped (.filled 1024 0xcd) 0x1000 0x8000 rfl rfl (by decide) (by decide) (.ofNat 5)
      (fun _ => .ofNat 0x800) ⟨2⟩
  obtain ⟨kernel', nodes, count, hstep, -, -, hlength, hlast, -, hbefore, hafter, htake, -⟩ :=
    (drop_returns_nodes hrun hget).1 rfl
  exact ⟨session, _, _, kernel', count, nodes, hrun, hget, rfl, hstep, hlength, hlast, hbefore, hafter,
    htake⟩

end Run

end PagedMemory.Session
