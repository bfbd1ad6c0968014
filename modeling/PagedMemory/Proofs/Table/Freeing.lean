import PagedMemory.Proofs.Table.Mapping

namespace PagedMemory.PageTable

open Kernel (Out Returned run_giveBack)

-- Contents of memory are compared here and never computed.
attribute [local irreducible] Memory.entry Memory.fillFrame Memory.setWord

variable {kernel : Kernel} {table : PageTable} {low high height : Nat}
  {free rest : List PhysPage} {root node : PhysPage} {page : VirtPage}
  {memory : Memory} {indices : List (Fin nodeEntries)}

-- A new table.

theorem mappedFrom_of_empty (h : ∀ index, memory.entry ⟨root, index⟩ = .empty) :
    mappedFrom memory page height root = none := by
  rw [mappedFrom]
  cases hslot : slotFrom memory page height root with
  | none => rfl
  | some slot =>
      rw [Option.map_some, entry_of_slotFrom_of_empty h hslot, Option.filter_some,
        Entry.isValid_empty, if_neg Bool.false_ne_true]

theorem run_create_nil (hoffers : kernel.Offers low high []) :
    create.run kernel = .error (.fault .noFrameForRoot) kernel := by
  rw [create, Action.run_bind_error (Kernel.run_takeNode_nil .noFrameForRoot hoffers),
    Fault.lines_eq_nil rfl, List.append_nil]

-- The first free frame becomes the root, and is filled with zeros.
theorem run_create_of_offers (hoffers : kernel.Offers low high (root :: rest)) :
    ∃ kernel', create.run kernel = .ok ⟨root, true, 1⟩ kernel' ∧
      kernel'.machine = ⟨kernel.machine.memory.fillFrame root 0, kernel.machine.log⟩ ∧
      kernel'.Offers low high rest := by
  obtain ⟨kernel', htake, hmachine, hoffers'⟩ :=
    Kernel.run_takeNode_cons .noFrameForRoot hoffers
  refine ⟨kernel', ?_, hmachine, hoffers'⟩
  rw [create, Action.run_bind_ok htake, EStateM.run_pure]

-- Nothing is mapped then.
theorem run_create_cons (hoffers : kernel.Offers low high (root :: rest)) :
    ∃ kernel', create.run kernel = .ok ⟨root, true, 1⟩ kernel' ∧ kernel'.Offers low high rest ∧
      kernel'.machine.log = kernel.machine.log ∧
      kernel'.machine.memory.frames = kernel.machine.memory.frames ∧
      (∀ other ≠ root,
        kernel'.machine.memory.frame other = kernel.machine.memory.frame other) ∧
      nodesFrom kernel'.machine.memory rootHeight root = [root] ∧
      ∀ page, mappedFrom kernel'.machine.memory page rootHeight root = none := by
  obtain ⟨kernel', hcreate, hmachine, hoffers'⟩ := run_create_of_offers hoffers
  have hempty : ∀ index, (kernel.machine.memory.fillFrame root 0).entry ⟨root, index⟩ = .empty :=
    fun index => Memory.entry_fillFrame_zero index (hoffers.lt_frames List.mem_cons_self)
  have hmemory := congrArg Machine.memory hmachine
  refine ⟨kernel', hcreate, hoffers', by rw [hmachine], ?_, ?_, ?_, ?_⟩
  · rw [hmemory]
    exact Memory.frames_fillFrame _ _ _
  · intro other hne
    rw [hmemory]
    exact Memory.frame_fillFrame_other hne
  · rw [hmemory]
    exact nodesFrom_of_empty hempty
  · intro page
    rw [hmemory]
    exact mappedFrom_of_empty hempty

-- What the part of a table's end that visits one entry of a node does.
def freeBelow (height : Nat) (node : PhysPage) (index : Fin nodeEntries) : Action Kernel Unit := do
  let entry ← Kernel.onMachine <| Machine.inspect fun memory => return memory.entry ⟨node, index⟩
  if entry.isValid then freeFrom height entry.page

theorem freeFrom_succ (height : Nat) (node : PhysPage) :
    freeFrom (height + 1) node = (do
      Kernel.onMachine (Machine.inspect (·.reach node.base))
      (List.finRange nodeEntries).forM (freeBelow height node)
      Kernel.giveBackFrame node) := rfl

theorem run_freeBelow {index : Fin nodeEntries} :
    (freeBelow height node index).run kernel =
      if (kernel.machine.memory.entry ⟨node, index⟩).isValid then
        (freeFrom height (kernel.machine.memory.entry ⟨node, index⟩).page).run kernel
      else .ok () kernel := by
  have hentry : (Kernel.onMachine (Machine.inspect fun memory =>
      return memory.entry ⟨node, index⟩)).run kernel =
      .ok (kernel.machine.memory.entry ⟨node, index⟩) kernel := by
    rw [Kernel.run_onMachine, Machine.run_inspect_pure]
  rw [freeBelow, Action.run_bind_ok hentry]
  split
  · rfl
  · rfl

-- The entries of a node are visited one after the other. What was returned for one of them does not
-- change what is behind the others.
theorem run_freeBelow_forM
    (hnode : node ∉ indices.flatMap (nodesBelow kernel.machine.memory height node))
    (hoffers : kernel.Offers low high free)
    (hout : Out low high (indices.flatMap (nodesBelow kernel.machine.memory height node)) free)
    (hfree : ∀ {kernel : Kernel} {node : PhysPage} {free : List PhysPage},
      kernel.Offers low high free → Out low high (nodesFrom kernel.machine.memory height node) free →
      ∃ kernel', (freeFrom height node).run kernel = .ok () kernel' ∧
        Returned low high kernel kernel' (nodesFrom kernel.machine.memory height node) free) :
    ∃ kernel', (indices.forM (freeBelow height node)).run kernel = .ok () kernel' ∧
      Returned low high kernel kernel'
        (indices.flatMap (nodesBelow kernel.machine.memory height node)) free := by
  induction indices generalizing kernel free with
  | nil => exact ⟨kernel, rfl, .refl hoffers⟩
  | cons index indices ih =>
      rw [List.flatMap_cons] at hnode hout ⊢
      rw [List.mem_append, not_or] at hnode
      obtain ⟨kernel₁, hrun, hreturned⟩ : ∃ kernel₁,
          (freeBelow height node index).run kernel = .ok () kernel₁ ∧
            Returned low high kernel kernel₁ (nodesBelow kernel.machine.memory height node index)
              free := by
        have hbelow := hout.append_left
        rw [run_freeBelow]
        by_cases hvalid : (kernel.machine.memory.entry ⟨node, index⟩).isValid = true
        · rw [nodesBelow_of_valid hvalid] at hbelow ⊢
          rw [if_pos hvalid]
          exact hfree hoffers hbelow
        · rw [if_neg hvalid, nodesBelow, if_neg hvalid]
          exact ⟨kernel, rfl, .refl hoffers⟩
      have hdisjoint := (List.nodup_append'.mp hout.nodup).2.2
      have hkept : indices.flatMap (nodesBelow kernel₁.machine.memory height node) =
          indices.flatMap (nodesBelow kernel.machine.memory height node) := by
        refine List.flatMap_congr fun other hmem => nodesBelow_congr ?_ fun frame hin => ?_
        · exact Memory.entry_eq_of_frame_eq (hreturned.spared node hnode.1)
        · exact hreturned.spared frame fun hin' =>
            hdisjoint hin' (List.mem_flatMap.mpr ⟨other, hmem, hin⟩)
      have hnode' : node ∉ indices.flatMap (nodesBelow kernel₁.machine.memory height node) :=
        hkept ▸ hnode.2
      obtain ⟨kernel₂, hrun', hreturned'⟩ :=
        ih hnode' hreturned.offers (hkept ▸ hout.append_right)
      rw [hkept] at hreturned'
      refine ⟨kernel₂, ?_, hreturned.trans hreturned'⟩
      exact (Action.run_bind_ok hrun).trans hrun'

-- The end of a tree returns all its nodes, each after the nodes below it.
theorem run_freeFrom (hoffers : kernel.Offers low high free)
    (hout : Out low high (nodesFrom kernel.machine.memory height node) free) :
    ∃ kernel', (freeFrom height node).run kernel = .ok () kernel' ∧
      Returned low high kernel kernel' (nodesFrom kernel.machine.memory height node) free := by
  induction height generalizing kernel node free with
  | zero => exact run_giveBack hoffers hout
  | succ height ih =>
      have hwindow : node.number < kernel.machine.memory.frames :=
        Nat.lt_of_lt_of_le (hout.range node self_mem_nodesFrom).2 hoffers.high_le_frames
      have hreach : (Kernel.onMachine (Machine.inspect (·.reach node.base))).run kernel =
          .ok () kernel := by
        rw [Kernel.run_onMachine, Machine.run_inspect_ok (Memory.reach_base hwindow)]
      rw [nodesFrom_succ] at hout ⊢
      have hnode : node ∉ (List.finRange nodeEntries).flatMap
          (nodesBelow kernel.machine.memory height node) := fun hin =>
        (List.nodup_append'.mp hout.nodup).2.2 hin (List.mem_singleton_self node)
      obtain ⟨kernel₁, hrun, hreturned⟩ := run_freeBelow_forM hnode hoffers hout.append_left ih
      obtain ⟨kernel₂, hrun', hreturned'⟩ :=
        run_giveBack hreturned.offers hout.append_right
      refine ⟨kernel₂, ?_, hreturned.trans hreturned'⟩
      rw [freeFrom_succ, Action.run_bind_ok hreach]
      exact (Action.run_bind_ok hrun).trans hrun'

theorem run_drop (hoffers : kernel.Offers low high free) (howned : table.owned = true)
    (hout : Out low high (nodesFrom kernel.machine.memory rootHeight table.root) free) :
    ∃ kernel', table.drop.run kernel = .ok () kernel' ∧
      Returned low high kernel kernel'
        (nodesFrom kernel.machine.memory rootHeight table.root) free := by
  rw [drop, if_pos howned]
  exact run_freeFrom hoffers hout

theorem run_drop_of_view (hview : table.owned = false) : table.drop.run kernel = .ok () kernel := by
  rw [drop, hview]
  rfl

end PagedMemory.PageTable
