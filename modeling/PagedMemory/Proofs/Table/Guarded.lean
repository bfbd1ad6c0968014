import PagedMemory.Proofs.Guarded
import PagedMemory.Proofs.Table.Freeing
import PagedMemory.Proofs.Table.Walk

namespace PagedMemory.PageTable

open Kernel (Open Held guarded)

variable {kernel : Kernel} {table : PageTable} {height : Nat} {node frame : PhysPage}
  {page : VirtPage} {slot : EntrySlot} {cause : Fault} {flags : Flags} {memory : Memory} {α : Type}
  {indices : List (Fin nodeEntries)} {index : Fin nodeEntries} {stop : Stop}

-- Contents of memory are compared here and never computed.
attribute [local irreducible] Memory.entry Memory.fillFrame Memory.setEntry

-- Nobody is refused while the pool is not in use.

theorem unrefused_create : Unrefused Open create :=
  (Kernel.unrefused_takeNode (by simp)).bind fun _ => .pure _

theorem unrefused_addNode : Unrefused (fun s : Kernel × PageTable => s.1.Open) addNode :=
  (Unrefused.onFirst (Kernel.unrefused_takeNode (by simp))).bind fun _ =>
    (Unrefused.onSecond (.modify fun _ => trivial)).bind fun _ => .pure _

theorem unrefused_buildFrom (page : VirtPage) (height : Nat) (node : PhysPage) :
    Unrefused (fun s : Kernel × PageTable => s.1.Open) (buildFrom page height node) := by
  induction height generalizing node with
  | zero =>
      exact (Unrefused.onFirst (Kernel.unrefused_onMachine (Machine.unrefused_reach _))).bind
        fun _ => .pure _
  | succ height ih =>
      refine (Unrefused.onFirst (Kernel.unrefused_onMachine ?_)).bind fun entry => ?_
      · exact Machine.unrefused_inspect fun memory => (memory.spares_reach _).bind fun _ => .ok _
      · split
        · exact ih _
        · exact unrefused_addNode.bind fun child =>
            (Unrefused.onFirst (Kernel.unrefused_onMachine (Machine.unrefused_change _))).bind
              fun _ => ih child

theorem unrefused_findOrBuild (page : VirtPage) :
    Unrefused (fun s : Kernel × PageTable => s.1.Open) (findOrBuild page) := by
  refine Unrefused.get.bind fun (_, table) => ?_
  dsimp only
  split
  · exact unrefused_buildFrom _ _ _
  · exact .onFirst (Kernel.unrefused_fail (by simp))

theorem unrefused_map (page : VirtPage) (frame : PhysPage) (flags : Flags) :
    Unrefused (fun s : Kernel × PageTable => s.1.Open) (map page frame flags) := by
  refine (unrefused_findOrBuild page).bind fun slot => .onFirst (Kernel.unrefused_onMachine ?_)
  refine (Machine.unrefused_inspect fun _ => .ok _).bind fun entry => ?_
  split
  · exact Machine.unrefused_fail (by simp)
  · exact Machine.unrefused_change _

-- The entries that are visited stand for any: there are too many of them to be looked at one by one.
theorem unrefused_freeBelow_forM
    (h : ∀ child, Unrefused Open (freeFrom height child)) (indices : List (Fin nodeEntries)) :
    Unrefused Open (do
      Kernel.onMachine (Machine.inspect (·.reach node.base))
      indices.forM (freeBelow height node)
      Kernel.giveBackFrame node) := by
  have hbelow (index : Fin nodeEntries) : Unrefused Open (freeBelow height node index) := by
    refine (Kernel.unrefused_onMachine (Machine.unrefused_inspect fun _ => .ok _)).bind
      fun entry => ?_
    split
    · exact h _
    · exact .pure _
  exact (Kernel.unrefused_onMachine (Machine.unrefused_reach _)).bind fun _ =>
    (Unrefused.forM hbelow indices).bind fun _ => Kernel.unrefused_giveBackFrame node

theorem unrefused_freeFrom (height : Nat) (node : PhysPage) :
    Unrefused Open (freeFrom height node) := by
  induction height generalizing node with
  | zero => exact Kernel.unrefused_giveBackFrame node
  | succ height ih =>
      rw [freeFrom_succ]
      exact unrefused_freeBelow_forM ih (List.finRange nodeEntries)

theorem unrefused_drop (table : PageTable) : Unrefused Open table.drop := by
  rw [drop]
  split
  · exact unrefused_freeFrom _ _
  · exact .pure _

-- A walk that finds its slot, or comes to the end of the window, needs no frame from the pool.

theorem run_inspect_outside {question : Memory → Except Fault α}
    (h : question kernel.machine.memory = .error .outsideWindow) :
    (Kernel.onMachine (Machine.inspect question)).run kernel =
      .error (.fault .outsideWindow) kernel := by
  rw [Kernel.run_onMachine, Machine.run_inspect_error h, Fault.lines_eq_nil rfl, List.append_nil]

theorem run_buildFrom_of_outside (hnode : kernel.machine.memory.frames ≤ node.number) :
    (buildFrom page height node).run (kernel, table) =
      .error (.fault .outsideWindow) (kernel, table) := by
  have hreach := Memory.reach_base_of_le hnode
  cases height with
  | zero => exact Action.run_bind_error (by rw [Action.run_onFirst, run_inspect_outside hreach])
  | succ height =>
      refine Action.run_bind_error ?_
      rw [Action.run_onFirst, run_inspect_outside]
      rw [hreach]
      rfl

theorem run_buildFrom_of_find
    (h : findFrom kernel.machine.memory page height node ≠ .ok none) :
    (buildFrom page height node).run (kernel, table) =
      match findFrom kernel.machine.memory page height node with
      | .ok (some slot) => .ok slot (kernel, table)
      | _ => .error (.fault .outsideWindow) (kernel, table) := by
  induction height generalizing node with
  | zero =>
      by_cases hnode : node.number < kernel.machine.memory.frames
      · rw [run_buildFrom_zero hnode, findFrom, Memory.reach_base hnode]
        rfl
      · rw [run_buildFrom_of_outside (Nat.le_of_not_lt hnode),
          findFrom_of_outside (Nat.le_of_not_lt hnode)]
  | succ height ih =>
      by_cases hnode : node.number < kernel.machine.memory.frames
      · cases hvalid : (kernel.machine.memory.entry ⟨node, page.indexAt (height + 1)⟩).isValid with
        | true =>
            rw [findFrom_succ_of_valid hnode hvalid] at h ⊢
            rw [run_buildFrom_of_valid hnode hvalid]
            exact ih h
        | false => exact (h (findFrom_succ_of_invalid hnode hvalid)).elim
      · rw [run_buildFrom_of_outside (Nat.le_of_not_lt hnode),
          findFrom_of_outside (Nat.le_of_not_lt hnode)]

-- While somebody uses the pool, a walk is refused as soon as a node is missing.
theorem run_buildFrom_of_held (hheld : kernel.Held)
    (h : findFrom kernel.machine.memory page height node = .ok none) :
    (buildFrom page height node).run (kernel, table) =
      .error (.fault .reentrant) (kernel, table) := by
  induction height generalizing node with
  | zero =>
      rw [findFrom] at h
      cases hreach : kernel.machine.memory.reach node.base with
      | ok _ => rw [hreach] at h; cases h
      | error cause => rw [hreach] at h; cases h
  | succ height ih =>
      by_cases hnode : node.number < kernel.machine.memory.frames
      · cases hvalid : (kernel.machine.memory.entry ⟨node, page.indexAt (height + 1)⟩).isValid with
        | true =>
            rw [findFrom_succ_of_valid hnode hvalid] at h
            rw [run_buildFrom_of_valid hnode hvalid]
            exact ih h
        | false =>
            have hadd : addNode.run (kernel, table) = .error (.fault .reentrant) (kernel, table) :=
              Action.run_bind_error (by
                rw [Action.run_onFirst, Kernel.run_takeNode_of_held hheld])
            exact (run_buildFrom_of_invalid hnode hvalid).trans (Action.run_bind_error hadd)
      · rw [findFrom_of_outside (Nat.le_of_not_lt hnode)] at h
        cases h

theorem findOrBuild_guarded (hview : table.owned = true →
      table.find? page kernel.machine.memory ≠ .ok none) :
    (findOrBuild page).run (kernel.guarded, table) =
      Action.mapState (Prod.map guarded id) ((findOrBuild page).run (kernel, table)) := by
  by_cases howned : table.owned = true
  · have hfind := hview howned
    have hfind' : findFrom kernel.guarded.machine.memory page rootHeight table.root ≠ .ok none := hfind
    rw [run_findOrBuild howned, run_findOrBuild howned, run_buildFrom_of_find hfind,
      run_buildFrom_of_find hfind']
    have hmemory : kernel.guarded.machine.memory = kernel.machine.memory := rfl
    rw [hmemory]
    split <;> rfl
  · rw [Bool.not_eq_true] at howned
    rw [run_findOrBuild_of_view howned, run_findOrBuild_of_view howned]
    rfl

theorem run_findOrBuild_of_held (hheld : kernel.Held) (howned : table.owned = true)
    (h : table.find? page kernel.machine.memory = .ok none) :
    (findOrBuild page).run (kernel, table) = .error (.fault .reentrant) (kernel, table) :=
  (run_findOrBuild howned).trans (run_buildFrom_of_held hheld h)

theorem commutes_onFirst_onMachine (action : Action Machine α) :
    Commutes (Prod.map guarded id)
      (Action.onFirst (Kernel.onMachine action) : Action (Kernel × PageTable) α) := by
  intro (kernel, table)
  have hkernel := Kernel.commutes_onMachine action kernel
  simp only [Prod.map, Action.run_onFirst, hkernel]
  cases (Kernel.onMachine action).run kernel <;> rfl

theorem map_guarded (hview : table.owned = true →
      table.find? page kernel.machine.memory ≠ .ok none) :
    (map page frame flags).run (kernel.guarded, table) =
      Action.mapState (Prod.map guarded id) ((map page frame flags).run (kernel, table)) := by
  have hfind : (findOrBuild page).run (Prod.map guarded id (kernel, table)) =
      Action.mapState (Prod.map guarded id) ((findOrBuild page).run (kernel, table)) :=
    findOrBuild_guarded hview
  rw [map]
  exact Action.run_bind_mapState hfind fun _ after _ =>
    commutes_onFirst_onMachine _ after

-- The window shows the nodes that the end of a tree visits before the first of them is returned: at
-- each node it goes on behind the first entry that is valid.
def FirstShown (memory : Memory) : Nat → PhysPage → Prop
  | 0, _ => True
  | height + 1, node => node.number < memory.frames ∧ ∀ index,
      (List.finRange nodeEntries).find? (fun index => (memory.entry ⟨node, index⟩).isValid) =
        some index → FirstShown memory height (memory.entry ⟨node, index⟩).page

theorem isValid_of_find?
    (h : indices.find? (fun index => (memory.entry ⟨node, index⟩).isValid) = some index) :
    (memory.entry ⟨node, index⟩).isValid = true := by
  have hvalid := List.find?_some h
  exact hvalid

-- The window shows all nodes of a tree.
theorem firstShown_of_nodes (h : ∀ other ∈ nodesFrom memory height node, other.number < memory.frames) :
    FirstShown memory height node := by
  induction height generalizing node with
  | zero => trivial
  | succ height ih =>
      refine ⟨h node self_mem_nodesFrom, fun index hfirst => ih fun other hmem => h other ?_⟩
      exact mem_nodesFrom_of_valid (isValid_of_find? hfirst) hmem

-- The entries before the first valid one are passed.

theorem run_freeBelow_forM_of_first
    (hfirst : indices.find? (fun index => (kernel.machine.memory.entry ⟨node, index⟩).isValid) =
      some index)
    (herror : (freeFrom height (kernel.machine.memory.entry ⟨node, index⟩).page).run kernel =
      .error stop kernel) :
    (indices.forM (freeBelow height node)).run kernel = .error stop kernel := by
  induction indices with
  | nil => cases hfirst
  | cons other indices ih =>
      rw [List.find?_cons] at hfirst
      cases hvalid : (kernel.machine.memory.entry ⟨node, other⟩).isValid with
      | true =>
          rw [hvalid] at hfirst
          cases hfirst
          have hbelow : (freeBelow height node index).run kernel = .error stop kernel := by
            rw [run_freeBelow, if_pos hvalid, herror]
          exact Action.run_bind_error hbelow
      | false =>
          rw [hvalid] at hfirst
          have hbelow : (freeBelow height node other).run kernel = .ok () kernel := by
            rw [run_freeBelow, hvalid, if_neg Bool.false_ne_true]
          exact (Action.run_bind_ok hbelow).trans (ih hfirst)

theorem run_freeBelow_forM_of_none
    (hnone : indices.find? (fun index => (kernel.machine.memory.entry ⟨node, index⟩).isValid) =
      none) : (indices.forM (freeBelow height node)).run kernel = .ok () kernel := by
  induction indices with
  | nil => rfl
  | cons other indices ih =>
      rw [List.find?_cons] at hnone
      cases hvalid : (kernel.machine.memory.entry ⟨node, other⟩).isValid with
      | true =>
          rw [hvalid] at hnone
          cases hnone
      | false =>
          rw [hvalid] at hnone
          have hbelow : (freeBelow height node other).run kernel = .ok () kernel := by
            rw [run_freeBelow, hvalid, if_neg Bool.false_ne_true]
          exact (Action.run_bind_ok hbelow).trans (ih hnone)

theorem run_freeFrom_of_held (hheld : kernel.Held)
    (h : FirstShown kernel.machine.memory height node) :
    (freeFrom height node).run kernel = .error (.fault .reentrant) kernel := by
  induction height generalizing node with
  | zero => exact Kernel.run_withPool_of_held hheld _
  | succ height ih =>
      obtain ⟨hnode, hfirst⟩ := h
      have hreach : (Kernel.onMachine (Machine.inspect (·.reach node.base))).run kernel =
          .ok () kernel := by
        rw [Kernel.run_onMachine, Machine.run_inspect_reach hnode]
      rw [freeFrom_succ, Action.run_bind_ok hreach]
      cases hfind : (List.finRange nodeEntries).find?
          (fun index => (kernel.machine.memory.entry ⟨node, index⟩).isValid) with
      | some index =>
          exact Action.run_bind_error (run_freeBelow_forM_of_first hfind (ih (hfirst index hfind)))
      | none =>
          exact (Action.run_bind_ok (run_freeBelow_forM_of_none hfind)).trans
            (Kernel.run_withPool_of_held hheld _)

-- If the window ends before, the pool is not needed.
theorem run_freeFrom_of_outside (h : ¬FirstShown kernel.machine.memory height node) :
    (freeFrom height node).run kernel = .error (.fault .outsideWindow) kernel := by
  induction height generalizing node with
  | zero => exact (h trivial).elim
  | succ height ih =>
      rw [freeFrom_succ]
      by_cases hnode : node.number < kernel.machine.memory.frames
      · have hreach : (Kernel.onMachine (Machine.inspect (·.reach node.base))).run kernel =
            .ok () kernel := by
          rw [Kernel.run_onMachine, Machine.run_inspect_reach hnode]
        rw [FirstShown, not_and] at h
        obtain ⟨index, hindex⟩ := not_forall.mp (h hnode)
        obtain ⟨hfind, hnot⟩ := Classical.not_imp.mp hindex
        rw [Action.run_bind_ok hreach]
        exact Action.run_bind_error (run_freeBelow_forM_of_first hfind (ih hnot))
      · exact Action.run_bind_error
          (run_inspect_outside (Memory.reach_base_of_le (Nat.le_of_not_lt hnode)))

end PagedMemory.PageTable
