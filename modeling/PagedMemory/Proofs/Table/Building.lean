import PagedMemory.Proofs.Frame.Offers
import PagedMemory.Proofs.Table.Ways

namespace PagedMemory.PageTable

-- Contents of memory are compared here and never computed.
attribute [local irreducible] Memory.entry Memory.fillFrame Memory.setEntry

variable {kernel kernel' : Kernel} {table : PageTable} {low high height : Nat}
  {free rest : List PhysPage} {node child : PhysPage} {page : VirtPage} {slot : EntrySlot}
  {machine : Machine}

theorem run_inspect_entry (slot : EntrySlot) (h : slot.node.number < machine.memory.frames) :
    (Machine.inspect fun memory => do
      memory.reach slot.node.base
      return memory.entry slot).run machine = .ok (machine.memory.entry slot) machine :=
  Machine.run_inspect_ok (by rw [Memory.reach_base h]; rfl)

theorem run_link (memory : Memory) (log : List LogEntry) (pool : Deferred (Exclusive FramePool))
    (table : PageTable) (slot : EntrySlot) (child : PhysPage) :
    (Action.onFirst (Kernel.onMachine (Machine.change (·.setEntry slot (.node child)))) :
      Action (Kernel × PageTable) Unit).run (⟨⟨memory, log⟩, pool⟩, table) =
      .ok () (⟨⟨memory.setEntry slot (.node child), log⟩, pool⟩, table) := rfl

-- One step of a walk. It goes on at the node that is there, or at a new one, or ends for want of a
-- frame.

theorem run_buildFrom_zero (hnode : node.number < kernel.machine.memory.frames) :
    (buildFrom page 0 node).run (kernel, table) = .ok ⟨node, page.indexAt 0⟩ (kernel, table) := by
  simp only [buildFrom, EStateM.run_bind, Action.run_onFirst, Kernel.run_onMachine,
    Machine.run_inspect_reach hnode, EStateM.run_pure]

theorem run_buildFrom_of_valid (hnode : node.number < kernel.machine.memory.frames)
    (hvalid : (kernel.machine.memory.entry ⟨node, page.indexAt (height + 1)⟩).isValid = true) :
    (buildFrom page (height + 1) node).run (kernel, table) =
      (buildFrom page height
        (kernel.machine.memory.entry ⟨node, page.indexAt (height + 1)⟩).page).run
        (kernel, table) := by
  have hentry := run_inspect_entry ⟨node, page.indexAt (height + 1)⟩ hnode
  simp only [buildFrom, EStateM.run_bind, Action.run_onFirst, Kernel.run_onMachine, hentry, hvalid,
    if_true]

theorem run_buildFrom_of_invalid (hnode : node.number < kernel.machine.memory.frames)
    (hempty : (kernel.machine.memory.entry ⟨node, page.indexAt (height + 1)⟩).isValid = false) :
    (buildFrom page (height + 1) node).run (kernel, table) =
      (do
        let child ← addNode
        Action.onFirst (Kernel.onMachine (Machine.change
          (·.setEntry ⟨node, page.indexAt (height + 1)⟩ (.node child))))
        buildFrom page height child).run (kernel, table) := by
  have hentry := run_inspect_entry ⟨node, page.indexAt (height + 1)⟩ hnode
  rw [buildFrom]
  simp only [EStateM.run_bind, Action.run_onFirst, Kernel.run_onMachine, hentry, hempty,
    Bool.false_eq_true, if_false]

theorem run_buildFrom_of_nil (hnode : node.number < kernel.machine.memory.frames)
    (hempty : (kernel.machine.memory.entry ⟨node, page.indexAt (height + 1)⟩).isValid = false)
    (hoffers : kernel.Offers low high []) :
    (buildFrom page (height + 1) node).run (kernel, table) =
      .error (.fault .noFrameForNode) (kernel, table) := by
  have hadd : addNode.run (kernel, table) = .error (.fault .noFrameForNode) (kernel, table) := by
    have htake := Kernel.run_takeNode_nil .noFrameForNode hoffers
    rw [Fault.lines_eq_nil rfl, List.append_nil] at htake
    simp only [addNode, EStateM.run_bind, Action.run_onFirst, htake]
  exact (run_buildFrom_of_invalid hnode hempty).trans (Action.run_bind_error hadd)

theorem run_buildFrom_of_cons (page : VirtPage) (table : PageTable)
    (hnode : node.number < kernel.machine.memory.frames)
    (hempty : (kernel.machine.memory.entry ⟨node, page.indexAt (height + 1)⟩).isValid = false)
    (hoffers : kernel.Offers low high (child :: free)) (hapart : ∀ frame ∈ free, frame ≠ node) :
    ∃ kernel', (buildFrom page (height + 1) node).run (kernel, table) =
        (buildFrom page height child).run (kernel', { table with nodes := table.nodes + 1 }) ∧
      kernel'.machine =
        ⟨linkNode kernel.machine.memory ⟨node, page.indexAt (height + 1)⟩ child,
          kernel.machine.log⟩ ∧
      kernel'.Offers low high free := by
  obtain ⟨⟨machine', pool'⟩, htake, rfl, hoffers'⟩ :=
    Kernel.run_takeNode_cons .noFrameForNode hoffers
  have hadd : addNode.run (kernel, table) =
      .ok child (⟨⟨kernel.machine.memory.fillFrame child 0, kernel.machine.log⟩, pool'⟩,
        { table with nodes := table.nodes + 1 }) := by
    simp only [addNode, EStateM.run_bind, Action.run_onFirst, htake, Action.run_onSecond,
      EStateM.run_modify, EStateM.run_pure]
  have hlink := run_link (kernel.machine.memory.fillFrame child 0) kernel.machine.log pool'
    { table with nodes := table.nodes + 1 } ⟨node, page.indexAt (height + 1)⟩ child
  refine ⟨_, (run_buildFrom_of_invalid hnode hempty).trans
    ((Action.run_bind_ok hadd).trans (Action.run_bind_ok hlink)), rfl, ?_⟩
  refine hoffers'.congr rfl ?_ fun frame hmem => ?_
  · exact Memory.frames_setEntry _ _ _
  · exact Memory.frame_setEntry_other (hapart frame hmem)

-- A walk that finds all nodes on its way makes none.
theorem run_buildFrom_of_slotFrom
    (hwindow : ∀ other ∈ nodesFrom kernel.machine.memory height node,
      other.number < kernel.machine.memory.frames)
    (hslot : slotFrom kernel.machine.memory page height node = some slot) :
    (buildFrom page height node).run (kernel, table) = .ok slot (kernel, table) := by
  induction height generalizing node with
  | zero =>
      cases hslot
      exact run_buildFrom_zero (hwindow node self_mem_nodesFrom)
  | succ height ih =>
      have hnode := hwindow node self_mem_nodesFrom
      obtain ⟨hvalid, hslot⟩ := slotFrom_succ_eq_some hslot
      rw [run_buildFrom_of_valid hnode hvalid]
      exact ih (fun other hmem => hwindow other (mem_nodesFrom_of_valid hvalid hmem)) hslot

-- How many nodes are missing on the way to a page's leaf.
def missingFrom (memory : Memory) (page : VirtPage) : Nat → PhysPage → Nat
  | 0, _ => 0
  | height + 1, node =>
      let entry := memory.entry ⟨node, page.indexAt (height + 1)⟩
      if entry.isValid then missingFrom memory page height entry.page else height + 1

theorem missingFrom_le (memory : Memory) (page : VirtPage) (height : Nat) (node : PhysPage) :
    missingFrom memory page height node ≤ height := by
  induction height generalizing node with
  | zero => exact Nat.le_refl _
  | succ height ih =>
      simp only [missingFrom]
      split
      · exact Nat.le_succ_of_le (ih _)
      · exact Nat.le_refl _

theorem missingFrom_of_valid {memory : Memory}
    (h : (memory.entry ⟨node, page.indexAt (height + 1)⟩).isValid = true) :
    missingFrom memory page (height + 1) node =
      missingFrom memory page height (memory.entry ⟨node, page.indexAt (height + 1)⟩).page :=
  if_pos h

theorem missingFrom_of_invalid {memory : Memory}
    (h : (memory.entry ⟨node, page.indexAt (height + 1)⟩).isValid = false) :
    missingFrom memory page (height + 1) node = height + 1 := by
  simp only [missingFrom, h, Bool.false_eq_true, if_false]

-- All nodes are missing below an empty one.
theorem missingFrom_of_empty {memory : Memory} (h : ∀ index, memory.entry ⟨node, index⟩ = .empty) :
    missingFrom memory page height node = height := by
  cases height with
  | zero => rfl
  | succ height =>
      exact missingFrom_of_invalid ((congrArg Entry.isValid (h _)).trans Entry.isValid_empty)

-- They are missing if the node is alone.
theorem missingFrom_of_alone {memory : Memory} (h : (nodesFrom memory height node).length = 1) :
    missingFrom memory page height node = height := by
  cases height with
  | zero => rfl
  | succ height =>
      refine missingFrom_of_invalid (Bool.eq_false_iff.mpr fun hvalid => ?_)
      have hbelow : nodesBelow memory height node (page.indexAt (height + 1)) = [] := by
        rw [nodesFrom_succ, List.length_append, List.length_singleton, Nat.add_eq_right,
          List.length_eq_zero_iff, List.flatMap_eq_nil_iff] at h
        exact h _ (List.mem_finRange _)
      rw [nodesBelow_of_valid hvalid] at hbelow
      exact List.ne_nil_of_mem self_mem_nodesFrom hbelow

-- None is missing on the way to a slot that is found.
theorem missingFrom_of_slotFrom {memory : Memory} {slot : EntrySlot}
    (h : slotFrom memory page height node = some slot) : missingFrom memory page height node = 0 := by
  induction height generalizing node with
  | zero => rfl
  | succ height ih =>
      obtain ⟨hvalid, hbelow⟩ := slotFrom_succ_eq_some h
      rw [missingFrom_of_valid hvalid]
      exact ih hbelow

-- What a walk does: it makes the missing nodes of the first free frames, and finds its slot unless it
-- runs out of frames.
def Builds (low high : Nat) (page : VirtPage) (height : Nat) (node : PhysPage) (kernel : Kernel)
    (table : PageTable) (free : List PhysPage) : Prop :=
  ∃ fresh rest kernel', free = fresh ++ rest ∧ kernel'.Offers low high rest ∧
    kernel'.machine.log = kernel.machine.log ∧
    Paved page kernel.machine.memory kernel'.machine.memory height node fresh ∧
    ((∃ slot, (buildFrom page height node).run (kernel, table) =
          .ok slot (kernel', { table with nodes := table.nodes + fresh.length }) ∧
        slotFrom kernel'.machine.memory page height node = some slot ∧
        fresh.length = missingFrom kernel.machine.memory page height node) ∨
      (rest = [] ∧ fresh.length < missingFrom kernel.machine.memory page height node ∧
        (buildFrom page height node).run (kernel, table) =
          .error (.fault .noFrameForNode)
            (kernel', { table with nodes := table.nodes + fresh.length })))

namespace Builds

-- The child is there, and all growth is behind its entry.
theorem of_valid (hnode : node.number < kernel.machine.memory.frames)
    (hnodup : (nodesFrom kernel.machine.memory (height + 1) node).Nodup)
    (hapart : ∀ frame ∈ free, frame ∉ nodesFrom kernel.machine.memory (height + 1) node)
    (hvalid : (kernel.machine.memory.entry ⟨node, page.indexAt (height + 1)⟩).isValid = true)
    (h : Builds low high page height
      (kernel.machine.memory.entry ⟨node, page.indexAt (height + 1)⟩).page kernel table free) :
    Builds low high page (height + 1) node kernel table free := by
  obtain ⟨fresh, rest, kernel', rfl, hoffers', hlog, hpaved, hcase⟩ := h
  have hfresh : ∀ frame ∈ fresh, frame ∉ nodesFrom kernel.machine.memory (height + 1) node :=
    fun frame hmem => hapart frame (List.mem_append_left _ hmem)
  have hkept := hpaved.toGrown.entry_eq hnodup hvalid hfresh (page.indexAt (height + 1))
  refine ⟨fresh, rest, kernel', rfl, hoffers', hlog, hpaved.of_valid hnodup hvalid hfresh, ?_⟩
  rw [run_buildFrom_of_valid hnode hvalid, slotFrom_succ_of_valid (hkept ▸ hvalid), hkept,
    missingFrom_of_valid hvalid]
  exact hcase

-- The new child is linked, and all further growth is behind its entry.
theorem of_link {kernel₁ : Kernel} (hnode : node.number < kernel.machine.memory.frames)
    (hchildWindow : child.number < kernel.machine.memory.frames)
    (hnodup : (nodesFrom kernel.machine.memory (height + 1) node).Nodup)
    (hapart : ∀ frame ∈ child :: free,
      frame ∉ nodesFrom kernel.machine.memory (height + 1) node)
    (hfree : child ∉ free)
    (hempty : (kernel.machine.memory.entry ⟨node, page.indexAt (height + 1)⟩).isValid = false)
    (hrun : (buildFrom page (height + 1) node).run (kernel, table) =
      (buildFrom page height child).run (kernel₁, { table with nodes := table.nodes + 1 }))
    (hmemory : kernel₁.machine.memory =
      linkNode kernel.machine.memory ⟨node, page.indexAt (height + 1)⟩ child)
    (hlog : kernel₁.machine.log = kernel.machine.log)
    (hmissing : missingFrom kernel₁.machine.memory page height child = height)
    (h : Builds low high page height child kernel₁ { table with nodes := table.nodes + 1 } free) :
    Builds low high page (height + 1) node kernel table (child :: free) := by
  obtain ⟨fresh, rest, kernel', rfl, hoffers', hlog', hpaved, hcase⟩ := h
  rw [hmemory] at hpaved
  obtain ⟨hlinked, hentry⟩ := hpaved.of_link hnode hchildWindow hnodup
    (fun frame hmem => hapart frame (List.mem_append_left rest hmem))
    (fun hmem => hfree (List.mem_append_left _ hmem)) hempty
  have hslots : slotFrom kernel'.machine.memory page (height + 1) node =
      slotFrom kernel'.machine.memory page height child := by
    rw [slotFrom_succ_of_valid (by rw [hentry, Entry.isValid_node]), hentry, Entry.page_node]
  have hcount : table.nodes + 1 + fresh.length = table.nodes + (child :: fresh).length := by
    rw [List.length_cons]
    omega
  refine ⟨child :: fresh, rest, kernel', rfl, hoffers', hlog'.trans hlog, hlinked, ?_⟩
  rw [hmissing] at hcase
  rw [hrun, hslots, ← hcount, missingFrom_of_invalid hempty, List.length_cons]
  rcases hcase with ⟨slot, hok, hslot, hlength⟩ | ⟨hrest, hlength, hfail⟩
  · exact Or.inl ⟨slot, hok, hslot, congrArg (· + 1) hlength⟩
  · exact Or.inr ⟨hrest, Nat.succ_lt_succ hlength, hfail⟩

end Builds

theorem builds (hoffers : kernel.Offers low high free)
    (hnodup : (nodesFrom kernel.machine.memory height node).Nodup)
    (hapart : ∀ frame ∈ free, frame ∉ nodesFrom kernel.machine.memory height node)
    (hwindow : ∀ other ∈ nodesFrom kernel.machine.memory height node,
      other.number < kernel.machine.memory.frames) :
    Builds low high page height node kernel table free := by
  induction height generalizing node kernel table free with
  | zero =>
      exact ⟨[], free, kernel, rfl, hoffers, rfl, .refl _ _ _ _,
        Or.inl ⟨_, run_buildFrom_zero (hwindow node self_mem_nodesFrom), rfl, rfl⟩⟩
  | succ height ih =>
      have hnode := hwindow node self_mem_nodesFrom
      by_cases hvalid :
          (kernel.machine.memory.entry ⟨node, page.indexAt (height + 1)⟩).isValid = true
      · refine .of_valid hnode hnodup hapart hvalid (ih hoffers (nodup_child hnodup hvalid) ?_ ?_)
        · exact fun frame hmem hin => hapart frame hmem (mem_nodesFrom_of_valid hvalid hin)
        · exact fun other hmem => hwindow other (mem_nodesFrom_of_valid hvalid hmem)
      · rw [Bool.not_eq_true] at hvalid
        cases free with
        | nil =>
            refine ⟨[], [], kernel, rfl, hoffers, rfl, .refl _ _ _ _,
              Or.inr ⟨rfl, ?_, run_buildFrom_of_nil hnode hvalid hoffers⟩⟩
            rw [missingFrom_of_invalid hvalid]
            exact Nat.succ_pos height
        | cons child free =>
            have hchild := hapart child List.mem_cons_self
            have hne : child ≠ node := fun heq => hchild (heq ▸ self_mem_nodesFrom)
            have hchildWindow : child.number < kernel.machine.memory.frames :=
              hoffers.lt_frames List.mem_cons_self
            have hfree := (List.nodup_cons.mp hoffers.nodup).1
            obtain ⟨kernel₁, hrun, hmachine, hoffers₁⟩ := run_buildFrom_of_cons page table
              hnode hvalid hoffers fun frame hmem heq =>
                hapart frame (List.mem_cons_of_mem _ hmem) (heq ▸ self_mem_nodesFrom)
            have hmemory := congrArg Machine.memory hmachine
            have hlog := congrArg Machine.log hmachine
            have hzero : ∀ index, kernel₁.machine.memory.entry ⟨child, index⟩ = .empty := by
              rw [hmemory]
              exact entry_linkNode_child hne hchildWindow
            have hsingle : nodesFrom kernel₁.machine.memory height child = [child] :=
              nodesFrom_of_empty hzero
            refine .of_link hnode hchildWindow hnodup hapart hfree hvalid hrun hmemory hlog
              (missingFrom_of_empty hzero) (ih hoffers₁ ?_ ?_ ?_)
            · rw [hsingle]
              exact List.nodup_singleton child
            · intro frame hmem hin
              rw [hsingle, List.mem_singleton] at hin
              exact hfree (hin ▸ hmem)
            · intro other hmem
              rw [hsingle, List.mem_singleton] at hmem
              rw [hmem, hmemory, frames_linkNode]
              exact hchildWindow

end PagedMemory.PageTable
