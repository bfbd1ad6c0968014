import Mathlib.Data.List.FinRange
import Mathlib.Data.List.Nodup
import Mathlib.Data.List.Pairwise
import Mathlib.Data.List.Perm.Basic
import PagedMemory.Proofs.Frame.Contents
import PagedMemory.Table.Basic

namespace PagedMemory.PageTable

variable {memory memory' : Memory} {height : Nat} {node child other : PhysPage}
  {page page' : VirtPage} {slot : EntrySlot} {index : Fin nodeEntries}

-- Entries are compared here and never computed.
attribute [local irreducible] Memory.entry

-- The nodes of the tree under a node, each after the nodes below it.
def nodesFrom (memory : Memory) : Nat → PhysPage → List PhysPage
  | 0, node => [node]
  | height + 1, node =>
      ((List.finRange nodeEntries).flatMap fun index =>
        let entry := memory.entry ⟨node, index⟩
        if entry.isValid then nodesFrom memory height entry.page else []) ++ [node]

-- The nodes among them that point at nodes.
def interiorFrom (memory : Memory) : Nat → PhysPage → List PhysPage
  | 0, _ => []
  | height + 1, node =>
      ((List.finRange nodeEntries).flatMap fun index =>
        let entry := memory.entry ⟨node, index⟩
        if entry.isValid then interiorFrom memory height entry.page else []) ++ [node]

-- The nodes behind one entry of a node.
def nodesBelow (memory : Memory) (height : Nat) (node : PhysPage) (index : Fin nodeEntries) :
    List PhysPage :=
  if (memory.entry ⟨node, index⟩).isValid then
    nodesFrom memory height (memory.entry ⟨node, index⟩).page
  else []

theorem nodesFrom_succ (memory : Memory) (height : Nat) (node : PhysPage) :
    nodesFrom memory (height + 1) node =
      (List.finRange nodeEntries).flatMap (nodesBelow memory height node) ++ [node] := rfl

theorem nodesBelow_of_valid (h : (memory.entry ⟨node, index⟩).isValid = true) :
    nodesBelow memory height node index =
      nodesFrom memory height (memory.entry ⟨node, index⟩).page := if_pos h

theorem self_mem_nodesFrom : node ∈ nodesFrom memory height node := by
  cases height <;> simp [nodesFrom]

theorem mem_nodesFrom_succ :
    other ∈ nodesFrom memory (height + 1) node ↔
      (∃ index, other ∈ nodesBelow memory height node index) ∨ other = node := by
  simp [nodesFrom_succ]

theorem mem_nodesFrom_of_mem_nodesBelow (h : other ∈ nodesBelow memory height node index) :
    other ∈ nodesFrom memory (height + 1) node := mem_nodesFrom_succ.mpr (Or.inl ⟨index, h⟩)

theorem mem_nodesFrom_of_valid (h : (memory.entry ⟨node, index⟩).isValid = true)
    (hmem : other ∈ nodesFrom memory height (memory.entry ⟨node, index⟩).page) :
    other ∈ nodesFrom memory (height + 1) node :=
  mem_nodesFrom_of_mem_nodesBelow (by rwa [nodesBelow_of_valid h])

theorem mem_interiorFrom_succ :
    other ∈ interiorFrom memory (height + 1) node ↔
      (∃ index, (memory.entry ⟨node, index⟩).isValid = true ∧
        other ∈ interiorFrom memory height (memory.entry ⟨node, index⟩).page) ∨ other = node := by
  simp only [interiorFrom, List.mem_append, List.mem_flatMap, List.mem_finRange, true_and,
    List.mem_singleton]
  refine or_congr (exists_congr fun index => ?_) Iff.rfl
  by_cases h : (memory.entry ⟨node, index⟩).isValid = true <;> simp [h]

theorem interiorFrom_subset : interiorFrom memory height node ⊆ nodesFrom memory height node := by
  induction height generalizing node with
  | zero => simp [interiorFrom]
  | succ height ih =>
      intro other hmem
      rcases mem_interiorFrom_succ.mp hmem with ⟨index, hvalid, hmem⟩ | rfl
      · exact mem_nodesFrom_of_valid hvalid (ih hmem)
      · exact self_mem_nodesFrom

-- In a tree whose nodes are distinct the parts behind different entries have no node in common,
-- and none of them contains the node they hang from.

theorem nodup_nodesBelow (h : (nodesFrom memory (height + 1) node).Nodup)
    (index : Fin nodeEntries) :
    (nodesBelow memory height node index).Nodup :=
  (List.nodup_flatMap.mp (List.nodup_append'.mp h).1).1 index (List.mem_finRange index)

theorem nodup_child (h : (nodesFrom memory (height + 1) node).Nodup)
    (hvalid : (memory.entry ⟨node, index⟩).isValid = true) :
    (nodesFrom memory height (memory.entry ⟨node, index⟩).page).Nodup := by
  have hbelow := nodup_nodesBelow h index
  rwa [nodesBelow_of_valid hvalid] at hbelow

theorem not_mem_nodesBelow (h : (nodesFrom memory (height + 1) node).Nodup) :
    node ∉ nodesBelow memory height node index := by
  intro hmem
  have hdisjoint := (List.nodup_append'.mp h).2.2
  exact hdisjoint (List.mem_flatMap.mpr ⟨index, List.mem_finRange index, hmem⟩) (by simp)

theorem eq_of_mem_nodesBelow {i j : Fin nodeEntries}
    (h : (nodesFrom memory (height + 1) node).Nodup)
    (hi : other ∈ nodesBelow memory height node i) (hj : other ∈ nodesBelow memory height node j) :
    i = j := by
  by_contra hne
  have hpairwise : (List.finRange nodeEntries).Pairwise
      (Function.onFun List.Disjoint (nodesBelow memory height node)) :=
    (List.nodup_flatMap.mp (List.nodup_append'.mp h).1).2
  have : Std.Symm (Function.onFun List.Disjoint (nodesBelow memory height node)) :=
    ⟨fun _ _ hdisjoint _ hmem hmem' => hdisjoint hmem' hmem⟩
  exact hpairwise.forall (List.mem_finRange i) (List.mem_finRange j) hne hi hj

theorem entry_eq_of_interior
    (h : ∀ other ∈ interiorFrom memory (height + 1) node,
      memory'.frame other = memory.frame other) (index : Fin nodeEntries) :
    memory'.entry ⟨node, index⟩ = memory.entry ⟨node, index⟩ :=
  Memory.entry_eq_of_frame_eq (h node (mem_interiorFrom_succ.mpr (Or.inr rfl)))

-- The tree is determined by its interior nodes.
theorem nodesFrom_congr
    (h : ∀ other ∈ interiorFrom memory height node, memory'.frame other = memory.frame other) :
    nodesFrom memory' height node = nodesFrom memory height node := by
  induction height generalizing node with
  | zero => rfl
  | succ height ih =>
      have hentry := entry_eq_of_interior h
      refine congrArg (· ++ [node]) (List.flatMap_congr fun index _ => ?_)
      simp only [hentry]
      split
      · rename_i hvalid
        exact ih fun other hmem =>
          h other (mem_interiorFrom_succ.mpr (Or.inl ⟨index, hvalid, hmem⟩))
      · rfl

theorem nodesBelow_congr (hentry : memory'.entry ⟨node, index⟩ = memory.entry ⟨node, index⟩)
    (hsame : ∀ other ∈ nodesBelow memory height node index,
      memory'.frame other = memory.frame other) :
    nodesBelow memory' height node index = nodesBelow memory height node index := by
  simp only [nodesBelow, hentry] at hsame ⊢
  split
  · rename_i hvalid
    rw [if_pos hvalid] at hsame
    exact nodesFrom_congr fun other hmem => hsame other (interiorFrom_subset hmem)
  · rfl

-- A node of empty entries has nothing below it.
theorem nodesFrom_of_empty (h : ∀ index, memory.entry ⟨node, index⟩ = .empty) :
    nodesFrom memory height node = [node] := by
  cases height with
  | zero => rfl
  | succ height => simp [nodesFrom, h, Entry.isValid_empty]

-- The slot of a page's leaf, if all nodes on the way to it are there.
def slotFrom (memory : Memory) (page : VirtPage) : Nat → PhysPage → Option EntrySlot
  | 0, node => some ⟨node, page.indexAt 0⟩
  | height + 1, node =>
      let entry := memory.entry ⟨node, page.indexAt (height + 1)⟩
      if entry.isValid then slotFrom memory page height entry.page else none

-- What is in the slot, if it is valid.
def mappedFrom (memory : Memory) (page : VirtPage) (height : Nat) (node : PhysPage) :
    Option Entry :=
  ((slotFrom memory page height node).map memory.entry).filter Entry.isValid

-- A walk over nodes that the window shows reads its slot off the tree.
theorem findFrom_eq (h : ∀ other ∈ nodesFrom memory height node, other.number < memory.frames) :
    findFrom memory page height node = .ok (slotFrom memory page height node) := by
  induction height generalizing node with
  | zero =>
      simp only [findFrom, Memory.reach_base (h node self_mem_nodesFrom)]
      rfl
  | succ height ih =>
      simp only [findFrom, Memory.reach_base (h node self_mem_nodesFrom), slotFrom]
      by_cases hvalid : (memory.entry ⟨node, page.indexAt (height + 1)⟩).isValid = true
      · have hchild := ih fun other hmem => h other (mem_nodesFrom_of_valid hvalid hmem)
        simpa [hvalid, bind, Except.bind] using hchild
      · simp [hvalid, bind, Except.bind, pure, Except.pure]

theorem findFrom_succ_of_valid (hwindow : node.number < memory.frames)
    (hvalid : (memory.entry ⟨node, page.indexAt (height + 1)⟩).isValid = true) :
    findFrom memory page (height + 1) node =
      findFrom memory page height (memory.entry ⟨node, page.indexAt (height + 1)⟩).page := by
  simp only [findFrom, Memory.reach_base hwindow, hvalid, if_true]
  rfl

theorem translate?_eq {table : PageTable}
    (h : ∀ other ∈ nodesFrom memory rootHeight table.root, other.number < memory.frames) :
    table.translate? page memory = .ok (mappedFrom memory page rootHeight table.root) := by
  simp only [translate?, find?, findFrom_eq h, mappedFrom]
  cases slotFrom memory page rootHeight table.root with
  | none => rfl
  | some slot => rfl

theorem slotFrom_congr
    (h : ∀ other ∈ interiorFrom memory height node, memory'.frame other = memory.frame other) :
    slotFrom memory' page height node = slotFrom memory page height node := by
  induction height generalizing node with
  | zero => rfl
  | succ height ih =>
      have hentry := entry_eq_of_interior h
      simp only [slotFrom, hentry]
      split
      · rename_i hvalid
        exact ih fun other hmem =>
          h other (mem_interiorFrom_succ.mpr (Or.inl ⟨_, hvalid, hmem⟩))
      · rfl

theorem slotFrom_succ_of_valid
    (h : (memory.entry ⟨node, page.indexAt (height + 1)⟩).isValid = true) :
    slotFrom memory page (height + 1) node =
      slotFrom memory page height (memory.entry ⟨node, page.indexAt (height + 1)⟩).page :=
  if_pos h

theorem slotFrom_succ_eq_some (h : slotFrom memory page (height + 1) node = some slot) :
    (memory.entry ⟨node, page.indexAt (height + 1)⟩).isValid = true ∧
      slotFrom memory page height (memory.entry ⟨node, page.indexAt (height + 1)⟩).page =
        some slot := by
  simp only [slotFrom] at h
  split at h
  · rename_i hvalid
    exact ⟨hvalid, h⟩
  · cases h

theorem slotFrom_node_mem (h : slotFrom memory page height node = some slot) :
    slot.node ∈ nodesFrom memory height node := by
  induction height generalizing node with
  | zero =>
      cases h
      exact self_mem_nodesFrom
  | succ height ih =>
      obtain ⟨hvalid, h⟩ := slotFrom_succ_eq_some h
      exact mem_nodesFrom_of_valid hvalid (ih h)

-- A page whose part of the tree is spared has the slot it had, with what it held.
theorem slotFrom_succ_congr
    (hentry : memory'.entry ⟨node, page.indexAt (height + 1)⟩ =
      memory.entry ⟨node, page.indexAt (height + 1)⟩)
    (hsame : ∀ other ∈ nodesBelow memory height node (page.indexAt (height + 1)),
      memory'.frame other = memory.frame other) :
    slotFrom memory' page (height + 1) node = slotFrom memory page (height + 1) node ∧
      ∀ slot, slotFrom memory page (height + 1) node = some slot →
        memory'.entry slot = memory.entry slot := by
  by_cases hvalid : (memory.entry ⟨node, page.indexAt (height + 1)⟩).isValid = true
  · rw [nodesBelow_of_valid hvalid] at hsame
    rw [slotFrom_succ_of_valid hvalid, slotFrom_succ_of_valid (hentry ▸ hvalid), hentry,
      slotFrom_congr fun other hmem => hsame other (interiorFrom_subset hmem)]
    exact ⟨rfl, fun slot hslot =>
      Memory.entry_eq_of_frame_eq (hsame slot.node (slotFrom_node_mem hslot))⟩
  · simp [slotFrom, hentry, hvalid]

theorem entry_of_slotFrom_of_empty (h : ∀ index, memory.entry ⟨node, index⟩ = .empty)
    (hslot : slotFrom memory page height node = some slot) : memory.entry slot = .empty := by
  cases height with
  | zero =>
      cases hslot
      exact h _
  | succ height => simp [slotFrom, h, Entry.isValid_empty] at hslot

-- The slot of a leaf is not in an interior node.
theorem slotFrom_node_not_mem_interior (hnodup : (nodesFrom memory height node).Nodup)
    (h : slotFrom memory page height node = some slot) :
    slot.node ∉ interiorFrom memory height node := by
  induction height generalizing node with
  | zero => simp [interiorFrom]
  | succ height ih =>
      obtain ⟨hvalid, h⟩ := slotFrom_succ_eq_some h
      have hmem : slot.node ∈ nodesBelow memory height node (page.indexAt (height + 1)) := by
        rw [nodesBelow_of_valid hvalid]
        exact slotFrom_node_mem h
      intro hinterior
      rcases mem_interiorFrom_succ.mp hinterior with ⟨index, hvalid', hmem'⟩ | hroot
      · have hbelow : slot.node ∈ nodesBelow memory height node index := by
          rw [nodesBelow_of_valid hvalid']
          exact interiorFrom_subset hmem'
        cases eq_of_mem_nodesBelow hnodup hbelow hmem
        exact ih (nodup_child hnodup hvalid) h hmem'
      · exact not_mem_nodesBelow hnodup (hroot ▸ hmem)

-- Pages with one slot have the same indices.
theorem indexAt_eq_of_slotFrom_eq (hnodup : (nodesFrom memory height node).Nodup)
    (h : slotFrom memory page height node = some slot)
    (h' : slotFrom memory page' height node = some slot) :
    ∀ level ≤ height, page.indexAt level = page'.indexAt level := by
  induction height generalizing node with
  | zero =>
      intro level hlevel
      cases Nat.le_zero.mp hlevel
      rw [slotFrom, Option.some_inj] at h h'
      exact congrArg EntrySlot.index (h.trans h'.symm)
  | succ height ih =>
      obtain ⟨hvalid, h⟩ := slotFrom_succ_eq_some h
      obtain ⟨hvalid', h'⟩ := slotFrom_succ_eq_some h'
      have hmem : slot.node ∈ nodesBelow memory height node (page.indexAt (height + 1)) := by
        rw [nodesBelow_of_valid hvalid]
        exact slotFrom_node_mem h
      have hmem' : slot.node ∈ nodesBelow memory height node (page'.indexAt (height + 1)) := by
        rw [nodesBelow_of_valid hvalid']
        exact slotFrom_node_mem h'
      have heq := eq_of_mem_nodesBelow hnodup hmem hmem'
      intro level hlevel
      rcases Nat.le_succ_iff.mp hlevel with hlevel | rfl
      · exact ih (nodup_child hnodup hvalid) h (heq ▸ h') level hlevel
      · exact heq

end PagedMemory.PageTable
