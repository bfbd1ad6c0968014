import PagedMemory.Proofs.Table.Growth

namespace PagedMemory

-- A page is determined by its indices.
theorem VirtPage.ext_indexAt {p q : VirtPage}
    (h : ∀ level ≤ PageTable.rootHeight, p.indexAt level = q.indexAt level) : p = q := by
  have h0 := h 0 (by decide)
  have h1 := h 1 (by decide)
  have h2 := h 2 (by decide)
  have hnumber : p.number = q.number := by
    rw [p.number_eq_indices, q.number_eq_indices, h0, h1, h2]
  cases p
  cases q
  cases hnumber
  rfl

namespace PageTable

variable {memory memory' : Memory} {height : Nat} {node : PhysPage} {page other : VirtPage}
  {slot : EntrySlot} {entry : Entry} {fresh : List PhysPage}

-- Contents of memory are compared here and never computed.
attribute [local irreducible] Memory.entry Memory.setEntry

theorem mappedFrom_congr
    (h : ∀ other ∈ nodesFrom memory height node, memory'.frame other = memory.frame other) :
    mappedFrom memory' page height node = mappedFrom memory page height node := by
  have hslots : slotFrom memory' page height node = slotFrom memory page height node :=
    slotFrom_congr fun other hmem => h other (interiorFrom_subset hmem)
  rw [mappedFrom, mappedFrom, hslots]
  cases hslot : slotFrom memory page height node with
  | none => rfl
  | some slot =>
      rw [Option.map_some, Option.map_some,
        Memory.entry_eq_of_frame_eq (h slot.node (slotFrom_node_mem hslot))]

-- A write outside the interior nodes of a tree leaves its shape alone.

theorem nodesFrom_setEntry (h : slot.node ∉ interiorFrom memory height node) :
    nodesFrom (memory.setEntry slot entry) height node = nodesFrom memory height node :=
  nodesFrom_congr fun _ hmem => Memory.frame_setEntry_other fun heq => h (heq ▸ hmem)

theorem slotFrom_setEntry (h : slot.node ∉ interiorFrom memory height node) :
    slotFrom (memory.setEntry slot entry) page height node = slotFrom memory page height node :=
  slotFrom_congr fun _ hmem => Memory.frame_setEntry_other fun heq => h (heq ▸ hmem)

-- The page whose leaf is written maps to what is written, if that is valid.
theorem mappedFrom_setEntry_same (hnodup : (nodesFrom memory height node).Nodup)
    (hwindow : slot.node.number < memory.frames)
    (hslot : slotFrom memory page height node = some slot) :
    mappedFrom (memory.setEntry slot entry) page height node =
      (some entry).filter Entry.isValid := by
  have hinterior := slotFrom_node_not_mem_interior hnodup hslot
  rw [mappedFrom, slotFrom_setEntry hinterior, hslot, Option.map_some,
    Memory.entry_setEntry_same _ hwindow]

-- No other page is concerned: no two pages have one leaf.
theorem mappedFrom_setEntry_other (hnodup : (nodesFrom memory rootHeight node).Nodup)
    (hslot : slotFrom memory page rootHeight node = some slot) (hne : other ≠ page) :
    mappedFrom (memory.setEntry slot entry) other rootHeight node =
      mappedFrom memory other rootHeight node := by
  have hinterior := slotFrom_node_not_mem_interior hnodup hslot
  rw [mappedFrom, mappedFrom, slotFrom_setEntry hinterior]
  cases hother : slotFrom memory other rootHeight node with
  | none => rfl
  | some otherSlot =>
      have hslots : otherSlot ≠ slot := by
        rintro rfl
        exact hne (VirtPage.ext_indexAt (indexAt_eq_of_slotFrom_eq hnodup hother hslot))
      rw [Option.map_some, Option.map_some, Memory.entry_setEntry_other hslots]

-- What an operation on one page of a table may do to memory: the table gets new nodes, and the page
-- maps to something else.
structure Remapped (memory memory' : Memory) (root : PhysPage) (fresh : List PhysPage)
    (page : VirtPage) (mapping : Option Entry) : Prop where
  frames : memory'.frames = memory.frames
  nodes : (nodesFrom memory' rootHeight root).Perm (fresh ++ nodesFrom memory rootHeight root)
  spared : ∀ other, other ∉ fresh → other ∉ nodesFrom memory rootHeight root →
    memory'.frame other = memory.frame other
  same : mappedFrom memory' page rootHeight root = mapping
  others : ∀ other ≠ page,
    mappedFrom memory' other rootHeight root = mappedFrom memory other rootHeight root

theorem Grown.remapped (h : Grown memory memory' rootHeight node fresh) (page : VirtPage) :
    Remapped memory memory' node fresh page (mappedFrom memory page rootHeight node) where
  frames := h.frames
  nodes := h.nodes
  spared := h.spared
  same := h.mappedFrom_eq page
  others := fun other _ => h.mappedFrom_eq other

-- New nodes, and then a new leaf.
theorem Grown.remapped_setEntry (h : Grown memory memory' rootHeight node fresh) (entry : Entry)
    (hnodup : (nodesFrom memory' rootHeight node).Nodup)
    (hwindow : slot.node.number < memory'.frames)
    (hslot : slotFrom memory' page rootHeight node = some slot) :
    Remapped memory (memory'.setEntry slot entry) node fresh page
      ((some entry).filter Entry.isValid) := by
  have hnodes : nodesFrom (memory'.setEntry slot entry) rootHeight node =
      nodesFrom memory' rootHeight node :=
    nodesFrom_setEntry (slotFrom_node_not_mem_interior hnodup hslot)
  refine ⟨(Memory.frames_setEntry _ _ _).trans h.frames, ?_, ?_, ?_, ?_⟩
  · rw [hnodes]
    exact h.nodes
  · intro frame hfresh hold
    have hne : frame ≠ slot.node := by
      rintro rfl
      have hmem := h.nodes.mem_iff.mp (slotFrom_node_mem hslot)
      rcases List.mem_append.mp hmem with hmem | hmem
      · exact hfresh hmem
      · exact hold hmem
    rw [Memory.frame_setEntry_other hne]
    exact h.spared frame hfresh hold
  · exact mappedFrom_setEntry_same hnodup hwindow hslot
  · intro other hne
    rw [mappedFrom_setEntry_other hnodup hslot hne]
    exact h.mappedFrom_eq other

end PageTable

end PagedMemory
