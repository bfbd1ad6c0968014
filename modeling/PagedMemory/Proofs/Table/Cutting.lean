import PagedMemory.Proofs.Table.Mapping

namespace PagedMemory.PageTable

variable {memory : Memory} {height : Nat} {node : PhysPage} {slot : EntrySlot}
  {index : Fin nodeEntries} {root : PhysPage} {flags : Flags}

-- Contents of memory are compared here and never computed.
attribute [local irreducible] Memory.entry Memory.setEntry

-- A write to a frame that is not behind an entry leaves what is behind it alone.
theorem nodesBelow_setEntry (hslot : ⟨node, index⟩ ≠ slot)
    (hmem : slot.node ∉ nodesBelow memory height node index) :
    nodesBelow (memory.setEntry slot .empty) height node index =
      nodesBelow memory height node index :=
  nodesBelow_congr (Memory.entry_setEntry_other hslot) fun _ hbelow =>
    Memory.frame_setEntry_other fun heq => hmem (heq ▸ hbelow)

-- Clearing a valid entry that points at a node cuts the nodes behind it off the tree.
theorem exists_lost (hnodup : (nodesFrom memory height node).Nodup)
    (hwindow : slot.node.number < memory.frames)
    (hinterior : slot.node ∈ interiorFrom memory height node)
    (hvalid : (memory.entry slot).isValid = true) :
    ∃ lost, lost ≠ [] ∧ (nodesFrom memory height node).Perm
      (lost ++ nodesFrom (memory.setEntry slot .empty) height node) := by
  induction height generalizing node with
  | zero => cases hinterior
  | succ height ih =>
      rcases mem_interiorFrom_succ.mp hinterior with ⟨index, hbelow, hmem⟩ | hroot
      · -- The entry is further down: the entry that leads there stays, and so do all others.
        have hin : slot.node ∈ nodesBelow memory height node index := by
          rw [nodesBelow_of_valid hbelow]
          exact interiorFrom_subset hmem
        have hne : slot.node ≠ node := fun heq => not_mem_nodesBelow hnodup (heq ▸ hin)
        have hothers : ∀ other : Fin nodeEntries, ⟨node, other⟩ ≠ slot := by
          rintro other rfl
          exact hne rfl
        obtain ⟨lost, hlost, hperm⟩ := ih (nodup_child hnodup hbelow) hmem
        refine ⟨lost, hlost, ?_⟩
        rw [nodesFrom_succ, nodesFrom_succ, ← List.append_assoc]
        refine (flatMap_finRange_perm index ?_ fun other hother => ?_).append_right _
        · have hentry : (memory.setEntry slot .empty).entry ⟨node, index⟩ =
              memory.entry ⟨node, index⟩ := Memory.entry_setEntry_other (hothers index)
          rw [nodesBelow_of_valid hbelow, nodesBelow_of_valid (by rw [hentry]; exact hbelow), hentry]
          exact hperm
        · refine (nodesBelow_setEntry (hothers other) fun hin' => ?_).symm
          exact hother (eq_of_mem_nodesBelow hnodup hin' hin)
      · -- The entry is one of the node's own: all that is behind it is lost.
        subst hroot
        refine ⟨nodesBelow memory height slot.node slot.index, fun hnil => ?_, ?_⟩
        · rw [nodesBelow_of_valid hvalid] at hnil
          exact List.ne_nil_of_mem self_mem_nodesFrom hnil
        · rw [nodesFrom_succ, nodesFrom_succ, ← List.append_assoc]
          refine (flatMap_finRange_perm slot.index ?_ fun other hother => ?_).append_right _
          · have hempty : nodesBelow (memory.setEntry slot .empty) height slot.node slot.index = [] :=
              if_neg (by rw [Memory.entry_setEntry_same _ hwindow]; decide)
            rw [hempty, List.append_nil]
          · refine (nodesBelow_setEntry (fun heq => ?_) (not_mem_nodesBelow hnodup)).symm
            exact hother (congrArg EntrySlot.index heq)

-- A root that page zero is mapped to. Seen from the node below it the root is a node of leaves, and
-- its first entry is taken for the leaf of page zero.
theorem exists_inner_view
    (hwindow : ∀ other ∈ nodesFrom memory rootHeight root, other.number < memory.frames)
    (hmapped : mappedFrom memory (.ofNat 0) rootHeight root = some (.leaf root flags)) :
    ∃ inner found, findFrom memory (.ofNat 0) rootHeight inner = .ok (some found) ∧
      found.node = root ∧ (memory.entry found).isValid = true := by
  obtain ⟨slot, hslot, hentry, hleaf⟩ := mappedFrom_eq_some hmapped
  have hindex : ∀ level, (VirtPage.ofNat 0).indexAt level = ⟨0, by decide⟩ := fun level =>
    Fin.ext (by simp [VirtPage.indexAt, VirtPage.ofNat])
  change slotFrom memory (.ofNat 0) (1 + 1) root = some slot at hslot
  obtain ⟨hroot, hslot⟩ := slotFrom_succ_eq_some hslot
  obtain ⟨hinner, hslot⟩ := slotFrom_succ_eq_some hslot
  cases hslot
  simp only [hindex] at hroot hinner hentry
  let inner := (memory.entry ⟨root, ⟨0, by decide⟩⟩).page
  let leaves := (memory.entry ⟨inner, ⟨0, by decide⟩⟩).page
  have hleaves : leaves ∈ nodesFrom memory 1 inner := mem_nodesFrom_of_valid hinner self_mem_nodesFrom
  have hbelow : ∀ other ∈ nodesFrom memory 1 inner, other.number < memory.frames :=
    fun other hmem => hwindow other (mem_nodesFrom_of_valid hroot hmem)
  refine ⟨inner, ⟨root, ⟨0, by decide⟩⟩, ?_, rfl, hroot⟩
  have hfirst : findFrom memory (.ofNat 0) (1 + 1) inner =
      findFrom memory (.ofNat 0) (0 + 1) leaves := by
    rw [findFrom_succ_of_valid (hbelow inner self_mem_nodesFrom) (by rwa [hindex]), hindex]
  have hsecond : findFrom memory (.ofNat 0) (0 + 1) leaves = findFrom memory (.ofNat 0) 0 root := by
    rw [findFrom_succ_of_valid (hbelow leaves hleaves) (by rwa [hindex, hentry]), hindex, hentry,
      Entry.page_leaf]
  have hlast : findFrom memory (.ofNat 0) 0 root = .ok (some ⟨root, (VirtPage.ofNat 0).indexAt 0⟩) :=
    findFrom_eq fun other hmem => by
      rw [List.mem_singleton.mp hmem]
      exact hwindow root self_mem_nodesFrom
  rw [hindex] at hlast
  exact hfirst.trans (hsecond.trans hlast)

end PagedMemory.PageTable
