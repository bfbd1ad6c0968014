import PagedMemory.Proofs.Table.Nodes

namespace PagedMemory.PageTable

variable {memory memory' memory'' : Memory} {height : Nat} {node child : PhysPage}
  {index : Fin nodeEntries} {fresh fresh' : List PhysPage}

-- Entries are compared here and never computed.
attribute [local irreducible] Memory.entry

-- A tree has got new nodes. Slots that were there are where they were, with what they held, and new
-- slots are empty. No other frame is touched.
structure Grown (memory memory' : Memory) (height : Nat) (node : PhysPage)
    (fresh : List PhysPage) : Prop where
  frames : memory'.frames = memory.frames
  nodes : (nodesFrom memory' height node).Perm (fresh ++ nodesFrom memory height node)
  spared : ∀ other, other ∉ fresh → other ∉ nodesFrom memory height node →
    memory'.frame other = memory.frame other
  kept : ∀ page slot, slotFrom memory page height node = some slot →
    slotFrom memory' page height node = some slot ∧ memory'.entry slot = memory.entry slot
  added : ∀ page slot, slotFrom memory page height node = none →
    slotFrom memory' page height node = some slot → memory'.entry slot = .empty

-- A flat map changes by what one index brings.
theorem flatMap_finRange_perm {α : Type} {n : Nat} {f g : Fin n → List α} {added : List α}
    (i : Fin n) (hi : (g i).Perm (added ++ f i)) (hother : ∀ j ≠ i, g j = f j) :
    ((List.finRange n).flatMap g).Perm (added ++ (List.finRange n).flatMap f) := by
  have hperm := List.perm_cons_erase (List.mem_finRange i)
  have hrest : ((List.finRange n).erase i).flatMap g = ((List.finRange n).erase i).flatMap f := by
    apply List.flatMap_congr
    intro j hj
    exact hother j ((List.Nodup.mem_erase_iff (List.nodup_finRange n)).mp hj).1
  calc (List.finRange n).flatMap g
      _ |>.Perm (g i ++ ((List.finRange n).erase i).flatMap g) := hperm.flatMap_right g
      _ |>.Perm ((added ++ f i) ++ ((List.finRange n).erase i).flatMap f) := by
        rw [hrest]
        exact hi.append_right _
      _ |>.Perm (added ++ (List.finRange n).flatMap f) := by
        rw [List.append_assoc]
        exact (hperm.flatMap_right f).symm.append_left added

namespace Grown

theorem refl (memory : Memory) (height : Nat) (node : PhysPage) :
    Grown memory memory height node [] :=
  ⟨rfl, List.Perm.refl _, fun _ _ _ => rfl, fun _ _ h => ⟨h, rfl⟩,
    fun _ _ hnone hsome => by rw [hnone] at hsome; cases hsome⟩

theorem trans (h : Grown memory memory' height node fresh)
    (h' : Grown memory' memory'' height node fresh') :
    Grown memory memory'' height node (fresh ++ fresh') where
  frames := h'.frames.trans h.frames
  nodes := by
    rw [List.append_assoc]
    exact (h'.nodes.trans (h.nodes.append_left fresh')).trans (List.perm_append_comm_assoc ..)
  spared := fun other hfresh hnodes => by
    rw [List.mem_append, not_or] at hfresh
    have hnodes' : other ∉ nodesFrom memory' height node := by
      rw [h.nodes.mem_iff, List.mem_append, not_or]
      exact ⟨hfresh.1, hnodes⟩
    exact (h'.spared other hfresh.2 hnodes').trans (h.spared other hfresh.1 hnodes)
  kept := fun page slot hslot => by
    obtain ⟨hslot', hentry⟩ := h.kept page slot hslot
    obtain ⟨hslot'', hentry'⟩ := h'.kept page slot hslot'
    exact ⟨hslot'', hentry'.trans hentry⟩
  added := fun page slot hnone hsome => by
    cases hslot : slotFrom memory' page height node with
    | none => exact h'.added page slot hslot hsome
    | some slot' =>
        obtain ⟨hslot'', hentry⟩ := h'.kept page slot' hslot
        rw [hsome, Option.some_inj] at hslot''
        subst hslot''
        exact hentry.trans (h.added page slot hnone hslot)

-- Every page maps to what it mapped to.
theorem mappedFrom_eq (h : Grown memory memory' height node fresh) (page : VirtPage) :
    mappedFrom memory' page height node = mappedFrom memory page height node := by
  simp only [mappedFrom]
  cases hslot : slotFrom memory page height node with
  | some slot =>
      obtain ⟨hslot', hentry⟩ := h.kept page slot hslot
      simp [hslot', hentry]
  | none =>
      cases hslot' : slotFrom memory' page height node with
      | none => simp
      | some slot =>
          simp [h.added page slot hslot hslot', Entry.isValid_empty]

-- Growth behind one entry of a node spares the node.
theorem entry_eq (hnodup : (nodesFrom memory (height + 1) node).Nodup)
    (hvalid : (memory.entry ⟨node, index⟩).isValid = true)
    (hfresh : ∀ frame ∈ fresh, frame ∉ nodesFrom memory (height + 1) node)
    (h : Grown memory memory' height (memory.entry ⟨node, index⟩).page fresh)
    (other : Fin nodeEntries) : memory'.entry ⟨node, other⟩ = memory.entry ⟨node, other⟩ := by
  apply Memory.entry_eq_of_frame_eq
  apply h.spared
  · exact fun hmem => hfresh node hmem self_mem_nodesFrom
  · rw [← nodesBelow_of_valid hvalid]
    exact not_mem_nodesBelow hnodup

-- It spares the nodes behind the other entries.
theorem nodesBelow_spared {other : Fin nodeEntries}
    (hnodup : (nodesFrom memory (height + 1) node).Nodup)
    (hvalid : (memory.entry ⟨node, index⟩).isValid = true)
    (hfresh : ∀ frame ∈ fresh, frame ∉ nodesFrom memory (height + 1) node)
    (h : Grown memory memory' height (memory.entry ⟨node, index⟩).page fresh)
    (hne : other ≠ index) (frame : PhysPage) (hmem : frame ∈ nodesBelow memory height node other) :
    memory'.frame frame = memory.frame frame := by
  apply h.spared
  · exact fun hin => hfresh frame hin (mem_nodesFrom_of_mem_nodesBelow hmem)
  · rw [← nodesBelow_of_valid hvalid]
    exact fun hin => hne (eq_of_mem_nodesBelow hnodup hmem hin)

-- Pages behind other entries keep their slots, with what they hold.
theorem slotFrom_other {page : VirtPage} (hnodup : (nodesFrom memory (height + 1) node).Nodup)
    (hvalid : (memory.entry ⟨node, index⟩).isValid = true)
    (hfresh : ∀ frame ∈ fresh, frame ∉ nodesFrom memory (height + 1) node)
    (h : Grown memory memory' height (memory.entry ⟨node, index⟩).page fresh)
    (hne : page.indexAt (height + 1) ≠ index) :
    slotFrom memory' page (height + 1) node = slotFrom memory page (height + 1) node ∧
      ∀ slot, slotFrom memory page (height + 1) node = some slot →
        memory'.entry slot = memory.entry slot :=
  slotFrom_succ_congr (h.entry_eq hnodup hvalid hfresh _) (h.nodesBelow_spared hnodup hvalid hfresh hne)

-- Growth behind one entry of a node is growth of the tree under the node.
theorem lift (hnodup : (nodesFrom memory (height + 1) node).Nodup)
    (hvalid : (memory.entry ⟨node, index⟩).isValid = true)
    (hfresh : ∀ frame ∈ fresh, frame ∉ nodesFrom memory (height + 1) node)
    (h : Grown memory memory' height (memory.entry ⟨node, index⟩).page fresh) :
    Grown memory memory' (height + 1) node fresh := by
  have hentry := h.entry_eq hnodup hvalid hfresh
  refine ⟨h.frames, ?_, ?_, ?_, ?_⟩
  · rw [nodesFrom_succ, nodesFrom_succ, ← List.append_assoc]
    refine (flatMap_finRange_perm index ?_ fun other hne => ?_).append_right [node]
    · rw [nodesBelow_of_valid hvalid, nodesBelow_of_valid (hentry index ▸ hvalid), hentry]
      exact h.nodes
    · exact nodesBelow_congr (hentry other) (h.nodesBelow_spared hnodup hvalid hfresh hne)
  · exact fun other hin hnot =>
      h.spared other hin fun hmem => hnot (mem_nodesFrom_of_valid hvalid hmem)
  · intro page slot hslot
    by_cases hindex : page.indexAt (height + 1) = index
    · subst hindex
      rw [slotFrom_succ_of_valid hvalid] at hslot
      rw [slotFrom_succ_of_valid (hentry _ ▸ hvalid), hentry]
      exact h.kept page slot hslot
    · obtain ⟨hsame, hslots⟩ := h.slotFrom_other hnodup hvalid hfresh hindex
      exact ⟨hsame.trans hslot, hslots slot hslot⟩
  · intro page slot hnone hsome
    by_cases hindex : page.indexAt (height + 1) = index
    · subst hindex
      rw [slotFrom_succ_of_valid hvalid] at hnone
      rw [slotFrom_succ_of_valid (hentry _ ▸ hvalid), hentry] at hsome
      exact h.added page slot hnone hsome
    · rw [(h.slotFrom_other hnodup hvalid hfresh hindex).1, hnone] at hsome
      cases hsome

end Grown

-- A node of zeros is put behind an entry.
def linkNode (memory : Memory) (slot : EntrySlot) (child : PhysPage) : Memory :=
  (memory.fillFrame child 0).setEntry slot (.node child)

theorem frames_linkNode (memory : Memory) (slot : EntrySlot) (child : PhysPage) :
    (linkNode memory slot child).frames = memory.frames := by
  rw [linkNode, Memory.frames_setEntry, Memory.frames_fillFrame]

theorem frame_linkNode {slot : EntrySlot} {other : PhysPage} (hchild : other ≠ child)
    (hnode : other ≠ slot.node) : (linkNode memory slot child).frame other = memory.frame other := by
  rw [linkNode, Memory.frame_setEntry_other hnode, Memory.frame_fillFrame_other hchild]

theorem entry_linkNode {slot : EntrySlot} (h : slot.node.number < memory.frames) :
    (linkNode memory slot child).entry slot = .node child :=
  Memory.entry_setEntry_same _ (by rwa [Memory.frames_fillFrame])

theorem entry_linkNode_other {other : Fin nodeEntries} (hne : child ≠ node) (hother : other ≠ index) :
    (linkNode memory ⟨node, index⟩ child).entry ⟨node, other⟩ = memory.entry ⟨node, other⟩ := by
  rw [linkNode, Memory.entry_setEntry_other fun heq => hother (congrArg EntrySlot.index heq)]
  exact Memory.entry_eq_of_frame_eq (Memory.frame_fillFrame_other (Ne.symm hne))

theorem entry_linkNode_child {slot : EntrySlot} (hne : child ≠ slot.node)
    (h : child.number < memory.frames) (other : Fin nodeEntries) :
    (linkNode memory slot child).entry ⟨child, other⟩ = .empty := by
  rw [linkNode, Memory.entry_setEntry_other fun heq => hne (congrArg EntrySlot.node heq)]
  exact Memory.entry_fillFrame_zero other h

-- A new node in a tree spares the nodes that are there, but for the one it hangs from.
theorem nodesBelow_linkNode (hnodup : (nodesFrom memory (height + 1) node).Nodup)
    (hchild : child ∉ nodesFrom memory (height + 1) node) (other : Fin nodeEntries)
    (frame : PhysPage) (hmem : frame ∈ nodesBelow memory height node other) :
    (linkNode memory ⟨node, index⟩ child).frame frame = memory.frame frame := by
  apply frame_linkNode
  · exact fun heq => hchild (mem_nodesFrom_of_mem_nodesBelow (heq ▸ hmem))
  · exact fun heq => not_mem_nodesBelow hnodup (heq ▸ hmem)

-- Pages behind other entries keep their slots, with what they hold.
theorem slotFrom_linkNode_other {page : VirtPage} (hnodup : (nodesFrom memory (height + 1) node).Nodup)
    (hchild : child ∉ nodesFrom memory (height + 1) node)
    (hother : page.indexAt (height + 1) ≠ index) :
    slotFrom (linkNode memory ⟨node, index⟩ child) page (height + 1) node =
        slotFrom memory page (height + 1) node ∧
      ∀ slot, slotFrom memory page (height + 1) node = some slot →
        (linkNode memory ⟨node, index⟩ child).entry slot = memory.entry slot :=
  slotFrom_succ_congr
    (entry_linkNode_other (fun heq => hchild (heq ▸ self_mem_nodesFrom)) hother)
    (nodesBelow_linkNode hnodup hchild _)

-- A node that is put behind an empty entry of a tree is all that is new.
theorem grown_linkNode (hnodup : (nodesFrom memory (height + 1) node).Nodup)
    (hempty : (memory.entry ⟨node, index⟩).isValid = false)
    (hchild : child ∉ nodesFrom memory (height + 1) node)
    (hnodeWindow : node.number < memory.frames) (hchildWindow : child.number < memory.frames) :
    Grown memory (linkNode memory ⟨node, index⟩ child) (height + 1) node [child] := by
  have hne : child ≠ node := fun heq => hchild (heq ▸ self_mem_nodesFrom)
  have hlinked : (linkNode memory ⟨node, index⟩ child).entry ⟨node, index⟩ = .node child :=
    entry_linkNode hnodeWindow
  have hvalid : ((linkNode memory ⟨node, index⟩ child).entry ⟨node, index⟩).isValid = true := by
    rw [hlinked, Entry.isValid_node]
  have hpage : ((linkNode memory ⟨node, index⟩ child).entry ⟨node, index⟩).page = child := by
    rw [hlinked, Entry.page_node]
  have hzero : ∀ other, (linkNode memory ⟨node, index⟩ child).entry ⟨child, other⟩ = .empty :=
    entry_linkNode_child hne hchildWindow
  refine ⟨frames_linkNode _ _ _, ?_, ?_, ?_, ?_⟩
  · rw [nodesFrom_succ, nodesFrom_succ, ← List.append_assoc]
    refine (flatMap_finRange_perm index ?_ fun other hother => ?_).append_right [node]
    · rw [nodesBelow_of_valid hvalid, hpage, nodesFrom_of_empty hzero]
      simp [nodesBelow, hempty]
    · exact nodesBelow_congr (entry_linkNode_other hne hother)
        (nodesBelow_linkNode hnodup hchild other)
  · intro other hother hnodes
    exact frame_linkNode (by simpa using hother) fun heq => hnodes (heq ▸ self_mem_nodesFrom)
  · intro page slot hslot
    have hother : page.indexAt (height + 1) ≠ index := by
      rintro rfl
      simp [slotFrom, hempty] at hslot
    obtain ⟨hsame, hslots⟩ := slotFrom_linkNode_other hnodup hchild hother
    exact ⟨hsame.trans hslot, hslots slot hslot⟩
  · intro page slot hnone hsome
    by_cases hindex : page.indexAt (height + 1) = index
    · subst hindex
      rw [slotFrom_succ_of_valid hvalid, hpage] at hsome
      exact entry_of_slotFrom_of_empty hzero hsome
    · rw [(slotFrom_linkNode_other hnodup hchild hindex).1, hnone] at hsome
      cases hsome

end PagedMemory.PageTable
