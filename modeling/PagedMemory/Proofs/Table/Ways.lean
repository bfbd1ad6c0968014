import PagedMemory.Proofs.Table.Growth

namespace PagedMemory

namespace VirtPage

variable {page other : VirtPage} {height : Nat}

-- Pages that share the way from a node of the given height to the node of their leaves.
def SharesWay (page other : VirtPage) (height : Nat) : Prop :=
  ∀ level, 0 < level → level ≤ height → other.indexAt level = page.indexAt level

theorem sharesWay_zero (page other : VirtPage) : page.SharesWay other 0 :=
  fun _ hpos hle => absurd hpos (Nat.not_lt_of_le hle)

theorem sharesWay_succ :
    page.SharesWay other (height + 1) ↔
      page.SharesWay other height ∧ other.indexAt (height + 1) = page.indexAt (height + 1) := by
  refine ⟨fun h => ⟨fun level hpos hle => h level hpos (Nat.le_succ_of_le hle),
    h (height + 1) (Nat.succ_pos height) (Nat.le_refl _)⟩, fun h level hpos hle => ?_⟩
  rcases Nat.le_succ_iff.mp hle with hle | rfl
  · exact h.1 level hpos hle
  · exact h.2

-- From the root, all bits of a page's number but the lowest nine name its way.
theorem sharesWay_rootHeight_iff :
    page.SharesWay other PageTable.rootHeight ↔
      other.number >>> indexBits = page.number >>> indexBits := by
  have hpage := page.isLt
  have hother := other.isLt
  rw [show PageTable.rootHeight = 0 + 1 + 1 from rfl, sharesWay_succ, sharesWay_succ,
    and_iff_right (sharesWay_zero page other)]
  simp only [indexAt, Fin.mk.injEq, nodeEntries_eq, indexBits, Nat.shiftRight_eq_div_pow]
  omega

end VirtPage

namespace PageTable

variable {memory memory' : Memory} {height : Nat} {node : PhysPage} {page other : VirtPage}
  {slot : EntrySlot} {fresh : List PhysPage}

-- Entries are compared here and never computed.
attribute [local irreducible] Memory.entry

-- Pages that share the way have their leaves in one node.
theorem slotFrom_of_sharesWay (h : page.SharesWay other height)
    (hslot : slotFrom memory page height node = some slot) :
    slotFrom memory other height node = some ⟨slot.node, other.indexAt 0⟩ := by
  induction height generalizing node with
  | zero =>
      cases hslot
      rfl
  | succ height ih =>
      obtain ⟨hway, hindex⟩ := VirtPage.sharesWay_succ.mp h
      obtain ⟨hvalid, hslot⟩ := slotFrom_succ_eq_some hslot
      rw [slotFrom_succ_of_valid (hindex ▸ hvalid), hindex]
      exact ih hway hslot

-- The first of the frames become the nodes that are missing on the way to a page's leaf.
def linkMissing (page : VirtPage) : Nat → PhysPage → List PhysPage → Memory → Memory
  | 0, _, _, memory => memory
  | height + 1, node, fresh, memory =>
      let slot : EntrySlot := ⟨node, page.indexAt (height + 1)⟩
      let entry := memory.entry slot
      if entry.isValid then linkMissing page height entry.page fresh memory
      else match fresh with
        | [] => memory
        | child :: rest => linkMissing page height child rest (linkNode memory slot child)

theorem linkMissing_of_valid
    (h : (memory.entry ⟨node, page.indexAt (height + 1)⟩).isValid = true) :
    linkMissing page (height + 1) node fresh memory =
      linkMissing page height (memory.entry ⟨node, page.indexAt (height + 1)⟩).page fresh memory :=
  if_pos h

theorem linkMissing_of_cons {child : PhysPage} {rest : List PhysPage}
    (h : (memory.entry ⟨node, page.indexAt (height + 1)⟩).isValid = false) :
    linkMissing page (height + 1) node (child :: rest) memory =
      linkMissing page height child rest
        (linkNode memory ⟨node, page.indexAt (height + 1)⟩ child) := by
  simp only [linkMissing, h, Bool.false_eq_true, if_false]

@[simp]
theorem linkMissing_nil (page : VirtPage) (height : Nat) (node : PhysPage) (memory : Memory) :
    linkMissing page height node [] memory = memory := by
  induction height generalizing node with
  | zero => rfl
  | succ height ih =>
      rw [linkMissing]
      split
      · exact ih _
      · rfl

-- A tree has grown along the way to a page's leaf: slots are new for pages that share the way only,
-- and nothing was written but the new nodes and the entries that lead to them.
structure Paved (page : VirtPage) (memory memory' : Memory) (height : Nat) (node : PhysPage)
    (fresh : List PhysPage) : Prop extends Grown memory memory' height node fresh where
  along : ∀ other slot, slotFrom memory other height node = none →
    slotFrom memory' other height node = some slot → page.SharesWay other height
  contents : memory' = linkMissing page height node fresh memory

namespace Paved

theorem refl (page : VirtPage) (memory : Memory) (height : Nat) (node : PhysPage) :
    Paved page memory memory height node [] where
  toGrown := .refl memory height node
  along := fun _ _ hnone hsome => by rw [hnone] at hsome; cases hsome
  contents := (linkMissing_nil page height node memory).symm

-- All growth is behind an entry on the way.
theorem of_valid (hnodup : (nodesFrom memory (height + 1) node).Nodup)
    (hvalid : (memory.entry ⟨node, page.indexAt (height + 1)⟩).isValid = true)
    (hfresh : ∀ frame ∈ fresh, frame ∉ nodesFrom memory (height + 1) node)
    (h : Paved page memory memory' height
      (memory.entry ⟨node, page.indexAt (height + 1)⟩).page fresh) :
    Paved page memory memory' (height + 1) node fresh where
  toGrown := h.toGrown.lift hnodup hvalid hfresh
  along := by
    intro other slot hnone hsome
    by_cases hindex : other.indexAt (height + 1) = page.indexAt (height + 1)
    · have hentry := h.toGrown.entry_eq hnodup hvalid hfresh (page.indexAt (height + 1))
      rw [slotFrom_succ_of_valid (hindex ▸ hvalid), hindex] at hnone
      rw [slotFrom_succ_of_valid (hindex ▸ hentry ▸ hvalid), hindex, hentry] at hsome
      exact VirtPage.sharesWay_succ.mpr ⟨h.along other slot hnone hsome, hindex⟩
    · rw [(h.toGrown.slotFrom_other hnodup hvalid hfresh hindex).1, hnone] at hsome
      cases hsome
  contents := h.contents.trans (linkMissing_of_valid hvalid).symm

-- A node is put behind an empty entry on the way, and all further growth is behind that node.
theorem of_link {child : PhysPage} (hnode : node.number < memory.frames)
    (hchildWindow : child.number < memory.frames)
    (hnodup : (nodesFrom memory (height + 1) node).Nodup)
    (hapart : ∀ frame ∈ child :: fresh, frame ∉ nodesFrom memory (height + 1) node)
    (hfree : child ∉ fresh)
    (hempty : (memory.entry ⟨node, page.indexAt (height + 1)⟩).isValid = false)
    (h : Paved page (linkNode memory ⟨node, page.indexAt (height + 1)⟩ child) memory' height child
      fresh) :
    Paved page memory memory' (height + 1) node (child :: fresh) ∧
      memory'.entry ⟨node, page.indexAt (height + 1)⟩ = .node child := by
  have hchild := hapart child List.mem_cons_self
  have hne : child ≠ node := fun heq => hchild (heq ▸ self_mem_nodesFrom)
  have hlink := grown_linkNode hnodup hempty hchild hnode hchildWindow
  have hzero : ∀ index, (linkNode memory ⟨node, page.indexAt (height + 1)⟩ child).entry
      ⟨child, index⟩ = .empty := entry_linkNode_child hne hchildWindow
  have hentry : (linkNode memory ⟨node, page.indexAt (height + 1)⟩ child).entry
      ⟨node, page.indexAt (height + 1)⟩ = .node child := entry_linkNode hnode
  have hvalid : ((linkNode memory ⟨node, page.indexAt (height + 1)⟩ child).entry
      ⟨node, page.indexAt (height + 1)⟩).isValid = true :=
    (congrArg Entry.isValid hentry).trans (Entry.isValid_node child)
  have hpage : ((linkNode memory ⟨node, page.indexAt (height + 1)⟩ child).entry
      ⟨node, page.indexAt (height + 1)⟩).page = child :=
    (congrArg Entry.page hentry).trans (Entry.page_node child)
  have hnodes := hlink.nodes
  rw [List.singleton_append] at hnodes
  have hnodup₁ := hnodes.nodup_iff.mpr (List.nodup_cons.mpr ⟨hchild, hnodup⟩)
  have hfresh : ∀ frame ∈ fresh, frame ∉ nodesFrom
      (linkNode memory ⟨node, page.indexAt (height + 1)⟩ child) (height + 1) node := by
    intro frame hmem hin
    rcases List.mem_cons.mp (hnodes.mem_iff.mp hin) with rfl | hin
    · exact hfree hmem
    · exact hapart frame (List.mem_cons_of_mem _ hmem) hin
  have hbehind : Paved page (linkNode memory ⟨node, page.indexAt (height + 1)⟩ child) memory' height
      ((linkNode memory ⟨node, page.indexAt (height + 1)⟩ child).entry
        ⟨node, page.indexAt (height + 1)⟩).page fresh := by rwa [hpage]
  have hlifted := hbehind.of_valid hnodup₁ hvalid hfresh
  refine ⟨⟨hlink.trans hlifted.toGrown, fun other slot hnone hsome => ?_, ?_⟩,
    (hbehind.toGrown.entry_eq hnodup₁ hvalid hfresh _).trans hentry⟩
  · by_cases hindex : other.indexAt (height + 1) = page.indexAt (height + 1)
    · cases hslot : slotFrom (linkNode memory ⟨node, page.indexAt (height + 1)⟩ child) other
          (height + 1) node with
      | none => exact hlifted.along other slot hslot hsome
      | some found =>
          rw [slotFrom_succ_of_valid (by rwa [hindex]), hindex, hpage] at hslot
          cases height with
          | zero =>
              exact VirtPage.sharesWay_succ.mpr ⟨VirtPage.sharesWay_zero page other, hindex⟩
          | succ height =>
              have hempty' := (slotFrom_succ_eq_some hslot).1
              rw [hzero, Entry.isValid_empty] at hempty'
              cases hempty'
    · refine hlifted.along other slot ?_ hsome
      rwa [(slotFrom_linkNode_other hnodup hchild hindex).1]
  · rw [hlifted.contents, linkMissing_of_valid hvalid, hpage, linkMissing_of_cons hempty]

end Paved

end PageTable

end PagedMemory
