import Mathlib.Algebra.BigOperators.Fin
import PagedMemory.Proofs.Table.Building

namespace PagedMemory

namespace VirtPage

variable {page other : VirtPage} {height level : Nat} {index : Fin nodeEntries}
  {touched : Finset VirtPage}

-- The pages of a set that have an index in common.
def through (touched : Finset VirtPage) (height : Nat) (index : Fin nodeEntries) :
    Finset VirtPage :=
  touched.filter fun page => page.indexAt height = index

theorem mem_through :
    page ∈ through touched height index ↔ page ∈ touched ∧ page.indexAt height = index :=
  Finset.mem_filter

theorem through_insert_same (page : VirtPage) (touched : Finset VirtPage) (height : Nat) :
    through (insert page touched) height (page.indexAt height) =
      insert page (through touched height (page.indexAt height)) := by
  rw [through, Finset.filter_insert, if_pos rfl]
  rfl

theorem through_insert_other (h : index ≠ page.indexAt height) :
    through (insert page touched) height index = through touched height index := by
  rw [through, Finset.filter_insert, if_neg (Ne.symm h)]
  rfl

-- The digits of a page's number that name its way from a node of one height down to another.
def way (height level : Nat) (page : VirtPage) : Nat :=
  page.number % nodeEntries ^ (height + 1) / nodeEntries ^ (level + 1)

theorem val_indexAt (page : VirtPage) (height : Nat) :
    (page.indexAt height).val = page.number / nodeEntries ^ height % nodeEntries := by
  have hbase : nodeEntries = 2 ^ indexBits := rfl
  simp only [indexAt]
  rw [Nat.shiftRight_eq_div_pow, Nat.pow_mul, ← hbase]

theorem way_succ_same (page : VirtPage) (height : Nat) :
    way (height + 1) height page = (page.indexAt (height + 1)).val := by
  rw [way, Nat.pow_succ nodeEntries (height + 1), Nat.mod_mul_right_div_self, val_indexAt]

-- From a node one higher, the way has one digit more on top.
theorem way_succ (page : VirtPage) (h : level < height) :
    way (height + 1) level page =
      way height level page + nodeEntries ^ (height - level) * (page.indexAt (height + 1)).val := by
  have hsplit : nodeEntries ^ (height + 1) =
      nodeEntries ^ (level + 1) * nodeEntries ^ (height - level) := by
    rw [← Nat.pow_add]
    congr 1
    omega
  have hpos : 0 < nodeEntries ^ (level + 1) := Nat.pow_pos (by decide)
  rw [way, way, Nat.pow_succ nodeEntries (height + 1), Nat.mod_mul, ← val_indexAt, hsplit,
    Nat.mul_assoc, Nat.add_mul_div_left _ _ hpos]

theorem way_succ_div (page : VirtPage) (h : level ≤ height) :
    way (height + 1) level page / nodeEntries ^ (height - level) =
      (page.indexAt (height + 1)).val := by
  rw [← way_succ_same, way, way, Nat.div_div_eq_div_mul, ← Nat.pow_add]
  congr 2
  omega

theorem indexAt_eq_of_way_eq (h : level ≤ height)
    (heq : way (height + 1) level page = way (height + 1) level other) :
    page.indexAt (height + 1) = other.indexAt (height + 1) := by
  apply Fin.ext
  rw [← way_succ_div page h, ← way_succ_div other h, heq]

-- Ways that differ are counted for each index by itself.
theorem card_image_way (touched : Finset VirtPage) (h : level ≤ height) :
    (touched.image (way (height + 1) level)).card =
      ∑ index, ((through touched (height + 1) index).image (way (height + 1) level)).card := by
  have hunion : touched.image (way (height + 1) level) = Finset.univ.biUnion fun index =>
      (through touched (height + 1) index).image (way (height + 1) level) := by
    ext n
    simp [through]
  rw [hunion, Finset.card_biUnion]
  intro i _ j _ hne
  refine Finset.disjoint_left.mpr fun n hi hj => hne ?_
  obtain ⟨page, hpage, rfl⟩ := Finset.mem_image.mp hi
  obtain ⟨other, hother, heq⟩ := Finset.mem_image.mp hj
  rw [← (mem_through.mp hpage).2, ← (mem_through.mp hother).2]
  exact (indexAt_eq_of_way_eq h heq).symm

-- For one index, the digit on top makes no difference.
theorem card_image_way_through (touched : Finset VirtPage) (index : Fin nodeEntries)
    (h : level < height) :
    ((through touched (height + 1) index).image (way (height + 1) level)).card =
      ((through touched (height + 1) index).image (way height level)).card := by
  have hshift : (through touched (height + 1) index).image (way (height + 1) level) =
      ((through touched (height + 1) index).image (way height level)).image
        (· + nodeEntries ^ (height - level) * index.val) := by
    rw [Finset.image_image]
    refine Finset.image_congr fun page hpage => ?_
    rw [way_succ page h, (mem_through.mp hpage).2, Function.comp_apply]
  rw [hshift, Finset.card_image_of_injective _ (add_left_injective _)]

theorem card_image_way_same (h : (through touched (height + 1) index).Nonempty) :
    ((through touched (height + 1) index).image (way (height + 1) height)).card = 1 := by
  have hconst : (through touched (height + 1) index).image (way (height + 1) height) =
      (through touched (height + 1) index).image fun _ => index.val := by
    refine Finset.image_congr fun page hpage => ?_
    rw [way_succ_same, (mem_through.mp hpage).2]
  rw [hconst, Finset.image_const h, Finset.card_singleton]

end VirtPage

namespace PageTable

variable {memory memory' : Memory} {height : Nat} {node child : PhysPage} {page : VirtPage}
  {slot : EntrySlot} {index : Fin nodeEntries} {touched : Finset VirtPage}
  {fresh : List PhysPage}

-- Contents of memory are compared here and never computed.
attribute [local irreducible] Memory.entry Memory.fillFrame Memory.setEntry

-- The tree under a node is what a set of pages needs. An entry of a node that points at nodes leads
-- on if a page of the set goes through it, and is empty if none does.
def Spans (memory : Memory) : Nat → PhysPage → Finset VirtPage → Prop
  | 0, _, _ => True
  | height + 1, node, touched => ∀ index,
      if (VirtPage.through touched (height + 1) index).Nonempty then
        ∃ child, memory.entry ⟨node, index⟩ = .node child ∧
          Spans memory height child (VirtPage.through touched (height + 1) index)
      else memory.entry ⟨node, index⟩ = .empty

-- So it is behind one entry of the node.
def SpansBelow (memory : Memory) (height : Nat) (node : PhysPage) (touched : Finset VirtPage)
    (index : Fin nodeEntries) : Prop :=
  if (VirtPage.through touched (height + 1) index).Nonempty then
    ∃ child, memory.entry ⟨node, index⟩ = .node child ∧
      Spans memory height child (VirtPage.through touched (height + 1) index)
  else memory.entry ⟨node, index⟩ = .empty

theorem spans_succ : Spans memory (height + 1) node touched ↔
    ∀ index, SpansBelow memory height node touched index := Iff.rfl

namespace SpansBelow

theorem of_node (hentry : memory.entry ⟨node, index⟩ = .node child)
    (hnonempty : (VirtPage.through touched (height + 1) index).Nonempty)
    (h : Spans memory height child (VirtPage.through touched (height + 1) index)) :
    SpansBelow memory height node touched index :=
  (if_pos hnonempty).mpr ⟨child, hentry, h⟩

theorem of_empty (hentry : memory.entry ⟨node, index⟩ = .empty)
    (hnone : ¬(VirtPage.through touched (height + 1) index).Nonempty) :
    SpansBelow memory height node touched index :=
  (if_neg hnone).mpr hentry

-- An entry that leads on points at a node, and one that does not is empty.
theorem cases (h : SpansBelow memory height node touched index) :
    ((VirtPage.through touched (height + 1) index).Nonempty ∧
        ∃ child, memory.entry ⟨node, index⟩ = .node child ∧
          Spans memory height child (VirtPage.through touched (height + 1) index)) ∨
      (¬(VirtPage.through touched (height + 1) index).Nonempty ∧
        memory.entry ⟨node, index⟩ = .empty) := by
  by_cases hnonempty : (VirtPage.through touched (height + 1) index).Nonempty
  · exact Or.inl ⟨hnonempty, (if_pos hnonempty).mp h⟩
  · exact Or.inr ⟨hnonempty, (if_neg hnonempty).mp h⟩

theorem isValid_iff (h : SpansBelow memory height node touched index) :
    (memory.entry ⟨node, index⟩).isValid = true ↔
      (VirtPage.through touched (height + 1) index).Nonempty := by
  rcases h.cases with ⟨hnonempty, child, hentry, -⟩ | ⟨hnone, hentry⟩
  · rw [hentry, Entry.isValid_node]
    exact ⟨fun _ => hnonempty, fun _ => rfl⟩
  · rw [hentry, Entry.isValid_empty]
    exact ⟨fun hvalid => Bool.noConfusion hvalid, fun hnonempty => (hnone hnonempty).elim⟩

theorem node_of_valid (h : SpansBelow memory height node touched index)
    (hvalid : (memory.entry ⟨node, index⟩).isValid = true) :
    ∃ child, memory.entry ⟨node, index⟩ = .node child ∧
      Spans memory height child (VirtPage.through touched (height + 1) index) :=
  (if_pos (h.isValid_iff.mp hvalid)).mp h

end SpansBelow

-- A node of empty entries spans no pages.
theorem spans_of_empty (h : ∀ index, memory.entry ⟨node, index⟩ = .empty) :
    Spans memory height node ∅ := by
  cases height with
  | zero => trivial
  | succ height =>
      exact spans_succ.mpr fun index => .of_empty (h index) (by simp [VirtPage.through])

-- Like the tree, this is settled by its interior nodes.
theorem Spans.congr
    (hsame : ∀ other ∈ interiorFrom memory height node, memory'.frame other = memory.frame other)
    (h : Spans memory height node touched) : Spans memory' height node touched := by
  induction height generalizing node touched with
  | zero => trivial
  | succ height ih =>
      have hentry := entry_eq_of_interior hsame
      refine spans_succ.mpr fun index => ?_
      rcases (spans_succ.mp h index).cases with ⟨hnonempty, child, hchild, hspans⟩ | ⟨hnone, hempty⟩
      · refine .of_node ((hentry index).trans hchild) hnonempty (ih (fun other hmem => ?_) hspans)
        refine hsame other (mem_interiorFrom_succ.mpr (Or.inl ⟨index, ?_, ?_⟩))
        · rw [hchild, Entry.isValid_node]
        · rwa [hchild, Entry.page_node]
      · exact .of_empty ((hentry index).trans hempty) hnone

theorem SpansBelow.congr
    (hentry : memory'.entry ⟨node, index⟩ = memory.entry ⟨node, index⟩)
    (hsame : ∀ other ∈ nodesBelow memory height node index,
      memory'.frame other = memory.frame other)
    (h : SpansBelow memory height node touched index) :
    SpansBelow memory' height node touched index := by
  rcases h.cases with ⟨hnonempty, child, hchild, hspans⟩ | ⟨hnone, hempty⟩
  · refine .of_node (hentry.trans hchild) hnonempty (hspans.congr fun other hmem => ?_)
    refine hsame other ?_
    rw [nodesBelow_of_valid (by rw [hchild, Entry.isValid_node]), hchild, Entry.page_node]
    exact interiorFrom_subset hmem
  · exact .of_empty (hentry.trans hempty) hnone

-- How many nodes a tree has: the root, and one for each way from the root to a node below it.

theorem length_nodesFrom_succ (memory : Memory) (height : Nat) (node : PhysPage) :
    (nodesFrom memory (height + 1) node).length =
      1 + ∑ index, (nodesBelow memory height node index).length := by
  rw [nodesFrom_succ, List.length_append, List.length_flatMap, Fin.sum_univ_def, Nat.add_comm]
  rfl

theorem Spans.length_nodesFrom (h : Spans memory height node touched) :
    (nodesFrom memory height node).length =
      1 + ∑ level ∈ Finset.range height, (touched.image (VirtPage.way height level)).card := by
  induction height generalizing node touched with
  | zero => rfl
  | succ height ih =>
      have hbelow : ∀ index, (nodesBelow memory height node index).length =
          ∑ level ∈ Finset.range (height + 1), ((VirtPage.through touched (height + 1) index).image
            (VirtPage.way (height + 1) level)).card := by
        intro index
        rcases (spans_succ.mp h index).cases with
          ⟨hnonempty, child, hchild, hspans⟩ | ⟨hnone, hempty⟩
        · rw [nodesBelow_of_valid (by rw [hchild, Entry.isValid_node]), hchild, Entry.page_node,
            ih hspans, Finset.sum_range_succ, VirtPage.card_image_way_same hnonempty, Nat.add_comm,
            Finset.sum_congr rfl fun level hlevel =>
              VirtPage.card_image_way_through touched index (Finset.mem_range.mp hlevel)]
        · rw [Finset.not_nonempty_iff_eq_empty] at hnone
          simp [nodesBelow, hempty, Entry.isValid_empty, hnone]
      calc (nodesFrom memory (height + 1) node).length
        _ = 1 + ∑ index, ∑ level ∈ Finset.range (height + 1),
            ((VirtPage.through touched (height + 1) index).image
              (VirtPage.way (height + 1) level)).card := by
          rw [length_nodesFrom_succ, Finset.sum_congr rfl fun index _ => hbelow index]
        _ = 1 + ∑ level ∈ Finset.range (height + 1),
            (touched.image (VirtPage.way (height + 1) level)).card := by
          rw [Finset.sum_comm]
          refine congrArg _ (Finset.sum_congr rfl fun level hlevel => ?_)
          exact (VirtPage.card_image_way touched
            (Nat.le_of_lt_succ (Finset.mem_range.mp hlevel))).symm

-- Frames that can become nodes of a tree: no two of them are the same, none is a node of the tree,
-- and the window shows them all.
structure Fits (memory : Memory) (height : Nat) (node : PhysPage) (fresh : List PhysPage) :
    Prop where
  nodup : (fresh ++ nodesFrom memory height node).Nodup
  window : ∀ other ∈ fresh ++ nodesFrom memory height node, other.number < memory.frames

namespace Fits

theorem nodes (h : Fits memory height node fresh) : (nodesFrom memory height node).Nodup :=
  (List.nodup_append'.mp h.nodup).2.1

theorem apart (h : Fits memory height node fresh) (frame : PhysPage) (hmem : frame ∈ fresh) :
    frame ∉ nodesFrom memory height node := fun hin =>
  (List.nodup_append'.mp h.nodup).2.2 hmem hin

theorem node_window (h : Fits memory height node fresh) : node.number < memory.frames :=
  h.window node (List.mem_append_right _ self_mem_nodesFrom)

-- They can become nodes of the tree behind an entry.
theorem below (h : Fits memory (height + 1) node fresh)
    (hvalid : (memory.entry ⟨node, index⟩).isValid = true) :
    Fits memory height (memory.entry ⟨node, index⟩).page fresh where
  nodup := List.nodup_append'.mpr ⟨(List.nodup_append'.mp h.nodup).1, nodup_child h.nodes hvalid,
    fun frame hfresh hin => h.apart frame hfresh (mem_nodesFrom_of_valid hvalid hin)⟩
  window := fun other hmem => h.window other <| by
    rcases List.mem_append.mp hmem with hmem | hmem
    · exact List.mem_append_left _ hmem
    · exact List.mem_append_right _ (mem_nodesFrom_of_valid hvalid hmem)

-- The first of them has become one.
theorem link (h : Fits memory (height + 1) node (child :: fresh))
    (hempty : (memory.entry ⟨node, index⟩).isValid = false) :
    Fits (linkNode memory ⟨node, index⟩ child) (height + 1) node fresh := by
  have hgrown := grown_linkNode h.nodes hempty (h.apart child List.mem_cons_self) h.node_window
    (h.window child List.mem_cons_self)
  have hperm : (fresh ++ nodesFrom (linkNode memory ⟨node, index⟩ child) (height + 1) node).Perm
      (child :: fresh ++ nodesFrom memory (height + 1) node) := by
    refine (hgrown.nodes.append_left fresh).trans ?_
    rw [List.singleton_append]
    exact List.perm_middle
  refine ⟨hperm.nodup_iff.mpr h.nodup, fun other hmem => ?_⟩
  rw [hgrown.frames]
  exact h.window other (hperm.mem_iff.mp hmem)

-- It is empty, and what follows can become nodes behind it.
theorem linked (h : Fits memory (height + 1) node (child :: fresh))
    (hempty : (memory.entry ⟨node, index⟩).isValid = false) :
    (linkNode memory ⟨node, index⟩ child).entry ⟨node, index⟩ = .node child ∧
      (∀ other, (linkNode memory ⟨node, index⟩ child).entry ⟨child, other⟩ = .empty) ∧
      Fits (linkNode memory ⟨node, index⟩ child) height child fresh := by
  have hentry : (linkNode memory ⟨node, index⟩ child).entry ⟨node, index⟩ = .node child :=
    entry_linkNode h.node_window
  have hne : child ≠ node := fun heq =>
    h.apart child List.mem_cons_self (heq ▸ self_mem_nodesFrom)
  have hbelow := (h.link hempty).below (by rw [hentry, Entry.isValid_node])
  rw [hentry, Entry.page_node] at hbelow
  exact ⟨hentry, entry_linkNode_child hne (h.window child List.mem_cons_self), hbelow⟩

end Fits

-- A tree grows by the frames that become its missing nodes.
theorem paved_linkMissing (h : Fits memory height node fresh)
    (hlength : fresh.length ≤ missingFrom memory page height node) :
    Paved page memory (linkMissing page height node fresh memory) height node fresh := by
  induction height generalizing node fresh memory with
  | zero =>
      cases List.length_eq_zero_iff.mp (Nat.le_zero.mp hlength)
      exact .refl page memory 0 node
  | succ height ih =>
      by_cases hvalid : (memory.entry ⟨node, page.indexAt (height + 1)⟩).isValid = true
      · rw [missingFrom_of_valid hvalid] at hlength
        rw [linkMissing_of_valid hvalid]
        exact .of_valid h.nodes hvalid h.apart (ih (h.below hvalid) hlength)
      · rw [Bool.not_eq_true] at hvalid
        cases fresh with
        | nil =>
            rw [linkMissing_nil]
            exact .refl page memory (height + 1) node
        | cons child fresh =>
            rw [missingFrom_of_invalid hvalid] at hlength
            obtain ⟨-, hzero, hchild⟩ := h.linked hvalid
            rw [linkMissing_of_cons hvalid]
            refine (Paved.of_link h.node_window (h.window child List.mem_cons_self) h.nodes h.apart
              (fun hmem => (List.nodup_cons.mp h.nodup).1 (List.mem_append_left _ hmem)) hvalid
              (ih hchild ?_)).1
            rw [missingFrom_of_empty hzero]
            exact Nat.le_of_succ_le_succ hlength

-- What is behind an entry is lifted to the node, if a page of the set goes through the entry now.
theorem Spans.lift (hfits : Fits memory (height + 1) node fresh)
    (hentry : memory.entry ⟨node, page.indexAt (height + 1)⟩ = .node child)
    (hgrown : Grown memory memory' height child fresh)
    (hothers : ∀ index ≠ page.indexAt (height + 1), SpansBelow memory height node touched index)
    (hthis : Spans memory' height child
      (insert page (VirtPage.through touched (height + 1) (page.indexAt (height + 1))))) :
    Spans memory' (height + 1) node (insert page touched) := by
  have hvalid : (memory.entry ⟨node, page.indexAt (height + 1)⟩).isValid = true := by
    rw [hentry, Entry.isValid_node]
  have hpage : (memory.entry ⟨node, page.indexAt (height + 1)⟩).page = child := by
    rw [hentry, Entry.page_node]
  rw [← hpage] at hgrown
  have hkept := hgrown.entry_eq hfits.nodes hvalid hfits.apart
  refine spans_succ.mpr fun index => ?_
  by_cases hindex : index = page.indexAt (height + 1)
  · subst hindex
    rw [← VirtPage.through_insert_same] at hthis
    refine .of_node ((hkept _).trans hentry) ⟨page, ?_⟩ hthis
    exact VirtPage.mem_through.mpr ⟨Finset.mem_insert_self page touched, rfl⟩
  · have hbelow := (hothers index hindex).congr (hkept index)
      (hgrown.nodesBelow_spared hfits.nodes hvalid hfits.apart hindex)
    rwa [SpansBelow, ← VirtPage.through_insert_other hindex] at hbelow

-- With all nodes that were missing on its way, a page is one of those that the tree spans.
theorem Spans.linkMissing (hfits : Fits memory height node fresh)
    (hlength : fresh.length = missingFrom memory page height node)
    (h : Spans memory height node touched) :
    Spans (linkMissing page height node fresh memory) height node (insert page touched) := by
  induction height generalizing node fresh memory touched with
  | zero => trivial
  | succ height ih =>
      by_cases hvalid : (memory.entry ⟨node, page.indexAt (height + 1)⟩).isValid = true
      · obtain ⟨child, hentry, hspans⟩ := (spans_succ.mp h _).node_of_valid hvalid
        have hchild := hfits.below hvalid
        rw [missingFrom_of_valid hvalid] at hlength
        rw [linkMissing_of_valid hvalid]
        rw [hentry, Entry.page_node] at hchild hlength ⊢
        exact .lift hfits hentry (paved_linkMissing hchild (Nat.le_of_eq hlength)).toGrown
          (fun index _ => spans_succ.mp h index) (ih hchild hlength hspans)
      · have hnone := mt (spans_succ.mp h _).isValid_iff.mpr hvalid
        rw [Bool.not_eq_true] at hvalid
        rw [missingFrom_of_invalid hvalid] at hlength
        cases fresh with
        | nil => cases hlength
        | cons child fresh =>
            obtain ⟨hentry, hzero, hchild⟩ := hfits.linked hvalid
            have hnew := hfits.apart child List.mem_cons_self
            have hne : child ≠ node := fun heq => hnew (heq ▸ self_mem_nodesFrom)
            have hcount : fresh.length = missingFrom
                (linkNode memory ⟨node, page.indexAt (height + 1)⟩ child) page height child := by
              rw [missingFrom_of_empty hzero]
              exact Nat.succ_inj.mp hlength
            rw [linkMissing_of_cons hvalid]
            refine .lift (hfits.link hvalid) hentry
              (paved_linkMissing hchild (Nat.le_of_eq hcount)).toGrown (fun index hindex => ?_) ?_
            · exact (spans_succ.mp h index).congr (entry_linkNode_other hne hindex)
                (nodesBelow_linkNode hfits.nodes hnew index)
            · rw [Finset.not_nonempty_iff_eq_empty.mp hnone]
              exact ih hchild hcount (spans_of_empty hzero)

-- It does not matter what is in the leaves.
theorem Spans.setEntry (hnodup : (nodesFrom memory height node).Nodup)
    (hslot : slotFrom memory page height node = some slot) (entry : Entry)
    (h : Spans memory height node touched) :
    Spans (memory.setEntry slot entry) height node touched := by
  refine h.congr fun other hmem => Memory.frame_setEntry_other ?_
  rintro rfl
  exact slotFrom_node_not_mem_interior hnodup hslot hmem

-- A word of a node that points at nodes: one that leads on is the number of the node it points at,
-- shifted, and the lowest bit, and one that does not is zero.
theorem SpansBelow.bits (h : SpansBelow memory height node touched index) :
    (memory.entry ⟨node, index⟩).bits =
      if (memory.entry ⟨node, index⟩).isValid then
        UInt64.ofNat (memory.entry ⟨node, index⟩).page.number <<< 10 ||| 1
      else 0 := by
  rcases h.cases with ⟨-, child, hentry, -⟩ | ⟨-, hentry⟩
  · rw [hentry, Entry.isValid_node, if_pos rfl, Entry.page_node]
    rfl
  · rw [hentry, Entry.isValid_empty, if_neg Bool.false_ne_true]
    rfl

-- A tree has its root, a node for each index into the root that its pages have, and one for each pair
-- of upper indices.
theorem Spans.length_nodesFrom_root (h : Spans memory rootHeight node touched) :
    (nodesFrom memory rootHeight node).length =
      1 + (touched.image (·.number >>> (2 * indexBits))).card +
        (touched.image (·.number >>> indexBits)).card := by
  have hway : ∀ level ≤ 1, VirtPage.way rootHeight level =
      fun page => page.number >>> ((level + 1) * indexBits) := by
    intro level hlevel
    funext page
    have hlt : page.number < nodeEntries ^ (rootHeight + 1) := page.isLt
    rw [VirtPage.way, Nat.mod_eq_of_lt hlt, Nat.shiftRight_eq_div_pow, Nat.mul_comm, Nat.pow_mul]
    rfl
  rw [h.length_nodesFrom, show Finset.range rootHeight = {0, 1} from rfl,
    Finset.sum_pair (by decide), hway 0 (by decide), hway 1 (by decide), Nat.add_comm (Finset.card _),
    ← Nat.add_assoc, Nat.zero_add, Nat.one_mul]

end PageTable

end PagedMemory
