import PagedMemory.Proofs.Alike
import PagedMemory.Proofs.Table.Mapping

namespace PagedMemory.PageTable

variable {memory memory' : Memory} {height : Nat} {node : PhysPage} {page : VirtPage}
  {fresh : List PhysPage} {settled : PhysPage → Prop}

-- Contents of memory are compared here and never computed.
attribute [local irreducible] Memory.entry Memory.fillFrame Memory.setEntry Memory.frame

-- Trees whose nodes are settled are the same in both memories.

theorem nodesFrom_alike (h : Memory.Alike settled memory memory')
    (hnodes : ∀ other ∈ nodesFrom memory height node, settled other) :
    nodesFrom memory' height node = nodesFrom memory height node :=
  nodesFrom_congr fun other hmem => h.same other (hnodes other (interiorFrom_subset hmem))

theorem slotFrom_alike (h : Memory.Alike settled memory memory')
    (hnodes : ∀ other ∈ nodesFrom memory height node, settled other) (page : VirtPage) :
    slotFrom memory' page height node = slotFrom memory page height node :=
  slotFrom_congr fun other hmem => h.same other (hnodes other (interiorFrom_subset hmem))

theorem mappedFrom_alike (h : Memory.Alike settled memory memory')
    (hnodes : ∀ other ∈ nodesFrom memory height node, settled other) (page : VirtPage) :
    mappedFrom memory' page height node = mappedFrom memory page height node :=
  mappedFrom_congr fun other hmem => h.same other (hnodes other hmem)

theorem missingFrom_alike (h : Memory.Alike settled memory memory')
    (hnodes : ∀ other ∈ nodesFrom memory height node, settled other) (page : VirtPage) :
    missingFrom memory' page height node = missingFrom memory page height node := by
  induction height generalizing node with
  | zero => rfl
  | succ height ih =>
      have hentry : memory'.entry ⟨node, page.indexAt (height + 1)⟩ =
          memory.entry ⟨node, page.indexAt (height + 1)⟩ :=
        h.entry_eq (hnodes node self_mem_nodesFrom)
      cases hvalid : (memory.entry ⟨node, page.indexAt (height + 1)⟩).isValid with
      | true =>
          rw [missingFrom_of_valid hvalid, missingFrom_of_valid (hentry ▸ hvalid), hentry]
          exact ih fun other hmem => hnodes other (mem_nodesFrom_of_valid hvalid hmem)
      | false => rw [missingFrom_of_invalid hvalid, missingFrom_of_invalid (hentry ▸ hvalid)]

-- A frame of zeros is put behind an entry of both.
theorem linkNode_alike {child : PhysPage} (h : Memory.Alike settled memory memory')
    (hchild : child.number < memory.frames) (slot : EntrySlot) :
    Memory.Alike (fun other => settled other ∨ other = child) (linkNode memory slot child)
      (linkNode memory' slot child) := (h.fillFrame hchild 0).setEntry slot (.node child)

-- The same frames become nodes in both, and are settled then.
theorem linkMissing_alike (h : Memory.Alike settled memory memory')
    (hnodes : ∀ other ∈ nodesFrom memory height node, settled other)
    (hfresh : ∀ frame ∈ fresh, frame.number < memory.frames)
    (hapart : ∀ frame ∈ fresh, frame ∉ nodesFrom memory height node)
    (hfree : fresh.Nodup) (hlength : fresh.length ≤ missingFrom memory page height node) :
    Memory.Alike (fun other => settled other ∨ other ∈ fresh)
      (linkMissing page height node fresh memory) (linkMissing page height node fresh memory') := by
  induction height generalizing node fresh memory memory' settled with
  | zero =>
      cases List.length_eq_zero_iff.mp (Nat.le_zero.mp hlength)
      exact h.mono fun other hother => hother.resolve_right List.not_mem_nil
  | succ height ih =>
      have hentry : memory'.entry ⟨node, page.indexAt (height + 1)⟩ =
          memory.entry ⟨node, page.indexAt (height + 1)⟩ :=
        h.entry_eq (hnodes node self_mem_nodesFrom)
      cases hvalid : (memory.entry ⟨node, page.indexAt (height + 1)⟩).isValid with
      | true =>
          rw [linkMissing_of_valid hvalid, linkMissing_of_valid (hentry ▸ hvalid), hentry]
          rw [missingFrom_of_valid hvalid] at hlength
          refine ih h (fun other hmem => hnodes other (mem_nodesFrom_of_valid hvalid hmem)) hfresh
            (fun frame hmem hin => hapart frame hmem (mem_nodesFrom_of_valid hvalid hin)) hfree hlength
      | false =>
          cases fresh with
          | nil =>
              rw [linkMissing_nil, linkMissing_nil]
              exact h.mono fun other hother => hother.resolve_right List.not_mem_nil
          | cons child rest =>
              have hne : child ≠ node := fun heq =>
                hapart child List.mem_cons_self (heq ▸ self_mem_nodesFrom)
              have hchild := hfresh child List.mem_cons_self
              have hzero : ∀ index, (linkNode memory ⟨node, page.indexAt (height + 1)⟩ child).entry
                  ⟨child, index⟩ = .empty := entry_linkNode_child hne hchild
              have hsingle : nodesFrom (linkNode memory ⟨node, page.indexAt (height + 1)⟩ child) height
                  child = [child] := nodesFrom_of_empty hzero
              rw [linkMissing_of_cons hvalid, linkMissing_of_cons (hentry ▸ hvalid)]
              rw [missingFrom_of_invalid hvalid, List.length_cons, Nat.add_le_add_iff_right] at hlength
              refine (ih (linkNode_alike h hchild _) ?_ ?_ ?_ (List.nodup_cons.mp hfree).2 ?_).mono
                fun other hother => ?_
              · intro other hmem
                rw [hsingle, List.mem_singleton] at hmem
                exact Or.inr hmem
              · intro frame hmem
                rw [frames_linkNode]
                exact hfresh frame (List.mem_cons_of_mem _ hmem)
              · intro frame hmem hin
                rw [hsingle, List.mem_singleton] at hin
                exact (List.nodup_cons.mp hfree).1 (hin ▸ hmem)
              · rwa [missingFrom_of_empty hzero]
              · rw [List.mem_cons, ← or_assoc] at hother
                exact hother

end PagedMemory.PageTable
