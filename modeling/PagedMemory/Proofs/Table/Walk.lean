import PagedMemory.Proofs.Table.Lookup

namespace PagedMemory

theorem Memory.lt_frames_of_reach {memory : Memory} {page : PhysPage}
    (h : memory.reach page.base = .ok ()) : page.number < memory.frames := by
  have hle := memory.base_add_le_of_reach page h
  rw [size, memory.size_eq, PhysPage.base, ← Nat.succ_mul] at hle
  exact Nat.le_of_mul_le_mul_right hle (by decide)

theorem Memory.reach_base_of_le {memory : Memory} {page : PhysPage}
    (h : memory.frames ≤ page.number) : memory.reach page.base = .error .outsideWindow := by
  cases hreach : memory.reach page.base with
  | ok _ => exact absurd (lt_frames_of_reach hreach) (Nat.not_lt_of_le h)
  | error cause =>
      rw [reach] at hreach
      split at hreach
      · cases hreach
      · exact hreach.symm

theorem Memory.reach_congr {memory memory' : Memory} (h : memory'.frames = memory.frames)
    (a : PhysAddr) : memory'.reach a = memory.reach a := by
  rw [reach, reach, size, size, memory'.size_eq, memory.size_eq, h]

namespace PageTable

variable {memory memory' : Memory} {table : PageTable} {height : Nat} {node : PhysPage}
  {page : VirtPage} {slot : EntrySlot}

-- Contents of memory are compared here and never computed.
attribute [local irreducible] Memory.entry Memory.frame

-- The nodes that a lookup visits, in order. It goes on where an entry is valid.
def walkFrom (memory : Memory) (page : VirtPage) : Nat → PhysPage → List PhysPage
  | 0, node => [node]
  | height + 1, node =>
      let entry := memory.entry ⟨node, page.indexAt (height + 1)⟩
      node :: if entry.isValid then walkFrom memory page height entry.page else []

def walk (table : PageTable) (page : VirtPage) (memory : Memory) : List PhysPage :=
  walkFrom memory page rootHeight table.root

theorem self_mem_walkFrom : node ∈ walkFrom memory page height node := by
  cases height <;> exact List.mem_cons_self

theorem walkFrom_succ_of_valid
    (h : (memory.entry ⟨node, page.indexAt (height + 1)⟩).isValid = true) :
    walkFrom memory page (height + 1) node =
      node :: walkFrom memory page height (memory.entry ⟨node, page.indexAt (height + 1)⟩).page :=
  congrArg (node :: ·) (if_pos h)

-- A walk through a tree stays in it.
theorem walkFrom_subset : walkFrom memory page height node ⊆ nodesFrom memory height node := by
  induction height generalizing node with
  | zero => exact List.Subset.refl _
  | succ height ih =>
      by_cases hvalid : (memory.entry ⟨node, page.indexAt (height + 1)⟩).isValid = true
      · rw [walkFrom_succ_of_valid hvalid]
        refine List.cons_subset.mpr ⟨self_mem_nodesFrom, fun other hmem => ?_⟩
        exact mem_nodesFrom_of_valid hvalid (ih hmem)
      · rw [walkFrom, if_neg hvalid]
        exact List.cons_subset.mpr ⟨self_mem_nodesFrom, List.nil_subset _⟩

theorem findFrom_zero_eq_some (h : findFrom memory page 0 node = .ok (some slot)) :
    node.number < memory.frames ∧ slot = ⟨node, page.indexAt 0⟩ := by
  rw [findFrom] at h
  cases hreach : memory.reach node.base with
  | error cause =>
      rw [hreach] at h
      cases h
  | ok _ =>
      rw [hreach] at h
      cases h
      exact ⟨Memory.lt_frames_of_reach hreach, rfl⟩

theorem findFrom_succ_eq_some (h : findFrom memory page (height + 1) node = .ok (some slot)) :
    (memory.entry ⟨node, page.indexAt (height + 1)⟩).isValid = true ∧
      findFrom memory page height (memory.entry ⟨node, page.indexAt (height + 1)⟩).page =
        .ok (some slot) := by
  rw [findFrom] at h
  cases hreach : memory.reach node.base with
  | error cause =>
      rw [hreach] at h
      cases h
  | ok _ =>
      rw [hreach] at h
      by_cases hvalid : (memory.entry ⟨node, page.indexAt (height + 1)⟩).isValid = true
      · simp only [if_pos hvalid] at h
        exact ⟨hvalid, h⟩
      · simp only [if_neg hvalid] at h
        cases h

theorem findFrom_of_outside (h : memory.frames ≤ node.number) :
    findFrom memory page height node = .error .outsideWindow := by
  cases height with
  | zero => rw [findFrom, Memory.reach_base_of_le h]; rfl
  | succ height => rw [findFrom, Memory.reach_base_of_le h]; rfl

theorem findFrom_succ_of_invalid (hnode : node.number < memory.frames)
    (hinvalid : (memory.entry ⟨node, page.indexAt (height + 1)⟩).isValid = false) :
    findFrom memory page (height + 1) node = .ok none := by
  simp only [findFrom, Memory.reach_base hnode, hinvalid, Bool.false_eq_true, if_false]
  rfl

-- The slot that is found is in a node that is visited.
theorem findFrom_node_mem (h : findFrom memory page height node = .ok (some slot)) :
    slot.node ∈ walkFrom memory page height node := by
  induction height generalizing node with
  | zero =>
      obtain ⟨-, rfl⟩ := findFrom_zero_eq_some h
      exact self_mem_walkFrom
  | succ height ih =>
      obtain ⟨hvalid, h⟩ := findFrom_succ_eq_some h
      rw [walkFrom_succ_of_valid hvalid]
      exact List.mem_cons_of_mem _ (ih h)

-- The window shows it, or the lookup would have failed.
theorem findFrom_window (h : findFrom memory page height node = .ok (some slot)) :
    slot.node.number < memory.frames := by
  induction height generalizing node with
  | zero =>
      obtain ⟨hlt, rfl⟩ := findFrom_zero_eq_some h
      exact hlt
  | succ height ih => exact ih (findFrom_succ_eq_some h).2

-- A lookup depends on the nodes it visits only.

theorem walkFrom_congr
    (h : ∀ other ∈ walkFrom memory page height node, memory'.frame other = memory.frame other) :
    walkFrom memory' page height node = walkFrom memory page height node := by
  induction height generalizing node with
  | zero => rfl
  | succ height ih =>
      have hentry : memory'.entry ⟨node, page.indexAt (height + 1)⟩ =
          memory.entry ⟨node, page.indexAt (height + 1)⟩ :=
        Memory.entry_eq_of_frame_eq (h node self_mem_walkFrom)
      by_cases hvalid : (memory.entry ⟨node, page.indexAt (height + 1)⟩).isValid = true
      · rw [walkFrom_succ_of_valid hvalid] at h ⊢
        rw [walkFrom_succ_of_valid (hentry ▸ hvalid), hentry,
          ih fun other hmem => h other (List.mem_cons_of_mem _ hmem)]
      · rw [walkFrom, walkFrom, hentry, if_neg hvalid, if_neg hvalid]

theorem findFrom_congr (hframes : memory'.frames = memory.frames)
    (h : ∀ other ∈ walkFrom memory page height node, memory'.frame other = memory.frame other) :
    findFrom memory' page height node = findFrom memory page height node := by
  induction height generalizing node with
  | zero => rw [findFrom, findFrom, Memory.reach_congr hframes]
  | succ height ih =>
      have hentry : memory'.entry ⟨node, page.indexAt (height + 1)⟩ =
          memory.entry ⟨node, page.indexAt (height + 1)⟩ :=
        Memory.entry_eq_of_frame_eq (h node self_mem_walkFrom)
      rw [findFrom, findFrom, Memory.reach_congr hframes, hentry]
      by_cases hvalid : (memory.entry ⟨node, page.indexAt (height + 1)⟩).isValid = true
      · rw [walkFrom_succ_of_valid hvalid] at h
        simp only [if_pos hvalid, ih fun other hmem => h other (List.mem_cons_of_mem _ hmem)]
      · simp only [if_neg hvalid]

theorem walk_congr (h : ∀ node ∈ table.walk page memory, memory'.frame node = memory.frame node) :
    table.walk page memory' = table.walk page memory := walkFrom_congr h

theorem translate?_congr (hframes : memory'.frames = memory.frames)
    (h : ∀ node ∈ table.walk page memory, memory'.frame node = memory.frame node) :
    table.translate? page memory' = table.translate? page memory := by
  have hfind : table.find? page memory' = table.find? page memory := findFrom_congr hframes h
  rw [translate?, translate?, hfind]
  cases hslot : table.find? page memory with
  | error cause => rfl
  | ok slot? =>
      cases slot? with
      | none => rfl
      | some slot =>
          have hentry : memory'.entry slot = memory.entry slot :=
            Memory.entry_eq_of_frame_eq (h slot.node (findFrom_node_mem hslot))
          exact congrArg (fun entry : Entry => Except.ok (if entry.isValid then some entry else none))
            hentry

-- A lookup along three entries.
theorem translate?_of_entries {mid low : PhysPage} {entry : Entry}
    (htop : memory.entry ⟨table.root, page.indexAt 2⟩ = .node mid)
    (hmid : memory.entry ⟨mid, page.indexAt 1⟩ = .node low)
    (hlow : memory.entry ⟨low, page.indexAt 0⟩ = entry) (hvalid : entry.isValid = true)
    (hwindow : ∀ node ∈ [table.root, mid, low], node.number < memory.frames) :
    table.translate? page memory = .ok (some entry) ∧
      table.walk page memory = [table.root, mid, low] := by
  simp only [List.forall_mem_cons] at hwindow
  obtain ⟨hroot', hmid', hlow', -⟩ := hwindow
  constructor
  · simp only [translate?, find?, rootHeight, tableLevels, findFrom, Memory.reach_base, htop, hmid,
      hlow, hroot', hmid', hlow', hvalid, Entry.isValid_node, Entry.page_node, bind, Except.bind,
      pure, Except.pure, if_true]
  · simp only [walk, rootHeight, tableLevels, walkFrom, htop, hmid, Entry.isValid_node,
      Entry.page_node, if_true]

end PageTable

end PagedMemory
