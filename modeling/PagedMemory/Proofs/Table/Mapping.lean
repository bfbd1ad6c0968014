import PagedMemory.Proofs.Table.Building
import PagedMemory.Proofs.Table.Leaves

namespace PagedMemory

namespace Entry

theorem bits_leaf (frame : PhysPage) (flags : Flags) :
    (leaf frame flags).bits = UInt64.ofNat frame.number <<< 10 ||| flags.bits.toUInt64 ||| 1 := by
  rw [leaf, new, UInt64.or_assoc]
  rfl

theorem isValid_leaf (frame : PhysPage) (flags : Flags) : (leaf frame flags).isValid = true := by
  have hvalid : (flags.bits ||| 1) &&& 1 = 1 := by
    apply UInt8.toBitVec_inj.mp
    ext i hi
    simp
    exact Or.inr
  simp [isValid, has, leaf, flags_new, Flags.has, Flags.union, Flags.single, Flag.mask, hvalid]

theorem page_leaf (frame : PhysPage) (flags : Flags) : (leaf frame flags).page = frame :=
  page_new frame _

end Entry

namespace PageTable

-- Contents of memory are compared here and never computed.
attribute [local irreducible] Memory.entry Memory.fillFrame Memory.setEntry

variable {kernel kernel' : Kernel} {table table' : PageTable} {low high : Nat}
  {free : List PhysPage} {page : VirtPage} {slot : EntrySlot} {machine machine' : Machine}
  {frame : PhysPage} {flags : Flags} {entry : Entry} {memory : Memory}

-- An owner and its tree: the nodes are distinct, the window shows them, and they are not free.
structure Standing (table : PageTable) (memory : Memory) (free : List PhysPage) : Prop where
  owned : table.owned = true
  nodup : (nodesFrom memory rootHeight table.root).Nodup
  apart : ∀ frame ∈ free, frame ∉ nodesFrom memory rootHeight table.root
  window : ∀ other ∈ nodesFrom memory rootHeight table.root, other.number < memory.frames

theorem mappedFrom_eq_some {root : PhysPage}
    (h : mappedFrom memory page rootHeight root = some entry) :
    ∃ slot, slotFrom memory page rootHeight root = some slot ∧ memory.entry slot = entry ∧
      entry.isValid = true := by
  obtain ⟨hmap, hvalid⟩ := Option.filter_eq_some_iff.mp h
  obtain ⟨slot, hslot, hentry⟩ := Option.map_eq_some_iff.mp hmap
  exact ⟨slot, hslot, hentry, hvalid⟩

theorem isValid_of_mappedFrom_eq_none {root : PhysPage}
    (h : mappedFrom memory page rootHeight root = none)
    (hslot : slotFrom memory page rootHeight root = some slot) :
    (memory.entry slot).isValid = false := by
  rw [mappedFrom, hslot, Option.map_some, Option.filter_eq_none_iff] at h
  rw [← Bool.not_eq_true]
  exact h _ rfl

namespace Standing

theorem slot_window (h : table.Standing memory free)
    (hslot : slotFrom memory page rootHeight table.root = some slot) :
    slot.node.number < memory.frames := h.window _ (slotFrom_node_mem hslot)

theorem find?_eq (h : table.Standing memory free) :
    table.find? page memory = .ok (slotFrom memory page rootHeight table.root) :=
  findFrom_eq h.window

-- What stands after the first of the free frames became nodes.
theorem grown {memory' : Memory} {fresh rest : List PhysPage}
    (h : table.Standing memory (fresh ++ rest)) (hnodup : (fresh ++ rest).Nodup)
    (hfree : ∀ frame ∈ fresh, frame.number < memory.frames)
    (hgrown : Grown memory memory' rootHeight table.root fresh) (nodes : Nat) :
    { table with nodes }.Standing memory' rest := by
  have hmem : ∀ other, other ∈ nodesFrom memory' rootHeight table.root →
      other ∈ fresh ∨ other ∈ nodesFrom memory rootHeight table.root := fun other hin =>
    List.mem_append.mp (hgrown.nodes.mem_iff.mp hin)
  refine ⟨h.owned, ?_, ?_, ?_⟩
  · refine hgrown.nodes.nodup_iff.mpr (List.nodup_append'.mpr
      ⟨(List.nodup_append'.mp hnodup).1, h.nodup, fun frame hfresh hin => ?_⟩)
    exact h.apart frame (List.mem_append_left _ hfresh) hin
  · intro frame hrest hin
    rcases hmem frame hin with hfresh | hin
    · exact (List.nodup_append'.mp hnodup).2.2 hfresh hrest
    · exact h.apart frame (List.mem_append_right _ hrest) hin
  · intro other hin
    rw [hgrown.frames]
    rcases hmem other hin with hfresh | hin
    · exact hfree other hfresh
    · exact h.window other hin

end Standing

-- The walk that makes nodes.

theorem run_findOrBuild (howned : table.owned = true) :
    (findOrBuild page).run (kernel, table) =
      (buildFrom page rootHeight table.root).run (kernel, table) := by
  simp only [findOrBuild, EStateM.run_bind, EStateM.run_get, howned, if_true]

theorem run_findOrBuild_of_view (hview : table.owned = false) :
    (findOrBuild page).run (kernel, table) = .error (.fault .notOwned) (kernel, table) := by
  simp only [findOrBuild, EStateM.run_bind, EStateM.run_get, hview, Bool.false_eq_true, if_false,
    Action.run_onFirst, Kernel.run_fail]
  rw [Fault.lines_eq_nil rfl, List.append_nil]

theorem Standing.builds (h : table.Standing kernel.machine.memory free)
    (hoffers : kernel.Offers low high free) (page : VirtPage) :
    Builds low high page rootHeight table.root kernel table free :=
  PageTable.builds hoffers h.nodup h.apart h.window

-- Mapping a page.

theorem run_map_of_view (hview : table.owned = false) :
    (map page frame flags).run (kernel, table) = .error (.fault .notOwned) (kernel, table) := by
  rw [map, Action.run_bind_error (run_findOrBuild_of_view hview)]

theorem run_map_of_mapped (h : table.Standing kernel.machine.memory free)
    (hmapped : mappedFrom kernel.machine.memory page rootHeight table.root = some entry) :
    (map page frame flags).run (kernel, table) =
      .error (.fault (.alreadyMapped page))
        (⟨⟨kernel.machine.memory,
          kernel.machine.log ++ (Fault.alreadyMapped page).lines⟩, kernel.pool⟩, table) := by
  obtain ⟨slot, hslot, hentry, hvalid⟩ := mappedFrom_eq_some hmapped
  have hfind : (findOrBuild page).run (kernel, table) = .ok slot (kernel, table) :=
    (run_findOrBuild h.owned).trans (run_buildFrom_of_slotFrom h.window hslot)
  rw [map, Action.run_bind_ok hfind]
  simp only [Action.run_onFirst, Kernel.run_onMachine, EStateM.run_bind, Machine.run_inspect_pure,
    hentry, hvalid, if_true, Machine.run_fail]

-- The leaf is written after the nodes on the way to it were made.
theorem run_map_of_slot {pool : Deferred (Exclusive FramePool)}
    (hfind : (findOrBuild page).run (kernel, table) = .ok slot (⟨machine, pool⟩, table'))
    (hempty : (machine.memory.entry slot).isValid = false) :
    (map page frame flags).run (kernel, table) =
      .ok () (⟨⟨machine.memory.setEntry slot (.leaf frame flags), machine.log⟩, pool⟩, table') := by
  rw [map, Action.run_bind_ok hfind]
  simp only [Action.run_onFirst, Kernel.run_onMachine, EStateM.run_bind, Machine.run_inspect_pure,
    hempty, Bool.false_eq_true, if_false, Machine.run_change]

-- What mapping a page that is not mapped does: nodes are made of the first free frames, and the leaf
-- is written unless they run out.
theorem run_map_of_unmapped (frame : PhysPage) (flags : Flags)
    (h : table.Standing kernel.machine.memory free) (hoffers : kernel.Offers low high free)
    (hunmapped : mappedFrom kernel.machine.memory page rootHeight table.root = none) :
    ∃ fresh rest kernel', free = fresh ++ rest ∧ kernel'.Offers low high rest ∧
      kernel'.machine.log = kernel.machine.log ∧
      (((map page frame flags).run (kernel, table) =
            .ok () (kernel', { table with nodes := table.nodes + fresh.length }) ∧
          fresh.length = missingFrom kernel.machine.memory page rootHeight table.root ∧
          Remapped kernel.machine.memory kernel'.machine.memory table.root fresh page
            (some (.leaf frame flags)) ∧
          ∃ built slot, Paved page kernel.machine.memory built rootHeight table.root fresh ∧
            slotFrom built page rootHeight table.root = some slot ∧
            kernel'.machine.memory = built.setEntry slot (.leaf frame flags)) ∨
        (rest = [] ∧ fresh.length < missingFrom kernel.machine.memory page rootHeight table.root ∧
          (map page frame flags).run (kernel, table) =
            .error (.fault .noFrameForNode)
              (kernel', { table with nodes := table.nodes + fresh.length }) ∧
          Paved page kernel.machine.memory kernel'.machine.memory rootHeight table.root fresh)) := by
  obtain ⟨fresh, rest, ⟨machine, pool⟩, rfl, hoffers', hlog, hpaved, hcase⟩ :=
    h.builds hoffers page
  have hgrown := hpaved.toGrown
  have hstanding := h.grown hoffers.nodup
    (fun frame hmem => hoffers.lt_frames (List.mem_append_left _ hmem)) hgrown
    (table.nodes + fresh.length)
  rw [← run_findOrBuild h.owned] at hcase
  rcases hcase with ⟨slot, hfind, hslot, hlength⟩ | ⟨hrest, hlength, hfail⟩
  · have hempty : (machine.memory.entry slot).isValid = false :=
      isValid_of_mappedFrom_eq_none ((hgrown.mappedFrom_eq page).trans hunmapped) hslot
    have hremapped := hgrown.remapped_setEntry (.leaf frame flags) hstanding.nodup
      (hstanding.slot_window hslot) hslot
    rw [Option.filter_some, Entry.isValid_leaf, if_pos rfl] at hremapped
    refine ⟨fresh, rest,
      ⟨⟨machine.memory.setEntry slot (.leaf frame flags), machine.log⟩, pool⟩, rfl, ?_, hlog,
      Or.inl ⟨run_map_of_slot hfind hempty, hlength, hremapped, _, slot, hpaved, hslot, rfl⟩⟩
    refine hoffers'.congr rfl (Memory.frames_setEntry _ _ _) fun frame hmem => ?_
    apply Memory.frame_setEntry_other
    rintro rfl
    exact hstanding.apart _ hmem (slotFrom_node_mem hslot)
  · refine ⟨fresh, rest, _, rfl, hoffers', hlog, Or.inr ⟨hrest, hlength, ?_, hpaved⟩⟩
    rw [map, Action.run_bind_error hfail]

-- Unmapping a page.

theorem run_unmap_of_slot (hfind : table.find? page machine.memory = .ok (some slot))
    (hvalid : (machine.memory.entry slot).isValid = true) :
    (table.unmap page).run machine =
      .ok () ⟨machine.memory.setEntry slot .empty, machine.log⟩ := by
  rw [unmap, Action.run_bind_ok (Machine.run_inspect_ok hfind)]
  simp only [EStateM.run_bind, Machine.run_inspect_pure, hvalid, if_true, Machine.run_change]

-- Whoever unmaps a page, an entry that was valid is cleared, or nothing is.
theorem run_unmap_cases (table : PageTable) (page : VirtPage) (machine : Machine) :
    (∃ slot, table.find? page machine.memory = .ok (some slot) ∧
        (machine.memory.entry slot).isValid = true ∧
        (table.unmap page).run machine =
          .ok () ⟨machine.memory.setEntry slot .empty, machine.log⟩) ∨
      (∀ slot, table.find? page machine.memory = .ok (some slot) →
          (machine.memory.entry slot).isValid = false) ∧
        ∃ stop machine', (table.unmap page).run machine = .error stop machine' ∧
          machine'.memory = machine.memory := by
  cases hfind : table.find? page machine.memory with
  | error cause =>
      refine Or.inr ⟨fun slot h => (nomatch h), .fault cause,
        ⟨machine.memory, machine.log ++ cause.lines⟩, ?_, rfl⟩
      rw [unmap, Action.run_bind_error (Machine.run_inspect_error hfind)]
  | ok slot? =>
      cases slot? with
      | none =>
          refine Or.inr ⟨fun slot h => (nomatch h), .fault (.notMapped page),
            ⟨machine.memory, machine.log ++ (Fault.notMapped page).lines⟩, ?_, rfl⟩
          rw [unmap, Action.run_bind_ok (Machine.run_inspect_ok hfind), Machine.run_fail]
      | some slot =>
          cases hvalid : (machine.memory.entry slot).isValid with
          | true => exact Or.inl ⟨slot, rfl, hvalid, run_unmap_of_slot hfind hvalid⟩
          | false =>
              refine Or.inr ⟨fun other heq => ?_, .fault (.notMapped page),
                ⟨machine.memory, machine.log ++ (Fault.notMapped page).lines⟩, ?_, rfl⟩
              · cases heq
                exact hvalid
              · rw [unmap, Action.run_bind_ok (Machine.run_inspect_ok hfind)]
                simp only [EStateM.run_bind, Machine.run_inspect_pure, hvalid, Bool.false_eq_true,
                  if_false]
                exact Machine.run_fail _ _

theorem run_unmap_of_mapped (h : table.Standing machine.memory free)
    (hmapped : mappedFrom machine.memory page rootHeight table.root = some entry) :
    ∃ machine', (table.unmap page).run machine = .ok () machine' ∧
      machine'.log = machine.log ∧
      Remapped machine.memory machine'.memory table.root [] page none := by
  obtain ⟨slot, hslot, hentry, hvalid⟩ := mappedFrom_eq_some hmapped
  refine ⟨_, run_unmap_of_slot (h.find?_eq.trans (congrArg _ hslot)) (hentry ▸ hvalid), rfl, ?_⟩
  have hremapped := (Grown.refl machine.memory rootHeight table.root).remapped_setEntry
    .empty h.nodup (h.slot_window hslot) hslot
  rwa [Option.filter_some, Entry.isValid_empty, if_neg Bool.false_ne_true] at hremapped

theorem run_unmap_of_unmapped (h : table.Standing machine.memory free)
    (hunmapped : mappedFrom machine.memory page rootHeight table.root = none) :
    (table.unmap page).run machine =
      .error (.fault (.notMapped page))
        ⟨machine.memory, machine.log ++ (Fault.notMapped page).lines⟩ := by
  rw [unmap, Action.run_bind_ok (Machine.run_inspect_ok h.find?_eq)]
  cases hslot : slotFrom machine.memory page rootHeight table.root with
  | none => rfl
  | some slot =>
      have hempty := isValid_of_mappedFrom_eq_none hunmapped hslot
      simp only [EStateM.run_bind, Machine.run_inspect_pure, hempty, Bool.false_eq_true, if_false,
        Machine.run_fail]

end PageTable

end PagedMemory
