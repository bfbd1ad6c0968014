import PagedMemory.Proofs.Session.Invariant

namespace PagedMemory.Session

variable {session : Session} {low high slot nodes : Nat} {loose free : List PhysPage}
  {history : List Event} {table : PageTable} {page : VirtPage} {name : FrameName} {flags : Flags}
  {frame : PhysPage}

-- Nobody has anything yet.

theorem heldFrames_of_empty (h : session.frames = {}) : session.heldFrames = [] := by
  rw [heldFrames, h]
  rfl

theorem nodeFrames_of_empty (h : session.tables = {}) : session.nodeFrames = [] := by
  rw [nodeFrames, h]
  rfl

-- When commands have a result.

theorem Run.exists_start (memory : Memory) (kernelEnd memoryEnd : UInt64)
    (hlow : low = (PhysAddr.ofNat kernelEnd.toNat).pageCeil.number)
    (hhigh : high = (PhysAddr.ofNat memoryEnd.toNat).page.number) (hle : low ≤ high)
    (hwindow : high ≤ memory.frames) :
    ∃ session, Run low high session [] ∧ session.frames = {} ∧ session.tables = {} := by
  subst hlow hhigh
  obtain ⟨kernel', hrun, -, -⟩ :=
    Kernel.run_initFrames_of_le memory _ _ rfl rfl hwindow hle
  exact ⟨_, .start rfl rfl hwindow (step_init_of_ok hrun), rfl, rfl⟩

namespace Accounts

-- What is free is what nobody has.
theorem free_length (h : Accounts low high session loose free) :
    free.length + session.heldFrames.length + loose.length + session.nodeFrames.length =
      high - low := by
  have hlength := h.shared.length_eq
  rwa [List.length_append, List.length_append, List.length_append, PhysPage.length_upTo] at hlength

theorem step_frame_take (h : Accounts low high session loose free) (slot : Nat)
    (hroom : 0 < free.length) :
    ∃ frame after, (step (.frame slot .take)).run session = .ok (.page frame) after ∧
      after.frames = session.frames.set slot ⟨frame, true⟩ ∧ after.tables = session.tables := by
  obtain ⟨frame, rest, rfl⟩ := List.exists_cons_of_length_pos hroom
  obtain ⟨kernel', hrun, -⟩ := h.step_frame_take_cons slot
  exact ⟨frame, _, hrun, rfl, rfl⟩

theorem step_create (h : Accounts low high session loose free) (slot : Nat)
    (hroom : 0 < free.length) :
    ∃ root after, (step (.table slot .create)).run session = .ok (.page root) after ∧
      after.frames = session.frames ∧
      after.tables = session.tables.set slot ⟨root, true, 1⟩ := by
  obtain ⟨root, rest, rfl⟩ := List.exists_cons_of_length_pos hroom
  obtain ⟨kernel', hrun, -⟩ := PageTable.run_create_cons h.offers
  exact ⟨root, _, Action.run_bind_ok (run_onKernel_ok hrun), rfl, rfl⟩

-- There is room for a page if all nodes on the way to it could be made.
theorem step_map (h : Accounts low high session loose free)
    (hget : session.tables.get? slot = some table) (howned : table.owned = true)
    (hname : session.frameNamed? name = some frame)
    (hunmapped : PageTable.mappedFrom session.kernel.machine.memory page PageTable.rootHeight
      table.root = none)
    (hroom : PageTable.missingFrom session.kernel.machine.memory page PageTable.rootHeight
      table.root ≤ free.length) (flags : Flags) :
    ∃ nodes after, (step (.table slot (.map page name flags))).run session =
        .ok (.count nodes) after ∧
      after.frames = session.frames ∧
      after.tables = session.tables.set slot { table with nodes } ∧
      nodes = table.nodes + PageTable.missingFrom session.kernel.machine.memory page
        PageTable.rootHeight table.root := by
  rcases h.step_map_cases hget howned hname page flags with ⟨entry, hmapped, -⟩ |
    ⟨-, fresh, rest, kernel', rfl, -, -, ⟨hstep, hlength, -⟩ | ⟨rfl, hfew, -⟩⟩
  · cases hunmapped.symm.trans hmapped
  · exact ⟨_, _, hstep, rfl, rfl, congrArg (table.nodes + ·) hlength⟩
  · rw [List.append_nil] at hroom
    omega

-- What a session has left that has one table and nothing else.
theorem free_length_of_one_table (h : Accounts low high session [] free)
    (hframes : session.frames = {}) (htables : session.tables = ({} : Slots PageTable).set 0 table)
    (howned : table.owned = true) : free.length + table.nodes = high - low := by
  have hget : session.tables.get? 0 = some table := by rw [htables, Slots.get?_set_same]
  have hnodes : session.nodeFrames.length = table.nodes := by
    rw [nodeFrames, htables, Slots.total_set, PageTable.holds_of_owned howned, List.length_append,
      ← h.counted 0 table hget howned]
    rfl
  have hlength := h.free_length
  rw [heldFrames_of_empty hframes, hnodes] at hlength
  exact hlength

end Accounts

-- A new session with one table, in which nothing is mapped.
theorem Run.exists_created (memory : Memory) (kernelEnd memoryEnd : UInt64)
    (hlow : low = (PhysAddr.ofNat kernelEnd.toNat).pageCeil.number)
    (hhigh : high = (PhysAddr.ofNat memoryEnd.toNat).page.number) (hroom : low < high)
    (hwindow : high ≤ memory.frames) :
    ∃ empty created root free,
      Run low high created [⟨empty, .table 0 .create, .page root⟩] ∧
      Accounts low high created [] free ∧ free.length + 1 = high - low ∧
      created.frames = {} ∧ created.tables = ({} : Slots PageTable).set 0 ⟨root, true, 1⟩ ∧
      ∀ page, PageTable.mappedFrom created.kernel.machine.memory page PageTable.rootHeight root =
        none := by
  obtain ⟨empty, hrun₀, hframes₀, htables₀⟩ :=
    exists_start memory kernelEnd memoryEnd hlow hhigh (Nat.le_of_lt hroom) hwindow
  obtain ⟨free₀, haccounts₀, -⟩ := hrun₀.invariant
  have hcount₀ := haccounts₀.free_length
  rw [heldFrames_of_empty hframes₀, nodeFrames_of_empty htables₀] at hcount₀
  have hempty : empty.tables.get? 0 = none := by rw [htables₀]; rfl
  obtain ⟨root, created, hcreate, hframes₁, htables₁⟩ := haccounts₀.step_create 0 (by
    simp only [Event.loose, List.length_nil] at hcount₀
    omega)
  have hpermitted : empty.Permitted (Event.loose []) (.table 0 .create) := hempty
  have hrun₁ := hrun₀.step hpermitted hcreate
  obtain ⟨free₁, haccounts₁, hagrees₁⟩ := hrun₁.invariant
  have hget₁ : created.tables.get? 0 = some ⟨root, true, 1⟩ := by
    rw [htables₁, Slots.get?_set_same]
  have hcount₁ := haccounts₁.free_length_of_one_table (hframes₁.trans hframes₀)
    (htables₁.trans (by rw [htables₀])) rfl
  refine ⟨empty, created, root, free₁, hrun₁, haccounts₁, hcount₁, hframes₁.trans hframes₀,
    htables₁.trans (by rw [htables₀]), fun page => ?_⟩
  have hunmapped := hagrees₁ (by simp [Event.ByOwner]) 0 _ hget₁ rfl page
  rwa [Event.record, Event.recordAfter_create, if_pos rfl, Option.map_none] at hunmapped

-- In a session with one table and room for two nodes, a page can be mapped that is not.
theorem Run.exists_map (hrun : Run low high session history) (hloose : Event.loose history = [])
    (howner : ∀ event ∈ history, event.ByOwner) (hframes : session.frames = {})
    (htables : session.tables = ({} : Slots PageTable).set 0 table) (howned : table.owned = true)
    (hroom : table.nodes + 2 ≤ high - low) (hunmapped : Event.record history 0 page = none)
    (frame : PhysPage) (flags : Flags) :
    ∃ nodes after,
      Run low high after (⟨session, .table 0 (.map page (.page frame) flags), .count nodes⟩ ::
        history) ∧
      after.frames = {} ∧ after.tables = ({} : Slots PageTable).set 0 { table with nodes } ∧
      nodes ≤ table.nodes + 2 := by
  obtain ⟨free, haccounts, hagrees⟩ := hrun.invariant
  rw [hloose] at haccounts
  have hget : session.tables.get? 0 = some table := by rw [htables, Slots.get?_set_same]
  have hname : session.frameNamed? (.page frame) = some frame := rfl
  have hcount := haccounts.free_length_of_one_table hframes htables howned
  have hmapped := hagrees howner 0 table hget howned page
  rw [hunmapped, Option.map_none] at hmapped
  have hmissing : PageTable.missingFrom session.kernel.machine.memory page PageTable.rootHeight
      table.root ≤ 2 := PageTable.missingFrom_le _ _ _ _
  obtain ⟨nodes, after, hmap, hframes', htables', hnodes⟩ :=
    haccounts.step_map hget howned hname hmapped (by omega) flags
  refine ⟨nodes, after, hrun.step trivial hmap, hframes'.trans hframes, ?_, by omega⟩
  rw [htables', htables, Slots.set_set]

-- A new session with one table and one page mapped in it. The frame behind the page may be chosen when
-- the root is known.
theorem Run.exists_mapped (memory : Memory) (kernelEnd memoryEnd : UInt64)
    (hlow : low = (PhysAddr.ofNat kernelEnd.toNat).pageCeil.number)
    (hhigh : high = (PhysAddr.ofNat memoryEnd.toNat).page.number) (hroom : low + 3 ≤ high)
    (hwindow : high ≤ memory.frames) (page : VirtPage) (frameOf : PhysPage → PhysPage)
    (flags : Flags) :
    ∃ empty created session root nodes,
      Run low high session
        [⟨created, .table 0 (.map page (.page (frameOf root)) flags), .count nodes⟩,
          ⟨empty, .table 0 .create, .page root⟩] ∧
      session.frames = {} ∧ session.tables.get? 0 = some ⟨root, true, nodes⟩ ∧
      ∀ other ≠ 0, session.tables.get? other = none := by
  obtain ⟨empty, created, root, -, hrun, -, -, hframes, htables, -⟩ :=
    exists_created memory kernelEnd memoryEnd hlow hhigh (by omega) hwindow
  have hunmapped : Event.record [⟨empty, .table 0 .create, .page root⟩] 0 page = none := by
    rw [Event.record, Event.recordAfter_create, if_pos rfl]
  obtain ⟨nodes, session, hrun', hframes', htables', -⟩ :=
    hrun.exists_map rfl (by simp [Event.ByOwner]) hframes htables rfl
      (show 1 + 2 ≤ high - low by omega) hunmapped (frameOf root) flags
  refine ⟨empty, created, session, root, nodes, hrun', hframes', ?_, fun other hne => ?_⟩
  · rw [htables', Slots.get?_set_same]
  · rw [htables', Slots.get?_set_other _ _ _ _ hne]
    rfl

end PagedMemory.Session
