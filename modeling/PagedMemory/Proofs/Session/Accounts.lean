import PagedMemory.Proofs.Slots
import PagedMemory.Proofs.Table.Freeing

namespace PagedMemory

-- Contents of memory are compared here and never computed.
attribute [local irreducible] Memory.entry Memory.frame

-- The frame an owner answers for.
def OwnedFrame.holds (frame : OwnedFrame) : List PhysPage :=
  if frame.owned then [frame.page] else []

-- The nodes a table answers for.
def PageTable.holds (memory : Memory) (table : PageTable) : List PhysPage :=
  if table.owned then nodesFrom memory rootHeight table.root else []

-- Those among them that point at nodes.
def PageTable.interior (memory : Memory) (table : PageTable) : List PhysPage :=
  if table.owned then interiorFrom memory rootHeight table.root else []

theorem OwnedFrame.holds_of_owned {frame : OwnedFrame} (h : frame.owned = true) :
    frame.holds = [frame.page] := if_pos h

theorem OwnedFrame.holds_of_disowned {frame : OwnedFrame} (h : frame.owned = false) :
    frame.holds = [] := by rw [holds, h]; rfl

theorem PageTable.holds_of_owned {table : PageTable} {memory : Memory}
    (h : table.owned = true) : table.holds memory = nodesFrom memory rootHeight table.root := if_pos h

theorem PageTable.holds_of_view {table : PageTable} {memory : Memory}
    (h : table.owned = false) : table.holds memory = [] := by rw [holds, h]; rfl

theorem PageTable.interior_subset {table : PageTable} {memory : Memory} :
    table.interior memory ⊆ table.holds memory := by
  rw [interior, holds]
  split
  · exact interiorFrom_subset
  · exact List.Subset.refl _

theorem PageTable.holds_congr {table : PageTable} {memory memory' : Memory}
    (h : ∀ frame ∈ table.interior memory, memory'.frame frame = memory.frame frame) :
    table.holds memory' = table.holds memory := by
  rw [interior] at h
  rw [holds, holds]
  split
  · rename_i howned
    rw [if_pos howned] at h
    exact nodesFrom_congr h
  · rfl

-- The leaf that maps a page to a frame, with the flags it was asked for.
def Entry.leafOf (mapping : PhysPage × Flags) : Entry := .leaf mapping.1 mapping.2

namespace Session

variable {session session' : Session} {low high slot : Nat}
  {loose loose' free free' : List PhysPage} {frame : PhysPage} {table : PageTable}
  {old new : Nat → VirtPage → Option (PhysPage × Flags)}

def heldFrames (session : Session) : List PhysPage := session.frames.total OwnedFrame.holds

def nodeFrames (session : Session) : List PhysPage :=
  session.tables.total (PageTable.holds session.kernel.machine.memory)

def interiorFrames (session : Session) : List PhysPage :=
  session.tables.total (PageTable.interior session.kernel.machine.memory)

theorem interiorFrames_subset : session.interiorFrames ⊆ session.nodeFrames := by
  intro frame hmem
  obtain ⟨entry, hentry, hin⟩ := Slots.mem_total.mp hmem
  exact Slots.mem_total.mpr ⟨entry, hentry, PageTable.interior_subset hin⟩

-- Every frame of the range has one owner: the pool, an owner that was given it, the table it is a
-- node of, or somebody outside who took it or to whom it was released. Tables know how many nodes
-- they have.
structure Accounts (low high : Nat) (session : Session) (loose free : List PhysPage) : Prop where
  offers : session.kernel.Offers low high free
  shared : (free ++ session.heldFrames ++ loose ++ session.nodeFrames).Perm
    (PhysPage.upTo low high)
  frameSlots : session.frames.Distinct
  tableSlots : session.tables.Distinct
  counted : ∀ slot table, session.tables.get? slot = some table → table.owned = true →
    table.nodes = (PageTable.nodesFrom session.kernel.machine.memory PageTable.rootHeight
      table.root).length

namespace Accounts

theorem nodup (h : Accounts low high session loose free) :
    (free ++ session.heldFrames ++ loose ++ session.nodeFrames).Nodup :=
  h.shared.nodup_iff.mpr (PhysPage.nodup_upTo h.offers.high_le_pages)

theorem range (h : Accounts low high session loose free)
    (hmem : frame ∈ free ++ session.heldFrames ++ loose ++ session.nodeFrames) :
    low ≤ frame.number ∧ frame.number < high :=
  (PhysPage.mem_upTo h.offers.high_le_pages).mp (h.shared.mem_iff.mp hmem)

-- Nobody else has the nodes of a table.
theorem node_apart (h : Accounts low high session loose free) (hmem : frame ∈ session.nodeFrames) :
    frame ∉ free ∧ frame ∉ session.heldFrames ∧ frame ∉ loose := by
  have hdisjoint := (List.nodup_append'.mp h.nodup).2.2
  refine ⟨fun hin => ?_, fun hin => ?_, fun hin => ?_⟩
  · exact hdisjoint (List.mem_append_left _ (List.mem_append_left _ hin)) hmem
  · exact hdisjoint (List.mem_append_left _ (List.mem_append_right _ hin)) hmem
  · exact hdisjoint (List.mem_append_right _ hin) hmem

theorem held_apart (h : Accounts low high session loose free) (hmem : frame ∈ session.heldFrames) :
    frame ∉ free ∧ frame ∉ loose := by
  have hnodup := List.nodup_append'.mp (List.nodup_append'.mp h.nodup).1
  exact ⟨fun hin => (List.nodup_append'.mp hnodup.1).2.2 hin hmem,
    fun hin => hnodup.2.2 (List.mem_append_right _ hmem) hin⟩

theorem loose_apart (h : Accounts low high session loose free) (hmem : frame ∈ loose) :
    frame ∉ free := fun hin =>
  (List.nodup_append'.mp (List.nodup_append'.mp h.nodup).1).2.2 (List.mem_append_left _ hin) hmem

-- Frames that were given out are not free.
theorem given_apart (h : Accounts low high session loose free)
    (hmem : frame ∈ session.heldFrames ∨ frame ∈ loose) : frame ∉ free := by
  rcases hmem with hmem | hmem
  · exact (h.held_apart hmem).1
  · exact h.loose_apart hmem

-- Each of them is out of the pool.
theorem out_of_given (h : Accounts low high session loose free)
    (hmem : frame ∈ session.heldFrames ∨ frame ∈ loose) : Kernel.Out low high [frame] free := by
  refine ⟨List.nodup_singleton frame, fun other hother => ?_, fun other hother => ?_⟩
  · rw [List.mem_singleton.mp hother]
    refine h.range (List.mem_append_left _ ?_)
    rcases hmem with hmem | hmem
    · exact List.mem_append_left _ (List.mem_append_right _ hmem)
    · exact List.mem_append_right _ hmem
  · rw [List.mem_singleton.mp hother]
    exact h.given_apart hmem

theorem nodes_perm (h : Accounts low high session loose free) (slot : Nat) :
    session.nodeFrames.Perm
      ((session.tables.get? slot).elim [] (PageTable.holds session.kernel.machine.memory) ++
        (session.tables.erase slot).total (PageTable.holds session.kernel.machine.memory)) :=
  Slots.total_perm slot h.tableSlots rfl

-- No two tables have a node in common.
theorem other_apart (h : Accounts low high session loose free)
    (hmem : frame ∈ (session.tables.erase slot).total
      (PageTable.holds session.kernel.machine.memory)) :
    frame ∉ (session.tables.get? slot).elim []
      (PageTable.holds session.kernel.machine.memory) := by
  have hnodup := (h.nodes_perm slot).nodup_iff.mp (List.nodup_append'.mp h.nodup).2.1
  exact fun hin => (List.nodup_append'.mp hnodup).2.2 hin hmem

theorem held_mem {owner : OwnedFrame} (hget : session.frames.get? slot = some owner)
    (howned : owner.owned = true) : owner.page ∈ session.heldFrames :=
  Slots.mem_total_of_get? hget (by rw [OwnedFrame.holds_of_owned howned]; exact List.mem_cons_self)

theorem node_mem (hget : session.tables.get? slot = some table) (howned : table.owned = true)
    (hmem : frame ∈ PageTable.nodesFrom session.kernel.machine.memory PageTable.rootHeight
      table.root) : frame ∈ session.nodeFrames :=
  Slots.mem_total_of_get? hget (by rwa [PageTable.holds_of_owned howned])

theorem nodes_apart {other : Nat} {owner : PageTable} (h : Accounts low high session loose free)
    (hne : other ≠ slot) (hget : session.tables.get? slot = some table) (howned : table.owned = true)
    (hget' : session.tables.get? other = some owner) (howned' : owner.owned = true)
    (hmem : frame ∈ PageTable.nodesFrom session.kernel.machine.memory PageTable.rootHeight
      owner.root) :
    frame ∉ PageTable.nodesFrom session.kernel.machine.memory PageTable.rootHeight table.root := by
  have hother : frame ∈ (session.tables.erase slot).total
      (PageTable.holds session.kernel.machine.memory) := by
    refine Slots.mem_total_of_get? ((Slots.get?_erase_other _ _ _ hne).trans hget') ?_
    rwa [PageTable.holds_of_owned howned']
  have hapart := h.other_apart hother
  rwa [hget, Option.elim_some, PageTable.holds_of_owned howned] at hapart

-- The tree of an owner is fit to be worked on.
theorem standing (h : Accounts low high session loose free)
    (hget : session.tables.get? slot = some table) (howned : table.owned = true) :
    table.Standing session.kernel.machine.memory free := by
  have hperm := h.nodes_perm slot
  rw [hget, Option.elim_some, PageTable.holds_of_owned howned] at hperm
  have hnodup := hperm.nodup_iff.mp (List.nodup_append'.mp h.nodup).2.1
  refine ⟨howned, (List.nodup_append'.mp hnodup).1, fun frame hfree hmem => ?_, fun other hmem => ?_⟩
  · exact (h.node_apart (node_mem hget howned hmem)).1 hfree
  · have hrange := h.range (List.mem_append_right _ (node_mem hget howned hmem))
    exact Nat.lt_of_lt_of_le hrange.2 h.offers.high_le_frames

-- Its nodes are out of the pool.
theorem out (h : Accounts low high session loose free)
    (hget : session.tables.get? slot = some table) (howned : table.owned = true) :
    Kernel.Out low high (PageTable.nodesFrom session.kernel.machine.memory PageTable.rootHeight
      table.root) free := by
  have hstanding := h.standing hget howned
  refine ⟨hstanding.nodup, fun node hmem => ?_, fun node hmem hfree =>
    hstanding.apart node hfree hmem⟩
  exact h.range (List.mem_append_right _ (node_mem hget howned hmem))

-- Frames may change hands while the tables stay as they are.
theorem change (h : Accounts low high session loose free)
    (htables : session'.tables = session.tables) (hoffers : session'.kernel.Offers low high free')
    (hspared : ∀ other ∈ session.interiorFrames,
      session'.kernel.machine.memory.frame other = session.kernel.machine.memory.frame other)
    (hslots : session'.frames.Distinct)
    (hperm : (free' ++ session'.heldFrames ++ loose').Perm (free ++ session.heldFrames ++ loose)) :
    Accounts low high session' loose' free' := by
  have hholds : ∀ slot table, session.tables.get? slot = some table →
      table.holds session'.kernel.machine.memory = table.holds session.kernel.machine.memory :=
    fun slot table hget => PageTable.holds_congr fun other hmem =>
      hspared other (Slots.mem_total_of_get? hget hmem)
  have hnodes : session'.nodeFrames = session.nodeFrames := by
    rw [nodeFrames, nodeFrames, htables]
    refine Slots.total_congr fun entry hentry => PageTable.holds_congr fun other hmem => ?_
    exact hspared other (Slots.mem_total.mpr ⟨entry, hentry, hmem⟩)
  refine ⟨hoffers, ?_, hslots, htables ▸ h.tableSlots, ?_⟩
  · rw [hnodes]
    exact (hperm.append_right _).trans h.shared
  · intro slot table hget howned
    rw [htables] at hget
    rw [h.counted slot table hget howned, ← PageTable.holds_of_owned howned,
      ← PageTable.holds_of_owned howned, hholds slot table hget]

-- One table may change, with frames that come from the pool and go to it. All other nodes are spared.
theorem changeTable (h : Accounts low high session loose free)
    (hframes : session'.frames = session.frames)
    (herase : session'.tables.erase slot = session.tables.erase slot)
    (hslots : session'.tables.Distinct)
    (hoffers : session'.kernel.Offers low high free')
    (hspared : ∀ other ∈ (session.tables.erase slot).total
        (PageTable.holds session.kernel.machine.memory),
      session'.kernel.machine.memory.frame other = session.kernel.machine.memory.frame other)
    (hperm : (free' ++ (session'.tables.get? slot).elim []
        (PageTable.holds session'.kernel.machine.memory)).Perm
      (free ++ (session.tables.get? slot).elim [] (PageTable.holds session.kernel.machine.memory)))
    (hcounted : ∀ table, session'.tables.get? slot = some table → table.owned = true →
      table.nodes = (PageTable.nodesFrom session'.kernel.machine.memory PageTable.rootHeight
        table.root).length) :
    Accounts low high session' loose free' := by
  have hothers : (session.tables.erase slot).total (PageTable.holds session'.kernel.machine.memory) =
      (session.tables.erase slot).total (PageTable.holds session.kernel.machine.memory) :=
    Slots.total_congr fun entry hentry => PageTable.holds_congr fun other hmem =>
      hspared other (Slots.mem_total.mpr ⟨entry, hentry, PageTable.interior_subset hmem⟩)
  have hnodes := Slots.total_perm (f := PageTable.holds session'.kernel.machine.memory) slot
    hslots rfl
  rw [herase, hothers] at hnodes
  refine ⟨hoffers, ?_, hframes ▸ h.frameSlots, hslots, ?_⟩
  · refine List.Perm.trans (List.perm_iff_count.mpr fun frame => ?_) h.shared
    have hnew := hnodes.count_eq frame
    have hold := (h.nodes_perm slot).count_eq frame
    have hmoved := hperm.count_eq frame
    rw [heldFrames, heldFrames, hframes]
    simp only [nodeFrames, List.count_append] at hnew hold hmoved ⊢
    omega
  · intro other table hget howned
    by_cases hslot : other = slot
    · subst hslot
      exact hcounted table hget howned
    · rw [← Slots.get?_erase_other _ _ _ hslot, herase] at hget
      have hholds : table.holds session'.kernel.machine.memory =
          table.holds session.kernel.machine.memory := PageTable.holds_congr fun frame hmem =>
        hspared frame (Slots.mem_total_of_get? hget (PageTable.interior_subset hmem))
      rw [Slots.get?_erase_other _ _ _ hslot] at hget
      rw [h.counted other table hget howned, ← PageTable.holds_of_owned howned,
        ← PageTable.holds_of_owned howned, hholds]

end Accounts

-- The owning tables of a session map what a record of mappings says.
def Agrees (session : Session) (record : Nat → VirtPage → Option (PhysPage × Flags)) : Prop :=
  ∀ slot table, session.tables.get? slot = some table → table.owned = true → ∀ page,
    PageTable.mappedFrom session.kernel.machine.memory page PageTable.rootHeight table.root =
      (record slot page).map Entry.leafOf

namespace Agrees

theorem change (h : session.Agrees old) (htables : session'.tables = session.tables)
    (hspared : ∀ other ∈ session.nodeFrames,
      session'.kernel.machine.memory.frame other = session.kernel.machine.memory.frame other) :
    session'.Agrees old := by
  intro slot table hget howned page
  rw [htables] at hget
  rw [← h slot table hget howned page]
  exact PageTable.mappedFrom_congr fun other hmem =>
    hspared other (Accounts.node_mem hget howned hmem)

theorem changeTable (h : session.Agrees old)
    (herase : session'.tables.erase slot = session.tables.erase slot)
    (hspared : ∀ other ∈ (session.tables.erase slot).total
        (PageTable.holds session.kernel.machine.memory),
      session'.kernel.machine.memory.frame other = session.kernel.machine.memory.frame other)
    (hthis : ∀ table, session'.tables.get? slot = some table → table.owned = true → ∀ page,
      PageTable.mappedFrom session'.kernel.machine.memory page PageTable.rootHeight table.root =
        (new slot page).map Entry.leafOf)
    (hothers : ∀ other ≠ slot, ∀ page, new other page = old other page) :
    session'.Agrees new := by
  intro other table hget howned page
  by_cases hslot : other = slot
  · subst hslot
    exact hthis table hget howned page
  · rw [← Slots.get?_erase_other _ _ _ hslot, herase] at hget
    have hmem : ∀ frame ∈ PageTable.nodesFrom session.kernel.machine.memory PageTable.rootHeight
        table.root, frame ∈ (session.tables.erase slot).total
          (PageTable.holds session.kernel.machine.memory) := fun frame hin =>
      Slots.mem_total_of_get? hget (by rwa [PageTable.holds_of_owned howned])
    rw [Slots.get?_erase_other _ _ _ hslot] at hget
    rw [hothers other hslot, ← h other table hget howned page]
    exact PageTable.mappedFrom_congr fun frame hin => hspared frame (hmem frame hin)

end Agrees

end Session

end PagedMemory
