import PagedMemory.Proofs.Session.Freeing

namespace PagedMemory

namespace PageTable

variable {memory memory' : Memory} {view table : PageTable} {root : PhysPage} {page : VirtPage}
  {fresh : List PhysPage} {mapping : Option Entry}

-- What a lookup finds depends on the root only.
theorem translate?_of_root_eq (h : view.root = table.root) :
    view.translate? page memory = table.translate? page memory := by
  rw [translate?, translate?, find?, find?, h]

theorem Remapped.window (h : Remapped memory memory' root fresh page mapping)
    (hfresh : ∀ frame ∈ fresh, frame.number < memory.frames)
    (hnodes : ∀ node ∈ nodesFrom memory rootHeight root, node.number < memory.frames) :
    ∀ node ∈ nodesFrom memory' rootHeight root, node.number < memory'.frames := by
  intro node hmem
  rw [h.frames]
  rcases List.mem_append.mp (h.nodes.mem_iff.mp hmem) with hmem | hmem
  · exact hfresh node hmem
  · exact hnodes node hmem

end PageTable

namespace Session

variable {session after : Session} {low high slot other : Nat} {loose fresh rest : List PhysPage}
  {table owner view : PageTable} {page : VirtPage} {mapping : Option Entry} {memory' : Memory}

-- Contents of memory are compared here and never computed.
attribute [local irreducible] Memory.entry Memory.frame Memory.setEntry

-- Lookups through owners, and through views of their tables, find what they found.
def LookupsKept (session after : Session) : Prop :=
  ∀ slot owner, session.tables.get? slot = some owner → owner.owned = true →
    ∀ view : PageTable, view.root = owner.root → ∀ page,
      view.translate? page after.kernel.machine.memory =
        view.translate? page session.kernel.machine.memory

namespace Accounts

variable {free : List PhysPage}

-- The page that was mapped anew is found as it is mapped now.
theorem translate?_remapped (h : Accounts low high session loose (fresh ++ rest))
    (hget : session.tables.get? slot = some table) (howned : table.owned = true)
    (hremapped : PageTable.Remapped session.kernel.machine.memory memory' table.root fresh page mapping)
    (hroot : view.root = table.root) : view.translate? page memory' = .ok mapping := by
  have hwindow := hremapped.window
    (fun frame hmem => h.offers.lt_frames (List.mem_append_left _ hmem)) (h.standing hget howned).window
  rw [PageTable.translate?_of_root_eq hroot, PageTable.translate?_eq hwindow, hremapped.same]

-- Other pages of the table, and all pages of other tables, are found as before.
theorem translate?_of_remapped (h : Accounts low high session loose (fresh ++ rest))
    (hget : session.tables.get? slot = some table) (howned : table.owned = true)
    (hremapped : PageTable.Remapped session.kernel.machine.memory memory' table.root fresh page mapping)
    (hget' : session.tables.get? other = some owner) (howned' : owner.owned = true)
    (hroot : view.root = owner.root) {otherPage : VirtPage} (hne : other = slot → otherPage ≠ page) :
    view.translate? otherPage memory' =
      view.translate? otherPage session.kernel.machine.memory := by
  rw [PageTable.translate?_of_root_eq hroot, PageTable.translate?_of_root_eq hroot]
  by_cases hslot : other = slot
  · have htable := hget'.symm.trans (hslot ▸ hget)
    rw [Option.some_inj] at htable
    subst htable
    have hwindow := (h.standing hget' howned').window
    have hwindow' := hremapped.window
      (fun frame hmem => h.offers.lt_frames (List.mem_append_left _ hmem)) hwindow
    rw [PageTable.translate?_eq hwindow', PageTable.translate?_eq hwindow,
      hremapped.others otherPage (hne hslot)]
  · refine PageTable.translate?_congr hremapped.frames fun node hmem => hremapped.spared node ?_ ?_
    · have hnode := node_mem hget' howned' (PageTable.walkFrom_subset hmem)
      exact fun hfresh => (h.node_apart hnode).1 (List.mem_append_left _ hfresh)
    · exact h.walk_apart hslot hget howned hget' howned' otherPage node hmem

-- New nodes bring no new mappings.
theorem lookupsKept_of_grown (h : Accounts low high session loose (fresh ++ rest))
    (hget : session.tables.get? slot = some table) (howned : table.owned = true)
    (hgrown : PageTable.Grown session.kernel.machine.memory after.kernel.machine.memory
      PageTable.rootHeight table.root fresh) : session.LookupsKept after := by
  intro other owner hget' howned' view hroot page
  by_cases hslot : other = slot
  · have htable := hget'.symm.trans (hslot ▸ hget)
    rw [Option.some_inj] at htable
    subst htable
    rw [h.translate?_remapped hget' howned' (hgrown.remapped page) hroot,
      PageTable.translate?_of_root_eq hroot,
      PageTable.translate?_eq (h.standing hget' howned').window]
  · exact h.translate?_of_remapped hget howned (hgrown.remapped page) hget' howned' hroot
      fun heq => absurd heq hslot

end Accounts

end Session

end PagedMemory
