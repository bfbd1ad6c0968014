import PagedMemory.Proofs.Keeps
import PagedMemory.Proofs.Session.Growing
import PagedMemory.Proofs.Session.Ownership

namespace PagedMemory.Session

variable {session after : Session} {low high slot count : Nat} {loose free : List PhysPage}
  {history : List Event} {table : PageTable} {page : VirtPage} {name : FrameName} {flags : Flags}
  {frame : PhysPage} {command : Command} {cause : Fault} {stop : Stop} {reply : Reply}
  {condition : Prop}

-- Contents of memory are compared here and never computed.
attribute [local irreducible] Memory.entry Memory.frame Memory.setEntry

-- A command stops for a reason under one condition, and then leaves a session of a kind.
def StopsWhen (session : Session) (command : Command) (cause : Fault) (condition : Prop)
    (left : Session → Prop) : Prop :=
  ((∃ after, (step command).run session = .error (.fault cause) after) ↔ condition) ∧
    ∀ after, (step command).run session = .error (.fault cause) after → left after

-- A command has a result under one condition, and then leaves a session of a kind.
def SucceedsWhen (session : Session) (command : Command) (condition : Prop)
    (left : Reply → Session → Prop) : Prop :=
  ((∃ reply after, (step command).run session = .ok reply after) ↔ condition) ∧
    ∀ reply after, (step command).run session = .ok reply after → left reply after

section outcomes

variable {left : Session → Prop} {left' : Reply → Session → Prop}

-- A command has one outcome, and the conditions of the others do not hold.

theorem stopsWhen_of_error (hrun : (step command).run session = .error (.fault cause) after)
    (hcondition : condition) (hleft : left after) : session.StopsWhen command cause condition left := by
  refine ⟨⟨fun _ => hcondition, fun _ => ⟨after, hrun⟩⟩, fun after' hrun' => ?_⟩
  cases hrun.symm.trans hrun'
  exact hleft

theorem stopsWhen_of_other {other : Fault}
    (hrun : (step command).run session = .error (.fault other) after) (hne : other ≠ cause)
    (hcondition : ¬condition) : session.StopsWhen command cause condition left := by
  have hnot : ∀ after, (step command).run session ≠ .error (.fault cause) after := by
    intro after' hrun'
    cases hrun.symm.trans hrun'
    exact hne rfl
  exact ⟨⟨fun ⟨_, hrun'⟩ => (hnot _ hrun').elim, fun h => (hcondition h).elim⟩,
    fun _ hrun' => (hnot _ hrun').elim⟩

theorem stopsWhen_of_ok (hrun : (step command).run session = .ok reply after)
    (hcondition : ¬condition) : session.StopsWhen command cause condition left := by
  have hnot : ∀ after, (step command).run session ≠ .error (.fault cause) after := by
    intro after' hrun'
    cases hrun.symm.trans hrun'
  exact ⟨⟨fun ⟨_, hrun'⟩ => (hnot _ hrun').elim, fun h => (hcondition h).elim⟩,
    fun _ hrun' => (hnot _ hrun').elim⟩

theorem succeedsWhen_of_ok (hrun : (step command).run session = .ok reply after)
    (hcondition : condition) (hleft : left' reply after) :
    session.SucceedsWhen command condition left' := by
  refine ⟨⟨fun _ => hcondition, fun _ => ⟨reply, after, hrun⟩⟩, fun reply' after' hrun' => ?_⟩
  cases hrun.symm.trans hrun'
  exact hleft

theorem succeedsWhen_of_error (hrun : (step command).run session = .error stop after)
    (hcondition : ¬condition) : session.SucceedsWhen command condition left' := by
  have hnot : ∀ reply after, (step command).run session ≠ .ok reply after := by
    intro reply' after' hrun'
    cases hrun.symm.trans hrun'
  exact ⟨⟨fun ⟨_, _, hrun'⟩ => (hnot _ _ hrun').elim, fun h => (hcondition h).elim⟩,
    fun _ _ hrun' => (hnot _ _ hrun').elim⟩

end outcomes

-- So many frames are free.
def Remaining (session : Session) (count : Nat) : Prop :=
  (step (.shared .remaining)).run session = .ok (.count count) session

-- The table in a slot has got so many nodes more, and no other table has changed.
def NodesAdded (session after : Session) (slot : Nat) (table : PageTable) (count : Nat) : Prop :=
  after.tables.get? slot = some { table with nodes := table.nodes + count } ∧
    ∀ other ≠ slot, after.tables.get? other = session.tables.get? other

theorem nodesAdded_withTable (session : Session) (slot : Nat) (kernel : Kernel) (table : PageTable)
    (count : Nat) : session.NodesAdded
      (session.withTable slot kernel { table with nodes := table.nodes + count }) slot table count :=
  ⟨Slots.get?_set_same _ _ _, fun _ hne => Slots.get?_set_other _ _ _ _ hne⟩

theorem intact_withTable (hget : session.tables.get? slot = some table) (log : List LogEntry) :
    session.Intact (session.withTable slot
      ⟨⟨session.kernel.machine.memory, log⟩, session.kernel.pool⟩ table) := by
  refine ⟨⟨rfl, rfl⟩, fun other => ?_⟩
  by_cases hslot : other = slot
  · rw [hslot, hget]
    exact Slots.get?_set_same _ _ _
  · exact Slots.get?_set_other _ _ _ _ hslot

-- The nodes for a page ran out of frames: all frames that were left became nodes of the table, in its
-- tree and in its count.
structure RanOut (low high : Nat) (session after : Session) (loose : List PhysPage) (slot : Nat)
    (table : PageTable) (count : Nat) : Prop where
  remaining : after.Remaining 0
  counted : session.NodesAdded after slot table count
  linked : ∃ fresh, fresh.length = count ∧
    (PageTable.nodesFrom after.kernel.machine.memory PageTable.rootHeight table.root).Perm
      (fresh ++ PageTable.nodesFrom session.kernel.machine.memory PageTable.rootHeight table.root)
  owned : after.OneOwner low high loose
  lookups : session.LookupsKept after

-- A page was mapped, with so many new nodes.
structure PageMapped (session after : Session) (slot : Nat) (table : PageTable) (page : VirtPage)
    (leaf : Entry) (count missing : Nat) : Prop where
  remaining : after.Remaining (count - missing)
  counted : session.NodesAdded after slot table missing
  mapped : table.translate? page after.kernel.machine.memory = .ok (some leaf)
  others : ∀ other owner, session.tables.get? other = some owner → owner.owned = true →
    ∀ otherPage, (other = slot → otherPage ≠ page) →
      owner.translate? otherPage after.kernel.machine.memory =
        owner.translate? otherPage session.kernel.machine.memory

-- A page was unmapped: one word of memory, which was its leaf, is all that changed.
structure PageUnmapped (session after : Session) (table : PageTable) (page : VirtPage) (count : Nat) :
    Prop where
  remaining : after.Remaining count
  tables : after.tables = session.tables
  word : ∃ found, table.find? page session.kernel.machine.memory = .ok (some found) ∧
    session.kernel.machine.memory.entry found ≠ .empty ∧
    after.kernel.machine.memory.entry found = .empty ∧
    ∀ a : PhysAddr, a.value < found.address.value ∨ found.address.value + 8 ≤ a.value →
      after.kernel.machine.memory.byte a = session.kernel.machine.memory.byte a

-- There is a new table, in which nothing is mapped.
structure TableCreated (session after : Session) (slot : Nat) (root : PhysPage) (count : Nat) :
    Prop where
  remaining : after.Remaining (count - 1)
  kept : after.tables.get? slot = some ⟨root, true, 1⟩
  unmapped : ∀ page, (PageTable.mk root true 1).translate? page after.kernel.machine.memory = .ok none
  lookups : session.LookupsKept after

namespace Accounts

theorem remaining (h : Accounts low high session loose free) : session.Remaining free.length :=
  h.step_remaining

theorem fails_map (h : Accounts low high session loose free)
    (hget : session.tables.get? slot = some table) (howned : table.owned = true)
    (hname : session.frameNamed? name = some frame) (page : VirtPage) (flags : Flags) :
    session.StopsWhen (.table slot (.map page name flags)) (.alreadyMapped page)
        (∃ entry, table.translate? page session.kernel.machine.memory = .ok (some entry))
        session.Intact ∧
      session.StopsWhen (.table slot (.map page name flags)) .noFrameForNode
        (table.translate? page session.kernel.machine.memory = .ok none ∧
          free.length < PageTable.missingFrom session.kernel.machine.memory page
            PageTable.rootHeight table.root)
        (RanOut low high session · loose slot table free.length) ∧
      session.SucceedsWhen (.table slot (.map page name flags))
        (table.translate? page session.kernel.machine.memory = .ok none ∧
          PageTable.missingFrom session.kernel.machine.memory page PageTable.rootHeight table.root ≤
            free.length)
        fun _ after => session.PageMapped after slot table page (.leaf frame flags) free.length
          (PageTable.missingFrom session.kernel.machine.memory page PageTable.rootHeight
            table.root) := by
  rw [PageTable.translate?_eq (h.standing hget howned).window]
  rcases h.step_map_cases hget howned hname page flags with ⟨entry, hmapped, hstep⟩ |
    ⟨hunmapped, fresh, rest, kernel', rfl, hoffers, -, ⟨hstep, hlength, hremapped, -⟩ |
      ⟨rfl, hfew, hstep, hpaved⟩⟩
  · rw [hmapped]
    refine ⟨stopsWhen_of_error hstep ⟨entry, rfl⟩ (intact_withTable hget _),
      stopsWhen_of_other hstep nofun ?_, succeedsWhen_of_error hstep ?_⟩
    · rintro ⟨hnone, -⟩
      cases hnone
    · rintro ⟨hnone, -⟩
      cases hnone
  · have hroom : fresh.length ≤ (fresh ++ rest).length := by
      rw [List.length_append]
      exact Nat.le_add_right _ _
    have hleft : rest.length = (fresh ++ rest).length - fresh.length := by
      rw [List.length_append]
      omega
    rw [hunmapped, ← hlength]
    refine ⟨stopsWhen_of_ok hstep ?_, stopsWhen_of_ok hstep ?_,
      succeedsWhen_of_ok hstep ⟨rfl, hroom⟩ ⟨?_, nodesAdded_withTable _ _ _ _ _, ?_, ?_⟩⟩
    · rintro ⟨entry, hsome⟩
      cases hsome
    · rintro ⟨-, hfew⟩
      omega
    · rw [← hleft]
      exact (h.remapped_withTable hget howned hoffers hremapped).remaining
    · exact h.translate?_remapped hget howned hremapped rfl
    · exact fun other owner hget' howned' otherPage hne =>
        h.translate?_of_remapped hget howned hremapped hget' howned' rfl hne
  · have haccounts := h.remapped_withTable hget howned hoffers (hpaved.toGrown.remapped page)
    rw [hunmapped, List.append_nil]
    refine ⟨stopsWhen_of_other hstep nofun ?_,
      stopsWhen_of_error hstep ⟨rfl, hfew⟩ ⟨haccounts.remaining, nodesAdded_withTable _ _ _ _ _,
        ⟨fresh, rfl, hpaved.nodes⟩, haccounts.oneOwner, ?_⟩, succeedsWhen_of_error hstep ?_⟩
    · rintro ⟨entry, hsome⟩
      cases hsome
    · exact h.lookupsKept_of_grown hget howned hpaved.toGrown
    · rintro ⟨-, hroom⟩
      omega

theorem fails_unmap (h : Accounts low high session loose free)
    (hget : session.tables.get? slot = some table) (howned : table.owned = true) (page : VirtPage) :
    session.StopsWhen (.table slot (.unmap page)) (.notMapped page)
        (table.translate? page session.kernel.machine.memory = .ok none) session.Intact ∧
      session.SucceedsWhen (.table slot (.unmap page))
        (∃ entry, table.translate? page session.kernel.machine.memory = .ok (some entry))
        fun _ after => session.PageUnmapped after table page free.length := by
  have hstanding := h.standing hget howned
  rw [PageTable.translate?_eq hstanding.window]
  cases hmapped : PageTable.mappedFrom session.kernel.machine.memory page PageTable.rootHeight
      table.root with
  | none =>
      have hstep := step_unmap_of_error hget (PageTable.run_unmap_of_unmapped hstanding hmapped)
      refine ⟨stopsWhen_of_error hstep rfl ⟨⟨rfl, rfl⟩, fun _ => rfl⟩,
        succeedsWhen_of_error hstep ?_⟩
      rintro ⟨entry, hsome⟩
      cases hsome
  | some entry =>
      obtain ⟨found, hslot, hentry, hvalid⟩ := PageTable.mappedFrom_eq_some hmapped
      rw [← hentry] at hvalid
      have hfind := hstanding.find?_eq.trans (congrArg Except.ok hslot)
      have hstep := step_unmap_of_found hget hfind hvalid
      have hoffers : (session.cleared found).kernel.Offers low high free :=
        h.offers.congr rfl (Memory.frames_setEntry _ _ _) fun frame hmem =>
          Memory.frame_setEntry_other fun heq =>
            hstanding.apart frame hmem (heq ▸ PageTable.slotFrom_node_mem hslot)
      have hremaining : (session.cleared found).Remaining free.length :=
        Action.run_bind_ok (run_onKernel_ok (Kernel.run_remainingFrames hoffers))
      refine ⟨stopsWhen_of_ok hstep nofun, succeedsWhen_of_ok hstep ⟨entry, rfl⟩
        ⟨hremaining, rfl, found, hfind, fun hempty => ?_,
          Memory.entry_setEntry_same _ (hstanding.slot_window hslot), fun a hout => ?_⟩⟩
      · rw [hempty, Entry.isValid_empty] at hvalid
        cases hvalid
      · exact Memory.byte_setEntry_outside hout

theorem fails_create (h : Accounts low high session loose free)
    (hempty : session.tables.get? slot = none) :
    session.StopsWhen (.table slot .create) .noFrameForRoot (free.length = 0) (· = session) ∧
      session.SucceedsWhen (.table slot .create) (0 < free.length) fun reply after =>
        ∃ root, reply = .page root ∧ session.TableCreated after slot root free.length := by
  cases free with
  | nil =>
      have hstep := h.step_create_of_nil slot
      exact ⟨stopsWhen_of_error hstep rfl rfl, succeedsWhen_of_error hstep (Nat.lt_irrefl 0)⟩
  | cons root rest =>
      obtain ⟨kernel', hrun, hoffers, -, hframes, hspared, hnodes, hunmapped⟩ :=
        PageTable.run_create_cons h.offers
      have hstep : (step (.table slot .create)).run session =
          .ok (.page root) (session.withTable slot kernel' ⟨root, true, 1⟩) :=
        Action.run_bind_ok (run_onKernel_ok hrun)
      have haccounts := h.created hempty hoffers hspared hnodes
      have hget := Slots.get?_set_same session.tables slot ⟨root, true, 1⟩
      refine ⟨stopsWhen_of_ok hstep (Nat.succ_ne_zero _), succeedsWhen_of_ok hstep (Nat.succ_pos _)
        ⟨root, rfl, haccounts.remaining, hget, fun page => ?_, ?_⟩⟩
      · rw [PageTable.translate?_eq (haccounts.standing hget rfl).window]
        exact congrArg Except.ok (hunmapped page)
      · intro other owner hget' howned' view hroot page
        rw [PageTable.translate?_of_root_eq hroot, PageTable.translate?_of_root_eq hroot]
        refine PageTable.translate?_congr hframes fun node hmem => hspared node ?_
        rintro rfl
        have hnode := node_mem hget' howned' (PageTable.walkFrom_subset hmem)
        exact (h.node_apart hnode).1 List.mem_cons_self

end Accounts

namespace Run

-- Whoever works on a table fails exactly when it must, and the address spaces stay whole. Mapping a
-- page fails if the page is mapped, and then nothing has changed, or else if fewer frames are free than
-- nodes are missing on the way to its leaf: then the frames that were left have become nodes, and all
-- pages are mapped as they were. Unmapping a page fails if it is not mapped. A new table needs one
-- frame for its root. What succeeds takes no more frames than it needs.
theorem fails_exactly_when (hrun : Run low high session history) :
    ∃ count, session.Remaining count ∧
      (∀ slot table, session.tables.get? slot = some table → table.owned = true →
        (∀ page name frame flags, session.frameNamed? name = some frame →
          ∀ missing, missing = PageTable.missingFrom session.kernel.machine.memory page
              PageTable.rootHeight table.root → missing ≤ 2 ∧
            session.StopsWhen (.table slot (.map page name flags)) (.alreadyMapped page)
              (∃ entry, table.translate? page session.kernel.machine.memory = .ok (some entry))
              session.Intact ∧
            session.StopsWhen (.table slot (.map page name flags)) .noFrameForNode
              (table.translate? page session.kernel.machine.memory = .ok none ∧ count < missing)
              (RanOut low high session · (Event.loose history) slot table count) ∧
            session.SucceedsWhen (.table slot (.map page name flags))
              (table.translate? page session.kernel.machine.memory = .ok none ∧ missing ≤ count)
              fun _ after =>
                session.PageMapped after slot table page (.leaf frame flags) count missing) ∧
        ∀ page,
          session.StopsWhen (.table slot (.unmap page)) (.notMapped page)
            (table.translate? page session.kernel.machine.memory = .ok none) session.Intact ∧
          session.SucceedsWhen (.table slot (.unmap page))
            (∃ entry, table.translate? page session.kernel.machine.memory = .ok (some entry))
            fun _ after => session.PageUnmapped after table page count) ∧
      (∀ slot, session.tables.get? slot = none →
        session.StopsWhen (.table slot .create) .noFrameForRoot (count = 0) (· = session) ∧
        session.SucceedsWhen (.table slot .create) (0 < count) fun reply after =>
          ∃ root, reply = .page root ∧ session.TableCreated after slot root count) ∧
      (∀ page, (Fault.alreadyMapped page).message = "Map of an already mapped page") ∧
      Fault.noFrameForNode.message = "Out of memory allocating a page table node" ∧
      (∀ page, (Fault.notMapped page).message = "Unmap of a page that is not mapped") ∧
      Fault.noFrameForRoot.message = "Out of memory allocating a page table root" := by
  obtain ⟨free, haccounts, -⟩ := hrun.invariant
  refine ⟨free.length, haccounts.remaining, fun slot table hget howned =>
    ⟨fun page name frame flags hname missing hmissing => ?_, haccounts.fails_unmap hget howned⟩,
    fun slot => haccounts.fails_create, fun _ => rfl, rfl, fun _ => rfl, rfl⟩
  subst hmissing
  exact ⟨PageTable.missingFrom_le _ _ _ _, haccounts.fails_map hget howned hname page flags⟩

-- Two frames are enough for the root and for one of the two nodes on the way to a leaf.
theorem fails_with_one_frame_left : ∃ session history table after, Run 1 3 session history ∧
    session.tables.get? 0 = some table ∧ table.owned = true ∧ session.Remaining 1 ∧
    (Session.step (.table 0 (.map (.ofNat 5) (.page (.ofNat 7)) ⟨2⟩))).run session =
      .error (.fault .noFrameForNode) after ∧
    RanOut 1 3 session after [] 0 table 1 ∧
    (Session.step (.table 0 (.map (.ofNat 5) (.page (.ofNat 7)) ⟨2⟩))).run session ≠
      .error (.fault (.alreadyMapped (.ofNat 5))) after := by
  obtain ⟨empty, session, root, free, hrun, haccounts, hcount, -, htables, hunmapped⟩ :=
    exists_created (.filled 1024 0xcd) 0x1000 0x3000 rfl rfl (by decide) (by decide)
  have hget : session.tables.get? 0 = some ⟨root, true, 1⟩ := by
    rw [htables, Slots.get?_set_same]
  have hmissing : 2 = PageTable.missingFrom session.kernel.machine.memory (.ofNat 5)
      PageTable.rootHeight root :=
    (PageTable.missingFrom_of_alone (haccounts.counted 0 _ hget rfl).symm).symm
  obtain ⟨count, hremaining, hfails, -⟩ := fails_exactly_when hrun
  have hone : count = 1 := by
    have hfree : free.length + 1 = 3 - 1 := hcount
    cases hremaining.symm.trans haccounts.remaining
    omega
  subst hone
  obtain ⟨-, -, ⟨hshort, hleft⟩, -⟩ :=
    (hfails 0 _ hget rfl).1 (.ofNat 5) (.page (.ofNat 7)) (.ofNat 7) ⟨2⟩ rfl 2 hmissing
  have hnone : (PageTable.mk root true 1).translate? (.ofNat 5) session.kernel.machine.memory =
      .ok none := by
    rw [PageTable.translate?_eq (haccounts.standing hget rfl).window]
    exact congrArg Except.ok (hunmapped _)
  obtain ⟨after, hstep⟩ := hshort.mpr ⟨hnone, by decide⟩
  refine ⟨session, _, _, after, hrun, hget, rfl, hremaining, hstep, hleft after hstep, ?_⟩
  rw [hstep]
  exact nofun

end Run

end PagedMemory.Session
