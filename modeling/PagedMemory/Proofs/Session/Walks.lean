import PagedMemory.Proofs.Session.Growing

namespace PagedMemory.Session

variable {session : Session} {low high slot other : Nat} {loose free : List PhysPage}
  {history : List Event} {table owner : PageTable} {page otherPage : VirtPage}
  {found otherFound : EntrySlot}

-- Contents of memory are compared here and never computed.
attribute [local irreducible] Memory.entry Memory.frame Memory.setEntry

theorem withTable_withTable (session : Session) (slot : Nat) (kernel : Kernel) (table : PageTable) :
    (session.withTable slot kernel table).withTable slot kernel table =
      session.withTable slot kernel table := by
  rw [withTable, withTable, Slots.set_set]

namespace Accounts

-- A walk that finds its slot makes nothing.
theorem step_findOrBuild_of_slot (h : Accounts low high session loose free)
    (hget : session.tables.get? slot = some table) (howned : table.owned = true)
    (hslot : PageTable.slotFrom session.kernel.machine.memory page PageTable.rootHeight table.root =
      some found) :
    (step (.table slot (.findOrBuild page))).run session =
      .ok (.builtSlot found (session.kernel.machine.memory.entry found) table.nodes)
        (session.withTable slot session.kernel table) := by
  have hrun := (PageTable.run_findOrBuild howned).trans
    (PageTable.run_buildFrom_of_slotFrom (h.standing hget howned).window hslot)
  have hbuild := run_onTable_some (PageTable.findOrBuild page) hget
  rw [hrun] at hbuild
  have hget' : (session.withTable slot session.kernel table).tables.get? slot = some table :=
    Slots.get?_set_same session.tables slot table
  have hentry : (entryIn found).run (session.withTable slot session.kernel table) =
    .ok (session.kernel.machine.memory.entry found)
      (session.withTable slot session.kernel table) := rfl
  exact (Action.run_bind_ok hbuild).trans ((Action.run_bind_ok hentry).trans
    (Action.run_bind_ok (run_table_some hget')))

-- Two lookups that find one word are lookups of one page through one owner.
theorem find?_address_ne (h : Accounts low high session loose free)
    (hget : session.tables.get? slot = some table) (howned : table.owned = true)
    (hget' : session.tables.get? other = some owner) (howned' : owner.owned = true)
    (hfind : table.find? page session.kernel.machine.memory = .ok (some found))
    (hfind' : owner.find? otherPage session.kernel.machine.memory = .ok (some otherFound))
    (hne : slot ≠ other ∨ page ≠ otherPage) : found.address ≠ otherFound.address := by
  intro haddress
  have hstanding := h.standing hget howned
  have heq := EntrySlot.address_inj haddress
  subst heq
  rw [hstanding.find?_eq, Except.ok.injEq] at hfind
  rw [(h.standing hget' howned').find?_eq, Except.ok.injEq] at hfind'
  by_cases hslot : slot = other
  · subst hslot
    have htable := hget.symm.trans hget'
    rw [Option.some_inj] at htable
    subst htable
    refine hne.elim (fun hne => hne rfl) fun hne => hne ?_
    exact VirtPage.ext_indexAt (PageTable.indexAt_eq_of_slotFrom_eq hstanding.nodup hfind hfind')
  · exact h.nodes_apart hslot hget' howned' hget howned (PageTable.slotFrom_node_mem hfind)
      (PageTable.slotFrom_node_mem hfind')

-- No lookup finds a word of a node that points at nodes.
theorem find?_address_ne_interior (h : Accounts low high session loose free)
    (hget : session.tables.get? slot = some table) (howned : table.owned = true)
    (hfind : table.find? page session.kernel.machine.memory = .ok (some found))
    {node : PhysPage} (hmem : node ∈ session.interiorFrames) (index : Fin nodeEntries) :
    found.address ≠ EntrySlot.address ⟨node, index⟩ := by
  intro haddress
  have hstanding := h.standing hget howned
  rw [hstanding.find?_eq, Except.ok.injEq] at hfind
  have hnode := PageTable.slotFrom_node_mem hfind
  have hnot := PageTable.slotFrom_node_not_mem_interior hstanding.nodup hfind
  rw [EntrySlot.address_inj haddress] at hnode hnot
  obtain ⟨⟨other, owner⟩, hentry, hin⟩ := Slots.mem_total.mp hmem
  have hget' := Slots.get?_of_entry_mem h.tableSlots hentry
  rw [PageTable.interior] at hin
  by_cases howned' : owner.owned = true
  · rw [if_pos howned'] at hin
    by_cases hslot : slot = other
    · subst hslot
      have htable := hget.symm.trans hget'
      rw [Option.some_inj] at htable
      subst htable
      exact hnot hin
    · exact h.nodes_apart hslot hget' howned' hget howned hnode (PageTable.interiorFrom_subset hin)
  · rw [if_neg howned'] at hin
    cases hin

end Accounts

namespace Run

-- The walk that makes nodes agrees with the one that only looks. Afterwards a lookup finds the slot
-- that was answered, and the walk answers it again and changes nothing. Slots that were found before
-- are still found, and new ones only for pages that have the upper bits of their number in common with
-- the page that was asked for. No translation changes, through whatever table. And no two lookups of
-- different pages, or through different owners, find one word of memory, nor does one find a word that
-- points at a node.
theorem findOrBuild_agrees_with_find (hrun : Run low high session history) :
    (∀ slot table page reply after, session.tables.get? slot = some table → table.owned = true →
      (Session.step (.table slot (.findOrBuild page))).run session = .ok reply after →
      ∃ found entry nodes, reply = .builtSlot found entry nodes ∧
        table.find? page after.kernel.machine.memory = .ok (some found) ∧
        (Session.step (.table slot (.findOrBuild page))).run after = .ok reply after ∧
        (∀ other, ∃ old new, table.find? other session.kernel.machine.memory = .ok old ∧
          table.find? other after.kernel.machine.memory = .ok new ∧
          (∀ spot, old = some spot → new = some spot) ∧
          (old = none ∧ new ≠ none ↔
            old = none ∧ other.number >>> indexBits = page.number >>> indexBits)) ∧
        session.LookupsKept after) ∧
    ∀ slot table page found, session.tables.get? slot = some table → table.owned = true →
      table.find? page session.kernel.machine.memory = .ok (some found) →
      (∀ other owner otherPage otherFound, session.tables.get? other = some owner →
        owner.owned = true →
        owner.find? otherPage session.kernel.machine.memory = .ok (some otherFound) →
        slot ≠ other ∨ page ≠ otherPage → found.address ≠ otherFound.address) ∧
      ∀ node ∈ session.interiorFrames, ∀ index,
        found.address ≠ EntrySlot.address ⟨node, index⟩ := by
  obtain ⟨free, haccounts, -⟩ := hrun.invariant
  refine ⟨fun slot table page reply after hget howned hstep => ?_,
    fun slot table page found hget howned hfind =>
      ⟨fun other owner otherPage otherFound hget' howned' hfind' =>
        haccounts.find?_address_ne hget howned hget' howned' hfind hfind',
      fun node => haccounts.find?_address_ne_interior hget howned hfind⟩⟩
  have hpermitted : session.Permitted (Event.loose history) (.table slot (.findOrBuild page)) := trivial
  have hrun' := hrun.step hpermitted hstep
  obtain ⟨free', haccounts', -⟩ := hrun'.invariant
  obtain ⟨fresh, rest, kernel', rfl, -, -, hpaved, hcase⟩ :=
    haccounts.step_findOrBuild_cases hget howned page
  rcases hcase with ⟨found, hbuilt, hslot, -⟩ | ⟨-, -, hfail⟩
  · cases hstep.symm.trans hbuilt
    let built : PageTable := { table with nodes := table.nodes + fresh.length }
    have hget' : (session.withTable slot kernel' built).tables.get? slot = some built :=
      Slots.get?_set_same session.tables slot built
    have hfind : ∀ other, table.find? other kernel'.machine.memory =
        .ok (PageTable.slotFrom kernel'.machine.memory other PageTable.rootHeight table.root) :=
      fun _ => (haccounts'.standing hget' howned).find?_eq
    refine ⟨found, _, _, rfl, (hfind page).trans (congrArg _ hslot), ?_, fun other =>
      ⟨_, _, (haccounts.standing hget howned).find?_eq, hfind other,
        fun spot hspot => (hpaved.kept other spot hspot).1, ?_⟩,
      haccounts.lookupsKept_of_grown hget howned hpaved.toGrown⟩
    · exact (haccounts'.step_findOrBuild_of_slot hget' howned hslot).trans
        (congrArg (EStateM.Result.ok _) (withTable_withTable session slot kernel' built))
    · refine and_congr_right fun hnone => ?_
      rw [← VirtPage.sharesWay_rootHeight_iff]
      refine ⟨fun hnew => ?_, fun hway hnew => ?_⟩
      · obtain ⟨spot, hspot⟩ := Option.ne_none_iff_exists'.mp hnew
        exact hpaved.along other spot hnone hspot
      · rw [PageTable.slotFrom_of_sharesWay hway hslot] at hnew
        cases hnew
  · cases hstep.symm.trans hfail

-- In a new table the walk makes two nodes.
theorem findOrBuild_agrees_with_find_in_new_table : ∃ session history table found entry after,
    Run 1 8 session history ∧ session.tables.get? 0 = some table ∧ table.owned = true ∧
      (Session.step (.table 0 (.findOrBuild (.ofNat 5)))).run session =
        .ok (.builtSlot found entry 3) after ∧
      table.find? (.ofNat 5) after.kernel.machine.memory = .ok (some found) ∧
      (Session.step (.table 0 (.findOrBuild (.ofNat 5)))).run after =
        .ok (.builtSlot found entry 3) after ∧
      ∃ new, table.find? (.ofNat 0x1ff) after.kernel.machine.memory = .ok (some new) ∧
        found.address ≠ new.address := by
  obtain ⟨empty, session, root, free, hrun, haccounts, hcount, -, htables, -⟩ :=
    exists_created (.filled 1024 0xcd) 0x1000 0x8000 rfl rfl (by decide) (by decide)
  have hget : session.tables.get? 0 = some ⟨root, true, 1⟩ := by
    rw [htables, Slots.get?_set_same]
  have hmissing : PageTable.missingFrom session.kernel.machine.memory (.ofNat 5) PageTable.rootHeight
      root = 2 := PageTable.missingFrom_of_alone (haccounts.counted 0 _ hget rfl).symm
  obtain ⟨fresh, rest, kernel', rfl, -, -, -, hcase⟩ :=
    haccounts.step_findOrBuild_cases hget rfl (.ofNat 5)
  rw [hmissing] at hcase
  rcases hcase with ⟨found, hstep, -, hlength⟩ | ⟨rfl, hlength, -⟩
  · rw [hlength] at hstep
    have hget' : (session.withTable 0 kernel' ⟨root, true, 3⟩).tables.get? 0 =
        some ⟨root, true, 3⟩ := Slots.get?_set_same session.tables 0 ⟨root, true, 3⟩
    have hrun' := hrun.step (show session.Permitted _ (.table 0 (.findOrBuild (.ofNat 5))) from trivial)
      hstep
    obtain ⟨found', entry', nodes', hreply, hfind, hagain, hothers, -⟩ :=
      (findOrBuild_agrees_with_find hrun).1 0 _ _ _ _ hget rfl hstep
    cases hreply
    obtain ⟨old, new, -, hnew, hkept, hmade⟩ := hothers (.ofNat 0x1ff)
    have hsome : new ≠ none := by
      cases old with
      | none => exact (hmade.mpr ⟨rfl, by decide⟩).2
      | some spot => simp [hkept spot rfl]
    obtain ⟨spot, rfl⟩ := Option.ne_none_iff_exists'.mp hsome
    refine ⟨session, _, _, found, _, _, hrun, hget, rfl, hstep, hfind, hagain, spot, hnew, ?_⟩
    exact ((findOrBuild_agrees_with_find hrun').2 0 _ _ _ hget' rfl hfind).1 0 _ _ _ hget' rfl hnew
      (Or.inr (by decide))
  · have hfew : fresh.length + 1 = 8 - 1 := by rwa [List.append_nil] at hcount
    omega

end Run

end PagedMemory.Session
