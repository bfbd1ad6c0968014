import PagedMemory.Proofs.Session.Twins
import PagedMemory.Proofs.Table.Alike

namespace PagedMemory.Session

open Machine (Stored)

variable {session twin : Session} {low high slot target : Nat}
  {loose free fresh rest : List PhysPage} {table : PageTable} {page : VirtPage}
  {name : FrameName} {flags : Flags} {built built' : Memory}

-- Contents of memory are compared here and never computed.
attribute [local irreducible] Memory.entry Memory.frame Memory.setEntry Memory.fillFrame

-- The nodes of a table that has grown are out of the pool, the new ones too.
theorem Accounts.settled_of_grown (h : Accounts low high session loose (fresh ++ rest))
    (hget : session.tables.get? slot = some table) (howned : table.owned = true)
    (hgrown : PageTable.Grown session.kernel.machine.memory built PageTable.rootHeight table.root
      fresh) :
    ∀ node ∈ PageTable.nodesFrom built PageTable.rootHeight table.root,
      Settled low high rest node := by
  intro node hmem
  rcases List.mem_append.mp (hgrown.nodes.mem_iff.mp hmem) with hfresh | hold
  · have hrange := h.offers.range (List.mem_append_left rest hfresh)
    exact ⟨hrange.1, hrange.2, (List.nodup_append'.mp h.offers.nodup).2.2 hfresh⟩
  · obtain ⟨hlow, hhigh, hnot⟩ := h.settled_of_node (node_mem hget howned hold)
    exact ⟨hlow, hhigh, fun hrest => hnot (List.mem_append_right _ hrest)⟩

namespace Twins

theorem settled_of_nodes (h : Twins low high loose free session twin)
    (hget : session.tables.get? slot = some table) (howned : table.owned = true) :
    ∀ node ∈ PageTable.nodesFrom session.kernel.machine.memory PageTable.rootHeight table.root,
      Settled low high free node := fun _ hmem =>
  h.accounts.settled_of_node (Accounts.node_mem hget howned hmem)

-- The same nodes are made in both.
theorem memory_of_paved (h : Twins low high loose (fresh ++ rest) session twin)
    (hget : session.tables.get? slot = some table) (howned : table.owned = true)
    (hpaved : PageTable.Paved page session.kernel.machine.memory built PageTable.rootHeight
      table.root fresh)
    (hpaved' : PageTable.Paved page twin.kernel.machine.memory built' PageTable.rootHeight
      table.root fresh)
    (hlength : fresh.length ≤ PageTable.missingFrom session.kernel.machine.memory page
      PageTable.rootHeight table.root) :
    Memory.Alike (Settled low high rest) built built' := by
  have hstanding := h.accounts.standing hget howned
  rw [hpaved.contents, hpaved'.contents]
  refine (PageTable.linkMissing_alike h.machines.memory (h.settled_of_nodes hget howned)
    (fun frame hmem => h.offers.lt_frames (List.mem_append_left _ hmem))
    (fun frame hmem => hstanding.apart frame (List.mem_append_left _ hmem))
    (List.nodup_append'.mp h.offers.nodup).1 hlength).mono fun other hsettled => ?_
  by_cases hmem : other ∈ fresh
  · exact Or.inr hmem
  · exact Or.inl (hsettled.of_append hmem)

-- A table has changed in the same way in both.
theorem similar_withTable {kernel kernel' : Kernel} (h : Twins low high loose free session twin)
    (hoffers : kernel.Offers low high rest) (hoffers' : kernel'.Offers low high rest)
    (hmachines : Machine.Alike (Settled low high rest) kernel.machine kernel'.machine)
    (slot : Nat) (table : PageTable) :
    Similar low high rest (session.withTable slot kernel table)
      (twin.withTable slot kernel' table) :=
  ⟨hoffers, hoffers', hmachines, h.frames, congrArg (·.set slot table) h.tables, h.ranges⟩

-- A new table has the same root in both.
theorem mirrors_create (h : Twins low high loose free session twin)
    (hempty : session.tables.get? slot = none) :
    Mirrors low high (.table slot .create) session twin := by
  cases free with
  | nil =>
      exact .of_error (h.accounts.step_create_of_nil slot) (h.accounts_twin.step_create_of_nil slot)
        h.sameEnd
  | cons root rest =>
      obtain ⟨kernel, hrun, hmachine, hoffers⟩ := PageTable.run_create_of_offers h.offers
      obtain ⟨kernel', hrun', hmachine', hoffers'⟩ := PageTable.run_create_of_offers h.offers_twin
      refine mirrors_of_sound (h.accounts.sound_create hempty)
        (.of_ok (Action.run_bind_ok (run_onKernel_ok hrun)) (Action.run_bind_ok (run_onKernel_ok hrun'))
          ⟨rest, hoffers, hoffers', ?_, h.frames, congrArg (·.set slot ⟨root, true, 1⟩) h.tables,
            h.ranges⟩)
      rw [hmachine, hmachine']
      exact h.machines_of_filled

theorem mirrors_view {space : SpaceName} (h : Twins low high loose free session twin)
    (hempty : session.tables.get? slot = none) :
    Mirrors low high (.table slot (.view space)) session twin := by
  refine mirrors_of_sound (h.accounts.sound_view hempty) ((h.mirrored_tokenNamed space).bind ?_)
  rintro token _ _ - - ⟨rfl, rfl⟩
  exact .of_ok rfl rfl ⟨free, { h.toSimilar with
    tables := congrArg (·.set slot (PageTable.ofToken token)) h.tables }⟩

-- The same nodes go back in both.
theorem mirrors_drop (h : Twins low high loose free session twin) :
    Mirrors low high (.table slot .drop) session twin := by
  have htables : twin.tables.erase slot = session.tables.erase slot :=
    congrArg (·.erase slot) h.tables
  refine mirrors_of_sound h.accounts.sound_drop ?_
  cases hget : session.tables.get? slot with
  | none =>
      exact .of_error (Action.run_bind_error (run_table_none hget))
        (Action.run_bind_error (run_table_none (h.tables ▸ hget))) h.sameEnd
  | some table =>
      have hget' : twin.tables.get? slot = some table := h.tables ▸ hget
      cases howned : table.owned with
      | true =>
          obtain ⟨kernel, hstep, hreturned⟩ := h.accounts.step_drop_of_owned hget howned
          obtain ⟨kernel', hstep', hreturned'⟩ := h.accounts_twin.step_drop_of_owned hget' howned
          rw [PageTable.nodesFrom_alike h.machines.memory (h.settled_of_nodes hget howned)]
            at hreturned'
          exact .of_ok hstep hstep' ⟨_, hreturned.offers, hreturned'.offers,
            h.machines_of_returned hreturned hreturned', h.frames, htables, h.ranges⟩
      | false =>
          exact .of_ok (Accounts.step_drop_of_view hget howned)
            (Accounts.step_drop_of_view hget' howned) ⟨free, { h.toSimilar with tables := htables }⟩

theorem mirrors_move (h : Twins low high loose free session twin)
    (hempty : session.tables.get? target = none) :
    Mirrors low high (.table slot (.move target)) session twin := by
  refine mirrors_of_sound (h.accounts.sound_move hempty) ((h.mirrored_table slot).bind ?_)
  rintro table _ _ - - ⟨rfl, rfl⟩
  exact .of_ok rfl rfl ⟨free, { h.toSimilar with
    tables := congrArg (fun tables => (tables.set slot table.disowned).set target table) h.tables }⟩

theorem mirrors_describe (h : Twins low high loose free session twin) :
    Mirrors low high (.table slot .describe) session twin := by
  refine (h.mirrored_table slot).bind ?_
  rintro table _ _ - - ⟨rfl, rfl⟩
  exact .of_ok rfl rfl h.alike

-- Nodes are made until a lookup succeeds, or until no frame is free.
theorem mirrors_findOrBuild (h : Twins low high loose free session twin)
    (howner : ∀ table, session.tables.get? slot = some table → table.owned = true) :
    Mirrors low high (.table slot (.findOrBuild page)) session twin := by
  refine mirrors_of_sound h.accounts.sound_findOrBuild ?_
  cases hget : session.tables.get? slot with
  | none =>
      exact .of_error (Action.run_bind_error (run_onTable_none _ hget))
        (Action.run_bind_error (run_onTable_none _ (h.tables ▸ hget))) h.sameEnd
  | some table =>
      have howned := howner table hget
      have hget' : twin.tables.get? slot = some table := h.tables ▸ hget
      obtain ⟨fresh, rest, kernel, rfl, hoffers, hlog, hpaved, hcase⟩ :=
        h.accounts.step_findOrBuild_cases hget howned page
      obtain ⟨fresh', rest', kernel', hfree, hoffers', hlog', hpaved', hcase'⟩ :=
        h.accounts_twin.step_findOrBuild_cases hget' howned page
      rw [PageTable.missingFrom_alike h.machines.memory (h.settled_of_nodes hget howned)] at hcase'
      have hlogs : kernel'.machine.log = kernel.machine.log := by
        rw [hlog, hlog', h.machines.log]
      have hlengths := congrArg List.length hfree
      rw [List.length_append, List.length_append] at hlengths
      rcases hcase with ⟨found, hstep, hslot, hlength⟩ | ⟨rfl, hlength, hstep⟩
      · rcases hcase' with ⟨found', hstep', hslot', hlength'⟩ | ⟨rfl, hlength', -⟩
        · obtain ⟨rfl, rfl⟩ := List.append_inj hfree (hlength.trans hlength'.symm)
          have hmemory := h.memory_of_paved hget howned hpaved hpaved' (Nat.le_of_eq hlength)
          have hsettled := h.accounts.settled_of_grown hget howned hpaved.toGrown
          rw [PageTable.slotFrom_alike hmemory hsettled, hslot] at hslot'
          cases hslot'
          rw [hmemory.entry_eq (hsettled _ (PageTable.slotFrom_node_mem hslot))] at hstep'
          exact .of_ok hstep hstep'
            ⟨rest, h.similar_withTable hoffers hoffers' ⟨hlogs, hmemory⟩ slot _⟩
        · rw [List.length_nil] at hlengths
          omega
      · rcases hcase' with ⟨-, -, -, hlength'⟩ | ⟨rfl, -, hstep'⟩
        · rw [List.length_nil] at hlengths
          omega
        · exact .of_error hstep hstep' (sameEnd_of_offers hoffers hoffers' hlogs)

-- So they are for a page that is to be mapped, and then the same leaf is written.
theorem mirrored_map_of_owned {frame : PhysPage} (h : Twins low high loose free session twin)
    (hget : session.tables.get? slot = some table) (howned : table.owned = true)
    (hname : session.frameNamed? name = some frame) (hname' : twin.frameNamed? name = some frame) :
    Mirrored (fun after after' => ∃ free, Similar low high free after after') SameEnd
      ((step (.table slot (.map page name flags))).run session)
      ((step (.table slot (.map page name flags))).run twin) := by
  have hget' : twin.tables.get? slot = some table := h.tables ▸ hget
  have hnodes := h.settled_of_nodes hget howned
  have hcase' := h.accounts_twin.step_map_cases hget' howned hname' page flags
  rw [PageTable.mappedFrom_alike h.machines.memory hnodes,
    PageTable.missingFrom_alike h.machines.memory hnodes] at hcase'
  rcases h.accounts.step_map_cases hget howned hname page flags with ⟨entry, hmapped, hstep⟩ |
    ⟨hunmapped, fresh, rest, kernel, rfl, hoffers, hlog, hcase⟩
  · rcases hcase' with ⟨-, -, hstep'⟩ | ⟨hunmapped, -⟩
    · exact .of_error hstep hstep'
        ⟨congrArg (· ++ (Fault.alreadyMapped page).lines) h.machines.log, h.sameEnd.2⟩
    · cases hmapped.symm.trans hunmapped
  · rcases hcase' with ⟨entry, hmapped, -⟩ |
      ⟨-, fresh', rest', kernel', hfree, hoffers', hlog', hcase'⟩
    · cases hunmapped.symm.trans hmapped
    have hlogs : kernel'.machine.log = kernel.machine.log := by
      rw [hlog, hlog', h.machines.log]
    have hlengths := congrArg List.length hfree
    rw [List.length_append, List.length_append] at hlengths
    rcases hcase with ⟨hstep, hlength, -, built, found, hpaved, hslot, hmemory⟩ |
      ⟨rfl, hlength, hstep, -⟩
    · rcases hcase' with ⟨hstep', hlength', -, built', found', hpaved', hslot', hmemory'⟩ |
        ⟨rfl, hlength', -, -⟩
      · obtain ⟨rfl, rfl⟩ := List.append_inj hfree (hlength.trans hlength'.symm)
        have hbuilt := h.memory_of_paved hget howned hpaved hpaved' (Nat.le_of_eq hlength)
        rw [PageTable.slotFrom_alike hbuilt
          (h.accounts.settled_of_grown hget howned hpaved.toGrown), hslot] at hslot'
        cases hslot'
        have hleaf := hbuilt.setEntry found (.leaf frame flags)
        rw [← hmemory, ← hmemory'] at hleaf
        exact .of_ok hstep hstep'
          ⟨rest, h.similar_withTable hoffers hoffers' ⟨hlogs, hleaf⟩ slot _⟩
      · rw [List.length_nil] at hlengths
        omega
    · rcases hcase' with ⟨-, hlength', -⟩ | ⟨rfl, -, hstep', -⟩
      · rw [List.length_nil] at hlengths
        omega
      · exact .of_error hstep hstep' (sameEnd_of_offers hoffers hoffers' hlogs)

theorem mirrors_map (h : Twins low high loose free session twin)
    (howner : ∀ table, session.tables.get? slot = some table → table.owned = true) :
    Mirrors low high (.table slot (.map page name flags)) session twin := by
  refine mirrors_of_sound h.accounts.sound_map ?_
  have hnamed : twin.frameNamed? name = session.frameNamed? name := by
    cases name with
    | page page => rfl
    | ownedBy slot => rw [frameNamed?, frameNamed?, h.frames]
  have hframe := run_frameNamed session name
  have hframe' := run_frameNamed twin name
  cases hname : session.frameNamed? name with
  | none =>
      rw [hname, run_required_none] at hframe
      rw [hnamed, hname, run_required_none] at hframe'
      exact .of_error (Action.run_bind_error hframe) (Action.run_bind_error hframe') h.sameEnd
  | some frame =>
      rw [hname, run_required_some] at hframe
      rw [hnamed, hname, run_required_some] at hframe'
      cases hget : session.tables.get? slot with
      | none =>
          have hmap := run_onTable_none (PageTable.map page frame flags) hget
          have hmap' := run_onTable_none (PageTable.map page frame flags)
            (show twin.tables.get? slot = none from h.tables ▸ hget)
          exact .of_error ((Action.run_bind_ok hframe).trans (Action.run_bind_error hmap))
            ((Action.run_bind_ok hframe').trans (Action.run_bind_error hmap')) h.sameEnd
      | some table =>
          exact h.mirrored_map_of_owned hget (howner table hget) hname (hnamed.trans hname)

-- The same leaf is cleared.
theorem mirrors_unmap (h : Twins low high loose free session twin)
    (howner : ∀ table, session.tables.get? slot = some table → table.owned = true) :
    Mirrors low high (.table slot (.unmap page)) session twin := by
  cases hget : session.tables.get? slot with
  | none =>
      exact .of_error (Action.run_bind_error (run_table_none hget))
        (Action.run_bind_error (run_table_none (h.tables ▸ hget))) h.sameEnd
  | some table =>
      have howned := howner table hget
      have hget' : twin.tables.get? slot = some table := h.tables ▸ hget
      have htable := run_table_some hget
      have htable' := run_table_some hget'
      have hnodes := h.settled_of_nodes hget howned
      have hstanding := h.accounts.standing hget howned
      have hstanding' := h.accounts_twin.standing hget' howned
      have hsame := PageTable.mappedFrom_alike h.machines.memory hnodes page
      refine mirrors_of_sound (h.accounts.sound_unmap_of_owned hget howned) ?_
      cases hmapped : PageTable.mappedFrom session.kernel.machine.memory page PageTable.rootHeight
          table.root with
      | none =>
          have hunmap := run_onMachine_error (PageTable.run_unmap_of_unmapped hstanding hmapped)
          have hunmap' := run_onMachine_error
            (PageTable.run_unmap_of_unmapped hstanding' (hsame.trans hmapped))
          exact .of_error ((Action.run_bind_ok htable).trans (Action.run_bind_error hunmap))
            ((Action.run_bind_ok htable').trans (Action.run_bind_error hunmap'))
            ⟨congrArg (· ++ (Fault.notMapped page).lines) h.machines.log, h.sameEnd.2⟩
      | some entry =>
          obtain ⟨found, hslot, hentry, hvalid⟩ := PageTable.mappedFrom_eq_some hmapped
          have hmem := PageTable.slotFrom_node_mem hslot
          have hslot' := (PageTable.slotFrom_alike h.machines.memory hnodes page).trans hslot
          have hentry' := (h.machines.memory.entry_eq (hnodes _ hmem)).trans hentry
          have hunmap := run_onMachine_ok (PageTable.run_unmap_of_slot
            (hstanding.find?_eq.trans (congrArg _ hslot)) (hentry ▸ hvalid))
          have hunmap' := run_onMachine_ok (PageTable.run_unmap_of_slot
            (hstanding'.find?_eq.trans (congrArg _ hslot')) (hentry' ▸ hvalid))
          have hsimilar := h.similar_of_stored (.setEntry h.machines found .empty)
            fun frame hfree heq => hstanding.apart frame hfree (heq ▸ hmem)
          exact .of_ok ((Action.run_bind_ok htable).trans
              ((Action.run_bind_ok hunmap).trans (Action.run_bind_ok (run_table_some hget))))
            ((Action.run_bind_ok htable').trans
              ((Action.run_bind_ok hunmap').trans (Action.run_bind_ok (run_table_some hget'))))
            ⟨free, hsimilar⟩

end Twins

end PagedMemory.Session
