import PagedMemory.Proofs.Session.Bystanders
import PagedMemory.Proofs.Session.Undisturbed
import PagedMemory.Proofs.Session.ViewEffects
import PagedMemory.Proofs.Table.Spanning

namespace PagedMemory

namespace Event

-- The pages that a table in a slot was asked to map or to find a slot for, mapped or not since. A
-- table takes them along when it moves.
def touchedAfter (event : Event) (touched : Nat → Finset VirtPage) (slot : Nat) :
    Finset VirtPage :=
  match event.command with
  | .table source .create => if slot = source then ∅ else touched slot
  | .table source (.move target) => if slot = target then touched source else touched slot
  | .table source (.map page _ _) =>
      if slot = source then insert page (touched slot) else touched slot
  | .table source (.findOrBuild page) =>
      if slot = source then insert page (touched slot) else touched slot
  | _ => touched slot

def touched : List Event → Nat → Finset VirtPage
  | [], _ => ∅
  | event :: past, slot => event.touchedAfter (touched past) slot

section touchedAfter

variable {before : Session} {reply : Reply} {command : Command} {source slot target : Nat}
  {page : VirtPage} {name : FrameName} {flags : Flags} {touched : Nat → Finset VirtPage}

theorem touchedAfter_create :
    touchedAfter ⟨before, .table slot .create, reply⟩ touched slot = ∅ := if_pos rfl

theorem touchedAfter_move :
    touchedAfter ⟨before, .table source (.move target), reply⟩ touched target = touched source :=
  if_pos rfl

theorem touchedAfter_map :
    touchedAfter ⟨before, .table slot (.map page name flags), reply⟩ touched slot =
      insert page (touched slot) := if_pos rfl

theorem touchedAfter_findOrBuild :
    touchedAfter ⟨before, .table slot (.findOrBuild page), reply⟩ touched slot =
      insert page (touched slot) := if_pos rfl

theorem touchedAfter_of_lookup {command : TableCommand} (h : command.IsLookup) :
    touchedAfter ⟨before, .table source command, reply⟩ touched slot = touched slot := by
  cases command with
  | create => exact h.elim
  | move target => exact h.elim
  | map page frame flags => exact h.elim
  | findOrBuild page => exact h.elim
  | _ => rfl

theorem touchedAfter_other (hnamed : ∀ other, command ≠ .table slot other)
    (htarget : ∀ source, command ≠ .table source (.move slot)) :
    touchedAfter ⟨before, command, reply⟩ touched slot = touched slot := by
  cases command with
  | table source command =>
      have hne : slot ≠ source := fun heq => hnamed command (heq ▸ rfl)
      cases command with
      | create => exact if_neg hne
      | move target =>
          have hne' : slot ≠ target := fun heq => htarget source (heq ▸ rfl)
          exact if_neg hne'
      | map page frame flags => exact if_neg hne
      | findOrBuild page => exact if_neg hne
      | _ => rfl
  | _ => rfl

end touchedAfter

end Event

-- A word leads on to a node if something is the case. It then is the number of the node, shifted, and
-- the lowest bit, and zero if not.
def Memory.PointsIff (memory : Memory) (slot : EntrySlot) (used : Prop) : Prop :=
  ((memory.entry slot).isValid = true ↔ used) ∧
    (memory.entry slot).bits =
      if (memory.entry slot).isValid then
        UInt64.ofNat (memory.entry slot).page.number <<< 10 ||| 1
      else 0

namespace Session

variable {session after : Session} {low high slot source target : Nat} {history : List Event}
  {loose free : List PhysPage} {command : Command} {reply : Reply} {table table' : PageTable}
  {page : VirtPage} {name : FrameName} {flags : Flags} {touched : Nat → Finset VirtPage}

-- Contents of memory are compared here and never computed.
attribute [local irreducible] Memory.entry Memory.frame Memory.setEntry Memory.fillFrame

-- The trees of the owning tables are what the pages need that they were asked for.
def Spanned (session : Session) (touched : Nat → Finset VirtPage) : Prop :=
  ∀ slot table, session.tables.get? slot = some table → table.owned = true →
    PageTable.Spans session.kernel.machine.memory PageTable.rootHeight table.root (touched slot)

-- A well-behaved client spares the interior nodes of the tables it does not name.
theorem Undisturbed.interior (h : Undisturbed loose ⟨session, command, reply⟩ after)
    (hpermitted : session.Permitted loose command)
    (hstep : (step command).run session = .ok reply after)
    (hget : session.tables.get? slot = some table) (howned : table.owned = true)
    (hnamed : ∀ other, command ≠ .table slot other) (frame : PhysPage)
    (hmem : frame ∈ PageTable.interiorFrom session.kernel.machine.memory PageTable.rootHeight
      table.root) :
    after.kernel.machine.memory.frame frame = session.kernel.machine.memory.frame frame := by
  refine h.nodes slot table hget hnamed frame ?_ ?_
  · rw [PageTable.holds_of_owned howned]
    exact PageTable.interiorFrom_subset hmem
  · rintro ⟨other, page, view, found, rfl, hget', hview, hfind, rfl⟩
    obtain ⟨found', hfind', hvalid, -⟩ := found_of_step_unmap hget' hstep
    cases hfind.symm.trans hfind'
    refine hpermitted view found hget' hview hfind hvalid (Or.inr ?_)
    exact Slots.mem_total_of_get? hget (by rwa [PageTable.interior, if_pos howned])

-- A page is mapped only through an owner, and to a frame that has a name.
theorem exists_of_step_map
    (hstep : (step (.table slot (.map page name flags))).run session = .ok reply after) :
    ∃ frame, session.frameNamed? name = some frame ∧
      ∃ table, session.tables.get? slot = some table ∧ table.owned = true := by
  obtain ⟨frame, _, hframe, hmap⟩ := Action.run_bind_eq_ok hstep
  obtain ⟨hname, rfl⟩ := run_required_eq_ok ((run_frameNamed session name).symm.trans hframe)
  obtain ⟨_, _, honTable, -⟩ := Action.run_bind_eq_ok hmap
  obtain ⟨table, _, htable, -⟩ := Action.run_bind_eq_ok honTable
  obtain ⟨hget, -⟩ := run_required_eq_ok htable
  refine ⟨frame, hname, table, hget, Bool.not_eq_false _ ▸ fun hview => ?_⟩
  cases hstep.symm.trans (step_map_of_view hget hview hname)

-- A table that is made of a register value owns nothing.
theorem owned_of_step_view {space : SpaceName}
    (hstep : (step (.table slot (.view space))).run session = .ok reply after)
    (hget' : after.tables.get? slot = some table') : table'.owned = false := by
  obtain ⟨token, between, -, hkeep⟩ := Action.run_bind_eq_ok hstep
  cases hkeep
  rw [Slots.get?_set_same] at hget'
  cases hget'
  rfl

theorem eq_of_step_move
    (hstep : (step (.table source (.move target))).run session = .ok reply after) :
    ∃ table, session.tables.get? source = some table ∧
      after = { session with tables := (session.tables.set source table.disowned).set target table } := by
  obtain ⟨table, _, htable, hmove⟩ := Action.run_bind_eq_ok hstep
  obtain ⟨hget, rfl⟩ := run_required_eq_ok htable
  cases hmove
  exact ⟨table, hget, rfl⟩

theorem keeps_lookup {command : TableCommand} (h : command.IsLookup) :
    Keeps Untouched (step (.table slot command)) := by
  cases command with
  | describe => exact keeps_describe
  | translate page => exact keeps_translate
  | translateAddr address => exact keeps_translateAddr address
  | find page => exact keeps_find
  | _ => exact h.elim

namespace Accounts

-- Free frames can become nodes of a table.
theorem fits {fresh rest : List PhysPage} (h : Accounts low high session loose (fresh ++ rest))
    (hget : session.tables.get? slot = some table) (howned : table.owned = true) :
    PageTable.Fits session.kernel.machine.memory PageTable.rootHeight table.root fresh := by
  have hstanding := h.standing hget howned
  refine ⟨List.nodup_append'.mpr ⟨(List.nodup_append'.mp h.offers.nodup).1, hstanding.nodup,
    fun frame hfresh => hstanding.apart frame (List.mem_append_left _ hfresh)⟩, fun other hmem => ?_⟩
  rcases List.mem_append.mp hmem with hmem | hmem
  · exact h.offers.lt_frames (List.mem_append_left _ hmem)
  · exact hstanding.window other hmem

-- What is left of a table that did the work on a page that it was asked for.
theorem spans_of_paved {fresh rest : List PhysPage} {memory' : Memory}
    (h : Accounts low high session loose (fresh ++ rest)) (hspanned : session.Spanned touched)
    (hget : session.tables.get? slot = some table) (howned : table.owned = true)
    (hpaved : PageTable.Paved page session.kernel.machine.memory memory' PageTable.rootHeight
      table.root fresh)
    (hlength : fresh.length = PageTable.missingFrom session.kernel.machine.memory page
      PageTable.rootHeight table.root) :
    PageTable.Spans memory' PageTable.rootHeight table.root (insert page (touched slot)) := by
  rw [hpaved.contents]
  exact (hspanned slot table hget howned).linkMissing (h.fits hget howned) hlength

theorem spanned_create (h : Accounts low high session loose free)
    (hstep : (step (.table slot .create)).run session = .ok reply after)
    (hget : after.tables.get? slot = some table) :
    PageTable.Spans after.kernel.machine.memory PageTable.rootHeight table.root ∅ := by
  cases free with
  | nil => cases hstep.symm.trans (h.step_create_of_nil slot)
  | cons root rest =>
      obtain ⟨kernel', hrun, hmachine, -⟩ := PageTable.run_create_of_offers h.offers
      have hcreate : (step (.table slot .create)).run session =
          .ok (.page root) (session.withTable slot kernel' ⟨root, true, 1⟩) :=
        Action.run_bind_ok (run_onKernel_ok hrun)
      cases hstep.symm.trans hcreate
      rw [withTable, Slots.get?_set_same] at hget
      cases hget
      refine PageTable.spans_of_empty fun index => ?_
      rw [withTable, hmachine]
      exact Memory.entry_fillFrame_zero index (h.offers.lt_frames List.mem_cons_self)

theorem get?_of_step_drop (h : Accounts low high session loose free)
    (hstep : (step (.table slot .drop)).run session = .ok reply after) :
    after.tables.get? slot = none := by
  obtain ⟨table, _, htable, -⟩ := Action.run_bind_eq_ok hstep
  obtain ⟨hget, -⟩ := run_required_eq_ok htable
  by_cases howned : table.owned = true
  · obtain ⟨kernel', hdrop, -⟩ := h.step_drop_of_owned hget howned
    cases hstep.symm.trans hdrop
    exact Slots.get?_erase_same _ _
  · rw [Bool.not_eq_true] at howned
    cases hstep.symm.trans (step_drop_of_view hget howned)
    exact Slots.get?_erase_same _ _

theorem spanned_findOrBuild (h : Accounts low high session loose free)
    (hspanned : session.Spanned touched)
    (hstep : (step (.table slot (.findOrBuild page))).run session = .ok reply after)
    (hget' : after.tables.get? slot = some table') :
    PageTable.Spans after.kernel.machine.memory PageTable.rootHeight table'.root
      (insert page (touched slot)) := by
  obtain ⟨_, _, honTable, -⟩ := Action.run_bind_eq_ok hstep
  obtain ⟨table, _, htable, -⟩ := Action.run_bind_eq_ok honTable
  obtain ⟨hget, -⟩ := run_required_eq_ok htable
  by_cases howned : table.owned = true
  · obtain ⟨fresh, rest, kernel', rfl, -, -, hpaved, hcase⟩ :=
      h.step_findOrBuild_cases hget howned page
    rcases hcase with ⟨found, hbuilt, -, hlength⟩ | ⟨-, -, hfail⟩
    · cases hstep.symm.trans hbuilt
      rw [withTable, Slots.get?_set_same] at hget'
      cases hget'
      have hspans := h.spans_of_paved hspanned hget howned hpaved hlength
      exact hspans
    · cases hstep.symm.trans hfail
  · rw [Bool.not_eq_true] at howned
    cases hstep.symm.trans (step_findOrBuild_of_view hget howned)

theorem spanned_map (h : Accounts low high session loose free) (hspanned : session.Spanned touched)
    (hstep : (step (.table slot (.map page name flags))).run session = .ok reply after)
    (hget' : after.tables.get? slot = some table') :
    PageTable.Spans after.kernel.machine.memory PageTable.rootHeight table'.root
      (insert page (touched slot)) := by
  obtain ⟨frame, hname, table, hget, howned⟩ := exists_of_step_map hstep
  rcases h.step_map_cases hget howned hname page flags with ⟨entry, -, hfail⟩ |
    ⟨-, fresh, rest, kernel', rfl, -, -, ⟨hmap, hlength, -, built, found, hpaved, hslot, hmemory⟩ |
      ⟨-, -, hfail, -⟩⟩
  · cases hstep.symm.trans hfail
  · cases hstep.symm.trans hmap
    rw [withTable, Slots.get?_set_same] at hget'
    cases hget'
    rw [withTable, hmemory]
    refine (h.spans_of_paved hspanned hget howned hpaved hlength).setEntry ?_ hslot _
    exact hpaved.nodes.nodup_iff.mpr (h.fits hget howned).nodup
  · cases hstep.symm.trans hfail

theorem spanned_unmap (h : Accounts low high session loose free) (hspanned : session.Spanned touched)
    (hstep : (step (.table slot (.unmap page))).run session = .ok reply after)
    (hget' : after.tables.get? slot = some table') (howned : table'.owned = true) :
    PageTable.Spans after.kernel.machine.memory PageTable.rootHeight table'.root (touched slot) := by
  obtain ⟨table, _, htable, -⟩ := Action.run_bind_eq_ok hstep
  obtain ⟨hget, -⟩ := run_required_eq_ok htable
  obtain ⟨found, hfind, -, rfl⟩ := found_of_step_unmap hget hstep
  cases hget.symm.trans hget'
  have hstanding := h.standing hget howned
  rw [hstanding.find?_eq, Except.ok.injEq] at hfind
  rw [memory_cleared]
  exact (hspanned slot _ hget howned).setEntry hstanding.nodup hfind .empty

-- Whatever is done with a table, its tree is what its pages need.
theorem spanned_named {command : TableCommand} (h : Accounts low high session loose free)
    (hpermitted : session.Permitted loose (.table slot command)) (hspanned : session.Spanned touched)
    (hstep : (step (.table slot command)).run session = .ok reply after)
    (hget' : after.tables.get? slot = some table') (howned : table'.owned = true) :
    PageTable.Spans after.kernel.machine.memory PageTable.rootHeight table'.root
      (Event.touchedAfter ⟨session, .table slot command, reply⟩ touched slot) := by
  have hlookup : command.IsLookup → PageTable.Spans after.kernel.machine.memory
      PageTable.rootHeight table'.root
      (Event.touchedAfter ⟨session, .table slot command, reply⟩ touched slot) := by
    intro hlookup
    have hkept : after.tables.get? slot = session.tables.get? slot :=
      Action.left_of_ok hstep ▸ bystands_stepTable_of_lookup slot hlookup session
    have huntouched : session.Untouched after :=
      Action.left_of_ok hstep ▸ keeps_lookup hlookup session
    rw [Event.touchedAfter_of_lookup hlookup, huntouched.1]
    exact hspanned slot table' (hkept.symm.trans hget') howned
  cases command with
  | create =>
      rw [Event.touchedAfter_create]
      exact h.spanned_create hstep hget'
  | view space => cases (owned_of_step_view hstep hget').symm.trans howned
  | drop => cases (h.get?_of_step_drop hstep).symm.trans hget'
  | move target =>
      obtain ⟨table, hget, rfl⟩ := eq_of_step_move hstep
      have hne : slot ≠ target := fun heq => by
        have hempty : session.tables.get? target = none := hpermitted
        rw [← heq, hget] at hempty
        cases hempty
      rw [Slots.get?_set_other _ _ _ _ hne, Slots.get?_set_same] at hget'
      cases hget'
      cases howned
  | map page frame flags =>
      rw [Event.touchedAfter_map]
      exact h.spanned_map hspanned hstep hget'
  | unmap page => exact h.spanned_unmap hspanned hstep hget' howned
  | findOrBuild page =>
      rw [Event.touchedAfter_findOrBuild]
      exact h.spanned_findOrBuild hspanned hstep hget'
  | poke page entry => exact hpermitted.elim
  | _ => exact hlookup trivial

-- One command more, whatever it is.
theorem spanned (h : Accounts low high session loose free)
    (hpermitted : session.Permitted loose command)
    (hundisturbed : Undisturbed loose ⟨session, command, reply⟩ after)
    (hstep : (step command).run session = .ok reply after) (hspanned : session.Spanned touched) :
    after.Spanned (Event.touchedAfter ⟨session, command, reply⟩ touched) := by
  intro slot table' hget' howned
  by_cases hnamed : ∃ other, command = .table slot other
  · obtain ⟨other, rfl⟩ := hnamed
    exact h.spanned_named hpermitted hspanned hstep hget' howned
  · by_cases htarget : ∃ source, command = .table source (.move slot)
    · obtain ⟨source, rfl⟩ := htarget
      obtain ⟨table, hget, rfl⟩ := eq_of_step_move hstep
      rw [Slots.get?_set_same] at hget'
      cases hget'
      rw [Event.touchedAfter_move]
      exact hspanned source _ hget howned
    · rw [not_exists] at hnamed htarget
      rw [get?_of_step hnamed htarget hstep] at hget'
      rw [Event.touchedAfter_other hnamed htarget]
      exact (hspanned slot table' hget' howned).congr
        (hundisturbed.interior hpermitted hstep hget' howned hnamed)

end Accounts

namespace Run

theorem spanned (hrun : Run low high session history) : session.Spanned (Event.touched history) := by
  induction hrun with
  | start hlow hhigh hwindow hinit =>
      intro slot table hget
      rw [get?_of_step (by simp) (by simp) hinit] at hget
      cases hget
  | step hrun hpermitted hstep ih =>
      obtain ⟨free, haccounts, -⟩ := hrun.invariant
      exact haccounts.spanned hpermitted (hrun.undisturbed (fun _ => hpermitted) hstep) hstep ih

-- What a table was asked for settles how many nodes it has and what its interior nodes hold, however
-- often and in whatever order it was asked, and whatever was unmapped since. There is the root, a node
-- for each index into the root, and one for each pair of upper indices, and no frame is two of them.
-- A word of an interior node leads on if a page goes through it that the table was asked for.
theorem nodes_of_touched (hrun : Run low high session history)
    (hget : session.tables.get? slot = some table) (howned : table.owned = true) :
    table.nodes = 1 +
        ((Event.touched history slot).image (·.number >>> (2 * indexBits))).card +
        ((Event.touched history slot).image (·.number >>> indexBits)).card ∧
    table.nodes = (PageTable.nodesFrom session.kernel.machine.memory PageTable.rootHeight
      table.root).toFinset.card ∧
    (∀ i, session.kernel.machine.memory.PointsIff ⟨table.root, i⟩
      (∃ page ∈ Event.touched history slot, page.indexAtLevel 0 = .ok i)) ∧
    ∀ i, (session.kernel.machine.memory.entry ⟨table.root, i⟩).isValid = true → ∀ j,
      session.kernel.machine.memory.PointsIff
        ⟨(session.kernel.machine.memory.entry ⟨table.root, i⟩).page, j⟩
        (∃ page ∈ Event.touched history slot,
          page.indexAtLevel 0 = .ok i ∧ page.indexAtLevel 1 = .ok j) := by
  obtain ⟨free, haccounts, -⟩ := hrun.invariant
  have hcounted := haccounts.counted slot table hget howned
  have hspans := hrun.spanned slot table hget howned
  have hroot := PageTable.spans_succ.mp hspans
  have htop : ∀ page : VirtPage, page.indexAtLevel 0 = .ok (page.indexAt 2) := fun _ => rfl
  have hmiddle : ∀ page : VirtPage, page.indexAtLevel 1 = .ok (page.indexAt 1) := fun _ => rfl
  simp only [htop, hmiddle, Except.ok.injEq]
  refine ⟨hcounted.trans hspans.length_nodesFrom_root, ?_, fun i => ?_, fun i hvalid j => ?_⟩
  · rw [List.toFinset_card_of_nodup (haccounts.standing hget howned).nodup]
    exact hcounted
  · exact ⟨(hroot i).isValid_iff.trans Finset.filter_nonempty_iff, (hroot i).bits⟩
  · obtain ⟨child, hentry, hbelow⟩ := (hroot i).node_of_valid hvalid
    have hchild := PageTable.spans_succ.mp hbelow j
    rw [hentry, Entry.page_node]
    refine ⟨hchild.isValid_iff.trans (Finset.filter_nonempty_iff.trans ?_), hchild.bits⟩
    simp only [VirtPage.mem_through, and_assoc]

-- A table that mapped a page, unmapped it, and moved. Its tree is that of the page.
theorem nodes_of_touched_unmapped : ∃ session history table, Run 1 8 session history ∧
    history.map Event.command = [.table 0 (.move 1), .table 0 (.unmap (.ofNat 0x40201)),
      .table 0 (.map (.ofNat 0x40201) (.page (.ofNat 7)) ⟨2⟩), .table 0 .create] ∧
    session.tables.get? 1 = some table ∧ table.owned = true ∧ table.nodes = 3 ∧
    (PageTable.nodesFrom session.kernel.machine.memory PageTable.rootHeight
      table.root).toFinset.card = 3 ∧
    ∀ i, (session.kernel.machine.memory.entry ⟨table.root, i⟩).isValid = true ↔ i.val = 1 := by
  obtain ⟨session, history, table, hrun, hcommands, hothers, hget, howned, hmaps⟩ :=
    exists_only_one_page (.ofNat 0x40201)
  obtain ⟨found, hfind, hvalid⟩ := PageTable.maps_iff_found.mp ((hmaps _).mpr rfl)
  have hpermitted : session.Permitted (Event.loose history)
      (.table 0 (.unmap (.ofNat 0x40201))) := fun owner _ hget' hview => by
    cases hget.symm.trans hget'
    cases howned.symm.trans hview
  have hrun₁ := hrun.step hpermitted (step_unmap_of_found hget hfind hvalid)
  have hget₁ : (session.cleared found).tables.get? 0 = some table := hget
  have hempty : ∀ loose, (session.cleared found).Permitted loose (.table 0 (.move 1)) :=
    fun _ => hothers 1 (by decide)
  let moved : Session := { session.cleared found with
    tables := ((session.cleared found).tables.set 0 table.disowned).set 1 table }
  have hmove : (Session.step (.table 0 (.move 1))).run (session.cleared found) =
      .ok (.count table.nodes) moved := Action.run_bind_ok (run_table_some hget₁)
  have hrun₂ := hrun₁.step (hempty _) hmove
  have hget₂ : moved.tables.get? 1 = some table := Slots.get?_set_same _ _ _
  have htouched : Event.touched (⟨session.cleared found, .table 0 (.move 1), .count table.nodes⟩ ::
      ⟨session, .table 0 (.unmap (.ofNat 0x40201)), .count table.nodes⟩ :: history) 1 =
      {.ofNat 0x40201} := by
    obtain ⟨mapping, creation, rfl, hmapping, hrest⟩ := List.map_eq_cons_iff.mp hcommands
    obtain ⟨creation, past, rfl, hcreation, hpast⟩ := List.map_eq_cons_iff.mp hrest
    cases List.map_eq_nil_iff.mp hpast
    simp [Event.touched, Event.touchedAfter, hmapping, hcreation]
  obtain ⟨hnodes, hframes, hroot, -⟩ := nodes_of_touched hrun₂ hget₂ howned
  rw [htouched, Finset.image_singleton, Finset.image_singleton, Finset.card_singleton] at hnodes
  refine ⟨moved, _, table, hrun₂, ?_, hget₂, howned, hnodes, hframes.symm.trans hnodes, fun i => ?_⟩
  · rw [List.map_cons, List.map_cons, hcommands]
  · have hindex : (VirtPage.ofNat 0x40201).indexAtLevel 0 = .ok ⟨1, by decide⟩ := rfl
    rw [(hroot i).1, htouched]
    simp only [Finset.mem_singleton, exists_eq_left, hindex, Except.ok.injEq, Fin.ext_iff]
    exact eq_comm

end Run

end Session

end PagedMemory
