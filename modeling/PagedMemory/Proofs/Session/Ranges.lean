import PagedMemory.Proofs.Session.Progress
import PagedMemory.Proofs.User.PageLoop

namespace PagedMemory

theorem PageTable.maps_ofToken_token (table : PageTable) (memory : Memory) (page : VirtPage) :
    (ofToken table.token).Maps memory page ↔ table.Maps memory page := by
  rw [Maps, Maps, translate?_ofToken_token]

theorem UserRange.wraps_iff {start length : UInt64} :
    start + length < start ↔ 0x10000000000000000 ≤ start.toNat + length.toNat := by
  have hstart := start.toNat_lt
  have hlength := length.toNat_lt
  rw [UInt64.lt_iff_toNat_lt, UInt64.toNat_add]
  omega

theorem UserRange.le_stop {start length : UInt64}
    (h : start.toNat + length.toNat < 0x10000000000000000) : start ≤ start + length :=
  UInt64.not_lt.mp fun hwraps => Nat.not_le.mpr h (wraps_iff.mp hwraps)

namespace Session

variable {session : Session} {low high slot : Nat} {loose free : List PhysPage}
  {history : List Event} {table : PageTable} {start length : UInt64}

theorem Accounts.answers (h : Accounts low high session loose free)
    (hget : session.tables.get? slot = some table) (howned : table.owned = true) :
    (PageTable.ofToken table.token).Answers session.kernel.machine.memory := fun page => by
  rw [PageTable.translate?_ofToken_token]
  exact ⟨_, PageTable.translate?_eq (h.standing hget howned).window⟩

namespace Run

-- A range of an address space is made if, and only if, all its pages are mapped, and never if it wraps
-- around. The last page of all is an exception: a range that runs into it is made in no case. The
-- start of the page after it is zero, so pages outside the range are tried too, over and over unless
-- one of them is not mapped.
theorem ofMapped_iff (hrun : Run low high session history)
    (hget : session.tables.get? slot = some table) (howned : table.owned = true)
    (start length : UInt64) :
    (UserRange.ofMapped (.ofToken table.token) start length session.kernel.machine.memory =
        .error (.fault .rangeWraps) ↔ 0x10000000000000000 ≤ start.toNat + length.toNat) ∧
    (start.toNat + length.toNat < 0x10000000000000000 →
      length = 0 ∨ start.toNat + length.toNat ≤ 0xfffffffffffff000 →
      (∃ outcome, UserRange.PageLoop (.ofToken table.token) session.kernel.machine.memory
        (start + length) start outcome) ∧
      (UserRange.ofMapped (.ofToken table.token) start length session.kernel.machine.memory =
          .ok ⟨.ofToken table.token, start, start + length⟩ ↔
        ∀ a, start ≤ a → a < start + length →
          table.Maps session.kernel.machine.memory (UserRange.pageOf a)) ∧
      ((∃ a, UserRange.ofMapped (.ofToken table.token) start length
          session.kernel.machine.memory = .error (.fault (.pageUnmapped a))) ↔
        ∃ a, start ≤ a ∧ a < start + length ∧
          ¬table.Maps session.kernel.machine.memory (UserRange.pageOf a))) ∧
    (start.toNat + length.toNat < 0x10000000000000000 → length ≠ 0 →
      0xfffffffffffff000 < start.toNat + length.toNat →
      (∀ range, UserRange.ofMapped (.ofToken table.token) start length
        session.kernel.machine.memory ≠ .ok range) ∧
      ((∃ outcome, UserRange.PageLoop (.ofToken table.token) session.kernel.machine.memory
          (start + length) start outcome) ↔
        ∃ page, ¬table.Maps session.kernel.machine.memory page) ∧
      ((∃ a, UserRange.ofMapped (.ofToken table.token) start length
          session.kernel.machine.memory = .error (.fault (.pageUnmapped a))) ↔
        ∃ page, ¬table.Maps session.kernel.machine.memory page)) ∧
    Fault.rangeWraps.message = "Assertion failure: end_ >= start_" ∧
    ∀ a, (Fault.pageUnmapped a).message = "Translation of an unmapped user page" := by
  obtain ⟨free, haccounts, -⟩ := hrun.invariant
  have hanswers := haccounts.answers hget howned
  have hadd : start.toNat + length.toNat < 0x10000000000000000 →
      (start + length).toNat = start.toNat + length.toNat := fun hfits => by
    rw [UInt64.toNat_add, Nat.mod_eq_of_lt hfits]
  have hlast : UserRange.lastPage.toNat = 0xfffffffffffff000 := rfl
  refine ⟨(UserRange.ofMapped_eq_rangeWraps_iff hanswers).trans UserRange.wraps_iff,
    fun hfits hinside => ?_, fun hfits hlength hpast => ?_, rfl, fun _ => rfl⟩
  · have hwrap : ¬start + length < start := fun hwraps =>
      Nat.not_le_of_lt hfits (UserRange.wraps_iff.mp hwraps)
    have hinside' : ¬(start < start + length ∧ UserRange.lastPage < start + length) := by
      rw [UInt64.lt_iff_toNat_lt, UInt64.lt_iff_toNat_lt, hadd hfits, hlast]
      rcases hinside with rfl | hle
      · exact fun hlt => Nat.lt_irrefl _ hlt.1
      · omega
    simp only [← PageTable.maps_ofToken_token table]
    refine ⟨?_, UserRange.ofMapped_eq_ok_iff hanswers hwrap hinside',
      UserRange.ofMapped_eq_pageUnmapped_iff hanswers hwrap hinside'⟩
    rcases UserRange.ofMapped_inside_cases hanswers hwrap hinside' with
      ⟨-, hloop, -⟩ | ⟨b, -, hloop, -⟩
    · exact ⟨_, hloop⟩
    · exact ⟨_, hloop⟩
  · have hpos : 0 < length.toNat := Nat.pos_of_ne_zero fun hzero =>
      hlength (UInt64.toNat_inj.mp hzero)
    have hlt : start < start + length := by
      rw [UInt64.lt_iff_toNat_lt, hadd hfits]
      omega
    have hlast' : UserRange.lastPage < start + length := by
      rwa [UInt64.lt_iff_toNat_lt, hadd hfits, hlast]
    simp only [← PageTable.maps_ofToken_token table]
    exact ⟨UserRange.ofMapped_ne_ok hanswers hlt hlast',
      UserRange.exists_pageLoop_iff hanswers hlt hlast',
      UserRange.ofMapped_eq_pageUnmapped_iff_of_lastPage hanswers hlt hlast'⟩

theorem translate?_eq_leafOf (hrun : Run low high session history)
    (howner : ∀ event ∈ history, event.ByOwner)
    (hget : session.tables.get? slot = some table) (howned : table.owned = true) (page : VirtPage) :
    table.translate? page session.kernel.machine.memory =
      .ok ((Event.record history slot page).map Entry.leafOf) := by
  obtain ⟨free, haccounts, hagrees⟩ := hrun.invariant
  rw [PageTable.translate?_eq (haccounts.standing hget howned).window,
    hagrees howner slot table hget howned page]

-- A table in which one page was mapped, and nothing else.
theorem translate?_of_one_map {created empty : Session} {reply reply' : Reply} {frame : PhysPage}
    {page : VirtPage} {flags : Flags}
    (hrun : Run low high session [⟨created, .table 0 (.map page (.page frame) flags), reply⟩,
      ⟨empty, .table 0 .create, reply'⟩])
    (hget : session.tables.get? 0 = some table) (howned : table.owned = true) (other : VirtPage) :
    table.translate? other session.kernel.machine.memory =
      .ok (if other = page then some (.leaf frame flags) else none) := by
  rw [hrun.translate?_eq_leafOf (by simp [Event.ByOwner]) hget howned, Event.record,
    Event.recordAfter_map, Event.record, Event.recordAfter_create, if_pos rfl]
  by_cases hpage : other = page
  · rw [if_pos ⟨rfl, hpage⟩, if_pos hpage]
    rfl
  · rw [if_neg fun hboth => hpage hboth.2, if_neg hpage]
    rfl

-- The pages of a table are those that were mapped and not unmapped since.
theorem maps_iff_record (hrun : Run low high session history)
    (howner : ∀ event ∈ history, event.ByOwner)
    (hget : session.tables.get? slot = some table) (howned : table.owned = true) (page : VirtPage) :
    table.Maps session.kernel.machine.memory page ↔
      (Event.record history slot page).isSome = true := by
  rw [PageTable.Maps, hrun.translate?_eq_leafOf howner hget howned]
  cases Event.record history slot page with
  | none =>
      constructor
      · rintro ⟨entry, hentry⟩
        cases hentry
      · intro hsome
        cases hsome
  | some mapping => exact ⟨fun _ => rfl, fun _ => ⟨_, rfl⟩⟩

-- A table that maps one page, and no other table.

theorem exists_only_one_leaf (page : VirtPage) (frame : PhysPage) (flags : Flags) :
    ∃ session history table, Run 1 8 session history ∧
      history.map Event.command = [.table 0 (.map page (.page frame) flags), .table 0 .create] ∧
      (∀ other ≠ 0, session.tables.get? other = none) ∧
      session.tables.get? 0 = some table ∧ table.owned = true ∧
      ∀ other, table.translate? other session.kernel.machine.memory =
        .ok (if other = page then some (.leaf frame flags) else none) := by
  obtain ⟨empty, created, session, root, nodes, hrun, -, hget, hothers⟩ :=
    exists_mapped (.filled 1024 0xcd) 0x1000 0x8000 rfl rfl (by decide) (by decide) page
      (fun _ => frame) flags
  exact ⟨session, _, _, hrun, rfl, hothers, hget, rfl, hrun.translate?_of_one_map hget rfl⟩

theorem exists_only_one_page (page : VirtPage) : ∃ session history table, Run 1 8 session history ∧
    history.map Event.command =
      [.table 0 (.map page (.page (.ofNat 7)) ⟨2⟩), .table 0 .create] ∧
    (∀ other ≠ 0, session.tables.get? other = none) ∧
    session.tables.get? 0 = some table ∧ table.owned = true ∧
    ∀ other, table.Maps session.kernel.machine.memory other ↔ other = page := by
  obtain ⟨session, history, table, hrun, hcommands, hothers, hget, howned, htranslate⟩ :=
    exists_only_one_leaf page (.ofNat 7) ⟨2⟩
  refine ⟨session, history, table, hrun, hcommands, hothers, hget, howned, fun other => ?_⟩
  rw [PageTable.Maps, htranslate]
  by_cases heq : other = page
  · rw [if_pos heq]
    exact ⟨fun _ => heq, fun _ => ⟨_, rfl⟩⟩
  · rw [if_neg heq]
    constructor
    · rintro ⟨entry, hentry⟩
      cases hentry
    · intro hpage
      exact (heq hpage).elim

theorem exists_one_page (page : VirtPage) : ∃ session history table, Run 1 8 session history ∧
    history.map Event.command =
      [.table 0 (.map page (.page (.ofNat 7)) ⟨2⟩), .table 0 .create] ∧
    session.tables.get? 0 = some table ∧ table.owned = true ∧
    ∀ other, table.Maps session.kernel.machine.memory other ↔ other = page := by
  obtain ⟨session, history, table, hrun, hcommands, -, hmaps⟩ := exists_only_one_page page
  exact ⟨session, history, table, hrun, hcommands, hmaps⟩

-- A table that maps two pages.
theorem exists_two_pages {page page' : VirtPage} (hne : page' ≠ page) :
    ∃ session history table, Run 1 8 session history ∧
      history.map Event.command =
        [.table 0 (.map page' (.page (.ofNat 6)) ⟨2⟩), .table 0 (.map page (.page (.ofNat 7)) ⟨2⟩),
          .table 0 .create] ∧
      session.tables.get? 0 = some table ∧ table.owned = true ∧
      ∀ other, table.Maps session.kernel.machine.memory other ↔ other = page' ∨ other = page := by
  obtain ⟨empty, created, root, -, hrun, -, -, hframes, htables, -⟩ :=
    exists_created (.filled 1024 0xcd) 0x1000 0x8000 (show 1 = _ from rfl) (show 8 = _ from rfl)
      (by decide) (by decide)
  have hnone : ∀ other, Event.record [⟨empty, .table 0 .create, .page root⟩] 0 other = none :=
    fun other => by rw [Event.record, Event.recordAfter_create, if_pos rfl]
  obtain ⟨nodes, mapped, hrun', hframes', htables', hnodes⟩ :=
    hrun.exists_map rfl (by simp [Event.ByOwner]) hframes htables rfl
      (show 1 + 2 ≤ 8 - 1 by decide) (hnone page) (.ofNat 7) ⟨2⟩
  simp only at hnodes
  obtain ⟨nodes', session, hrun'', -, htables'', -⟩ :=
    hrun'.exists_map rfl (by simp [Event.ByOwner]) hframes' htables' rfl
      (show nodes + 2 ≤ 8 - 1 by omega)
      (by rw [Event.record, Event.recordAfter_map, if_neg fun h => hne h.2, hnone])
      (.ofNat 6) ⟨2⟩
  have hget : session.tables.get? 0 = some ⟨root, true, nodes'⟩ := by
    rw [htables'', Slots.get?_set_same]
  refine ⟨session, _, _, hrun'', rfl, hget, rfl, fun other => ?_⟩
  rw [hrun''.maps_iff_record (by simp [Event.ByOwner]) hget rfl, Event.record,
    Event.recordAfter_map, Event.record, Event.recordAfter_map, hnone]
  by_cases hfirst : other = page'
  · rw [if_pos ⟨rfl, hfirst⟩]
    exact ⟨fun _ => Or.inl hfirst, fun _ => rfl⟩
  · rw [if_neg fun h => hfirst h.2]
    by_cases hsecond : other = page
    · rw [if_pos ⟨rfl, hsecond⟩]
      exact ⟨fun _ => Or.inr hsecond, fun _ => rfl⟩
    · rw [if_neg fun h => hsecond h.2]
      constructor
      · intro hsome
        cases hsome
      · intro heither
        exact (heither.elim hfirst hsecond).elim

-- One byte on the last page, which is mapped.
theorem last_page_not_made : ∃ session history table, Run 1 8 session history ∧
    history.map Event.command =
      [.table 0 (.map (.ofNat 0x7ffffff) (.page (.ofNat 7)) ⟨2⟩), .table 0 .create] ∧
    session.tables.get? 0 = some table ∧ table.owned = true ∧
    (∀ a : UInt64, 0xfffffffffffff000 ≤ a → a < 0xfffffffffffff000 + 1 →
      table.Maps session.kernel.machine.memory (UserRange.pageOf a)) ∧
    ∃ cause, UserRange.ofMapped (.ofToken table.token) 0xfffffffffffff000 1
        session.kernel.machine.memory = .error (.fault cause) ∧
      cause.message = "Translation of an unmapped user page" := by
  obtain ⟨session, history, table, hrun, hcommands, hget, howned, hmaps⟩ :=
    exists_one_page (.ofNat 0x7ffffff)
  obtain ⟨free, haccounts, -⟩ := hrun.invariant
  refine ⟨session, history, table, hrun, hcommands, hget, howned, fun a hstart hstop => ?_, ?_⟩
  · have ha : a = 0xfffffffffffff000 := by
      rw [UInt64.le_iff_toNat_le] at hstart
      rw [UInt64.lt_iff_toNat_lt] at hstop
      exact UInt64.toNat_inj.mp (Nat.le_antisymm (Nat.le_of_lt_succ hstop) hstart)
    rw [hmaps, ha]
    rfl
  · have hfirst : ¬(PageTable.ofToken table.token).Maps session.kernel.machine.memory (.ofNat 0) := by
      rw [PageTable.maps_ofToken_token, hmaps]
      decide
    have hpast : (0xfffffffffffff000 : UInt64) < 0xfffffffffffff000 + 1 := by decide
    obtain ⟨b, hrefused⟩ := (UserRange.ofMapped_eq_pageUnmapped_iff_of_lastPage
      (haccounts.answers hget howned) hpast hpast).mpr ⟨_, hfirst⟩
    exact ⟨_, hrefused, rfl⟩

-- Ranges on a page that is mapped, past its end, past the end of the space, and on its last page.
theorem ofMapped_iff_on_one_page : ∃ session history table, Run 1 8 session history ∧
    session.tables.get? 0 = some table ∧ table.owned = true ∧
    UserRange.ofMapped (.ofToken table.token) 0x5ff0 0x10 session.kernel.machine.memory =
      .ok ⟨.ofToken table.token, 0x5ff0, 0x6000⟩ ∧
    (∃ a, UserRange.ofMapped (.ofToken table.token) 0x5ff0 0x11 session.kernel.machine.memory =
      .error (.fault (.pageUnmapped a))) ∧
    UserRange.ofMapped (.ofToken table.token) 0xffffffffffffffff 1 session.kernel.machine.memory =
      .error (.fault .rangeWraps) ∧
    ∀ range, UserRange.ofMapped (.ofToken table.token) 0xfffffffffffff000 1
      session.kernel.machine.memory ≠ .ok range := by
  obtain ⟨session, history, table, hrun, -, hget, howned, hmaps⟩ := exists_one_page (.ofNat 5)
  obtain ⟨-, hinside, -⟩ := ofMapped_iff hrun hget howned 0x5ff0 0x10
  obtain ⟨-, hpast, -⟩ := ofMapped_iff hrun hget howned 0x5ff0 0x11
  obtain ⟨hwraps, -, -⟩ := ofMapped_iff hrun hget howned 0xffffffffffffffff 1
  obtain ⟨-, -, hlast, -⟩ := ofMapped_iff hrun hget howned 0xfffffffffffff000 1
  refine ⟨session, history, table, hrun, hget, howned, ?_, ?_, hwraps.mpr (by decide),
    (hlast (by decide) (by decide) (by decide)).1⟩
  · refine (hinside (by decide) (Or.inr (by decide))).2.1.mpr fun a hstart hstop => ?_
    rw [UInt64.le_iff_toNat_le, show (0x5ff0 : UInt64).toNat = 0x5ff0 from rfl] at hstart
    rw [UInt64.lt_iff_toNat_lt, show (0x5ff0 + 0x10 : UInt64).toNat = 0x6000 from rfl] at hstop
    rw [hmaps, UserRange.pageOf_eq, show a.toNat / 4096 = 5 by omega]
  · refine (hpast (by decide) (Or.inr (by decide))).2.2.mpr ⟨0x6000, by decide, by decide, ?_⟩
    rw [hmaps]
    decide

end Run

end Session

end PagedMemory
