import PagedMemory.Proofs.Keeps
import PagedMemory.Proofs.Session.Ranges
import PagedMemory.Proofs.User.Copies

namespace PagedMemory

variable {table : PageTable} {memory memory' : Memory} {range : UserRange} {log : List LogEntry}
  {start length : UInt64} {source : List UInt8} {stop : Stop}

-- Contents of memory are compared here and never computed.
attribute [local irreducible] Memory.entry Memory.frame

namespace UserRange

-- A page that is not mapped is missed, wherever in the range it lies.
theorem refused_of_not_maps {a : UInt64} (hstart : start ≤ a)
    (hstop : a.toNat < start.toNat + length.toNat) (hnot : ¬table.Maps memory (pageOf a)) :
    ∃ stop, ofMapped table start length memory = .error stop := by
  cases hmade : ofMapped table start length memory with
  | error stop => exact ⟨stop, rfl⟩
  | ok range =>
      obtain ⟨-, horder, -, hmaps⟩ := ofMapped_eq_ok hmade
      refine (hnot (hmaps a hstart ?_)).elim
      rw [UInt64.lt_iff_toNat_lt, toNat_stop horder]
      exact hstop

-- If all lookups are answered, this is the reason that is given.
theorem refused_as_unmapped (hanswers : table.Answers memory) (hwrap : ¬start + length < start)
    {a : UInt64} (hstart : start ≤ a) (hstop : a.toNat < start.toNat + length.toNat)
    (hnot : ¬table.Maps memory (pageOf a)) :
    ∃ b, ofMapped table start length memory = .error (.fault (.pageUnmapped b)) := by
  by_cases hlast : start < start + length ∧ lastPage < start + length
  · exact (ofMapped_eq_pageUnmapped_iff_of_lastPage hanswers hlast.1 hlast.2).mpr ⟨_, hnot⟩
  · refine (ofMapped_eq_pageUnmapped_iff hanswers hwrap hlast).mpr ⟨a, hstart, ?_, hnot⟩
    rw [UInt64.lt_iff_toNat_lt, toNat_stop (UInt64.not_lt.mp hwrap)]
    exact hstop

-- Frames that are not nodes of the tree are not visited by any lookup, and may be written to.
theorem run_copyToUser_of_made (hmade : ofMapped table start length memory = .ok range)
    (hlength : source.length = length.toNat)
    (hleaves : ∀ a entry, start ≤ a → a < start + length →
      table.translate? (pageOf a) memory = .ok (some entry) → entry.page.number < memory.frames ∧
        entry.page ∉ PageTable.nodesFrom memory PageTable.rootHeight table.root) (log : List LogEntry) :
    ∃ memory', (table.copyToUser start source).run ⟨memory, log⟩ = .ok () ⟨memory', log⟩ ∧
      table.storeEach start.toNat source memory = .ok memory' := by
  have hbacked := backed_of_ofMapped hmade fun a entry hstart hstop hentry =>
    (hleaves a entry hstart hstop hentry).1
  obtain ⟨rfl, horder, -⟩ := ofMapped_eq_ok hmade
  have hwritable : (⟨table, start, start + length⟩ : UserRange).Writable memory := by
    refine ⟨hbacked, fun n m entry hn hm hentry hwalk => ?_⟩
    obtain ⟨a, hstart, hstop, rfl⟩ := exists_of_holds hn
    exact (hleaves a entry hstart hstop (pageOf_eq a ▸ hentry)).2 (PageTable.walkFrom_subset hwalk)
  have htotal : (start + length).toNat - start.toNat = source.length := by
    rw [toNat_stop horder, Nat.add_sub_cancel_left, hlength]
  obtain ⟨memory', hrun, hstored, -⟩ :=
    hwritable.exists_copyOut horder log source.length source (Nat.min_le_left _ _)
  simp only [htotal, Nat.min_self, List.take_length] at hrun hstored
  exact ⟨memory', run_copyToUser hmade hlength hrun, hstored⟩

end UserRange

namespace Session

variable {session : Session} {space : SpaceName} {token : UInt64}

-- Storing bytes in an address space, once its register value is known.

theorem step_copyTo_of_ok (hspace : (tokenNamed space).run session = .ok token session)
    (hrun : ((PageTable.ofToken token).copyToUser start source).run session.kernel.machine =
      .ok () ⟨memory', log⟩) :
    (step (.space space (.copyTo start source))).run session =
      .ok .done { session with kernel := ⟨⟨memory', log⟩, session.kernel.pool⟩ } :=
  (Action.run_bind_ok hspace).trans (Action.run_bind_ok (run_onMachine_ok hrun))

theorem step_copyTo_of_error (hspace : (tokenNamed space).run session = .ok token session)
    (hrun : ((PageTable.ofToken token).copyToUser start source).run session.kernel.machine =
      .error stop ⟨memory', log⟩) :
    (step (.space space (.copyTo start source))).run session =
      .error stop { session with kernel := ⟨⟨memory', log⟩, session.kernel.pool⟩ } :=
  (Action.run_bind_ok hspace).trans (Action.run_bind_error (run_onMachine_error hrun))

theorem step_copyTo_of_refused (hspace : (tokenNamed space).run session = .ok token session)
    (hrefused : UserRange.ofMapped (.ofToken token) start (UInt64.ofNat source.length)
      session.kernel.machine.memory = .error stop) :
    ∃ after, (step (.space space (.copyTo start source))).run session = .error stop after ∧
      session.Untouched after := by
  obtain ⟨log, hrun⟩ := UserRange.run_copyToUser_of_refused _ hrefused
  exact ⟨_, step_copyTo_of_error hspace hrun, rfl, rfl⟩

-- Bytes are stored in an address space all or not at all. A range that wraps around, or in which a
-- page is not mapped, is refused before anything is written: memory and the pool stay as they are,
-- and so they do whenever a range is refused. In a range that is accepted no later lookup fails, no
-- bound is overstepped and no byte is left over, as long as its pages are backed by frames that memory
-- has and that are not nodes of the same tree. To write to a node could turn the lookups still to come.
theorem copyTo_all_or_nothing (start : UInt64) (source : List UInt8)
    (hspace : (tokenNamed space).run session = .ok token session)
    (hlength : source.length < 0x10000000000000000) :
    (0x10000000000000000 ≤ start.toNat + source.length →
      ∃ after, (step (.space space (.copyTo start source))).run session =
        .error (.fault .rangeWraps) after ∧ session.Untouched after) ∧
    (∀ a, start ≤ a → a.toNat < start.toNat + source.length →
      ¬(PageTable.ofToken token).Maps session.kernel.machine.memory (UserRange.pageOf a) →
      ∃ stop after, (step (.space space (.copyTo start source))).run session = .error stop after ∧
        session.Untouched after ∧
        ((PageTable.ofToken token).Answers session.kernel.machine.memory →
          start.toNat + source.length < 0x10000000000000000 →
          ∃ b, stop = .fault (.pageUnmapped b))) ∧
    (∀ stop, UserRange.ofMapped (.ofToken token) start (UInt64.ofNat source.length)
        session.kernel.machine.memory = .error stop →
      ∃ after, (step (.space space (.copyTo start source))).run session = .error stop after ∧
        session.Untouched after) ∧
    ∀ range, UserRange.ofMapped (.ofToken token) start (UInt64.ofNat source.length)
        session.kernel.machine.memory = .ok range →
      (∀ a entry, start ≤ a → a < start + UInt64.ofNat source.length →
        (PageTable.ofToken token).translate? (UserRange.pageOf a) session.kernel.machine.memory =
          .ok (some entry) →
        entry.page.number < session.kernel.machine.memory.frames ∧
        entry.page ∉ PageTable.nodesFrom session.kernel.machine.memory PageTable.rootHeight
          (PageTable.ofToken token).root) →
      ∃ memory', (step (.space space (.copyTo start source))).run session = .ok .done
          { session with kernel := ⟨⟨memory', session.kernel.machine.log⟩, session.kernel.pool⟩ } ∧
        (PageTable.ofToken token).storeEach start.toNat source session.kernel.machine.memory =
          .ok memory' := by
  have hcount : (UInt64.ofNat source.length).toNat = source.length :=
    UInt64.toNat_ofNat_of_lt' hlength
  refine ⟨fun hwraps => ?_, fun a hstart hstop hnot => ?_,
    fun stop hrefused => step_copyTo_of_refused hspace hrefused, fun range hmade hleaves => ?_⟩
  · rw [← hcount] at hwraps
    exact step_copyTo_of_refused hspace
      (UserRange.ofMapped_of_wraps (UserRange.wraps_iff.mpr hwraps))
  · rw [← hcount] at hstop
    obtain ⟨stop, hrefused⟩ := UserRange.refused_of_not_maps hstart hstop hnot
    obtain ⟨after, hrun, huntouched⟩ := step_copyTo_of_refused hspace hrefused
    refine ⟨stop, after, hrun, huntouched, fun hanswers hfits => ?_⟩
    have hwrap : ¬start + UInt64.ofNat source.length < start := by
      rw [UserRange.wraps_iff, hcount]
      omega
    obtain ⟨b, hunmapped⟩ := UserRange.refused_as_unmapped hanswers hwrap hstart hstop hnot
    cases hrefused.symm.trans hunmapped
    exact ⟨b, rfl⟩
  · obtain ⟨memory', hrun, hstored⟩ :=
      UserRange.run_copyToUser_of_made hmade hcount.symm hleaves session.kernel.machine.log
    exact ⟨memory', step_copyTo_of_ok hspace hrun, hstored⟩

-- A page that is mapped to a frame outside the pool, and the page after it, which is not mapped.
theorem copyTo_all_or_nothing_over_page_end : ∃ session table after memory', ∃ b,
    session.tables.get? 0 = some table ∧
    (step (.space (.tableIn 0) (.copyTo 0x5ff0 (List.replicate 0x10 7)))).run session = .ok .done
      { session with kernel := ⟨⟨memory', session.kernel.machine.log⟩, session.kernel.pool⟩ } ∧
    (PageTable.ofToken table.token).storeEach 0x5ff0 (List.replicate 0x10 7)
      session.kernel.machine.memory = .ok memory' ∧
    (step (.space (.tableIn 0) (.copyTo 0x5ff0 (List.replicate 0x11 7)))).run session =
      .error (.fault (.pageUnmapped b)) after ∧ session.Untouched after ∧
    ∃ after, (step (.space (.tableIn 0) (.copyTo 0xffffffffffffffff [7]))).run session =
      .error (.fault .rangeWraps) after ∧ session.Untouched after := by
  obtain ⟨empty, created, session, root, nodes, hrun, -, hget, -⟩ :=
    Run.exists_mapped (.filled 1024 0xcd) 0x2000 0x8000 rfl rfl (by decide) (by decide) (.ofNat 5)
      (fun _ => .ofNat 1) ⟨2⟩
  obtain ⟨free, haccounts, -⟩ := hrun.invariant
  let table : PageTable := ⟨root, true, nodes⟩
  have hspace : (tokenNamed (.tableIn 0)).run session = .ok table.token session :=
    Action.run_bind_ok (run_table_some hget)
  have hanswers := haccounts.answers hget rfl
  have htranslate : ∀ page, (PageTable.ofToken table.token).translate? page
      session.kernel.machine.memory =
        .ok (if page = .ofNat 5 then some (.leaf (.ofNat 1) ⟨2⟩) else none) := by
    intro page
    rw [PageTable.translate?_ofToken_token,
      hrun.translate?_eq_leafOf (by simp [Event.ByOwner]) hget rfl, Event.record,
      Event.recordAfter_map, Event.record, Event.recordAfter_create, if_pos rfl]
    by_cases hpage : page = .ofNat 5
    · rw [if_pos ⟨rfl, hpage⟩, if_pos hpage]
      rfl
    · rw [if_neg fun hboth => hpage hboth.2, if_neg hpage]
      rfl
  have hpageOf : ∀ a : UInt64, 0x5ff0 ≤ a → a < 0x6000 → UserRange.pageOf a = .ofNat 5 := by
    intro a hstart hstop
    rw [UInt64.le_iff_toNat_le, show (0x5ff0 : UInt64).toNat = 0x5ff0 from rfl] at hstart
    rw [UInt64.lt_iff_toNat_lt, show (0x6000 : UInt64).toNat = 0x6000 from rfl] at hstop
    rw [UserRange.pageOf_eq, show a.toNat / 4096 = 5 by omega]
  have hmade : UserRange.ofMapped (.ofToken table.token) 0x5ff0 0x10
      session.kernel.machine.memory = .ok ⟨.ofToken table.token, 0x5ff0, 0x5ff0 + 0x10⟩ := by
    refine (UserRange.ofMapped_eq_ok_iff hanswers (by decide) (by decide)).mpr
      fun a hstart hstop => ?_
    rw [hpageOf a hstart hstop]
    exact ⟨_, (htranslate _).trans (congrArg Except.ok (if_pos rfl))⟩
  obtain ⟨-, -, -, haccepts⟩ := copyTo_all_or_nothing 0x5ff0 (List.replicate 0x10 7) hspace
    (by decide)
  obtain ⟨memory', hstep, hstored⟩ := haccepts _ hmade fun a entry hstart hstop hentry => by
    rw [hpageOf a hstart hstop, htranslate, if_pos rfl] at hentry
    cases hentry
    rw [Entry.page_leaf, PageTable.root_ofToken_token]
    refine ⟨Nat.lt_of_lt_of_le (by decide) haccounts.offers.high_le_frames, fun hnode => ?_⟩
    have hrange := haccounts.range (List.mem_append_right _ (Accounts.node_mem hget rfl hnode))
    exact absurd hrange.1 (by decide)
  obtain ⟨-, hunmapped, -⟩ := copyTo_all_or_nothing 0x5ff0 (List.replicate 0x11 7) hspace
    (by decide)
  obtain ⟨stop, after, hrefused, huntouched, hreason⟩ := hunmapped 0x6000 (by decide) (by decide) (by
    rintro ⟨entry, hentry⟩
    rw [htranslate, if_neg (by decide)] at hentry
    cases hentry)
  obtain ⟨b, rfl⟩ := hreason hanswers (by decide)
  obtain ⟨hwraps, -⟩ := copyTo_all_or_nothing 0xffffffffffffffff [7] hspace (by decide)
  exact ⟨session, table, after, memory', b, hget, hstep, hstored, hrefused, huntouched,
    hwraps (by decide)⟩

end Session

end PagedMemory
