import PagedMemory.Proofs.Session.Ranges
import PagedMemory.Proofs.User.Objects

namespace PagedMemory.Session

open PageTable UserRange

variable {session : Session} {low high slot : Nat} {history : List Event} {table : PageTable}

namespace Run

-- An object is found in the frame of its page if that page is mapped, and it is refused if it runs over
-- the end of the page. Its end is a word, however: an object so long that this word wraps passes for
-- one that does not leave its page. A lookup through a table that owns its nodes always has an answer,
-- any other may leave the window.
theorem locateObject_iff (hrun : Run low high session history)
    (hget : session.tables.get? slot = some table) (a size : UInt64) :
    ((ofToken table.token).locateObject a size session.kernel.machine.memory =
        .error (.objectCrossesPage size a) ↔
      4096 < a.toNat % 4096 + size.toNat ∧
        a.toNat % 4096 + size.toNat < 0x10000000000000000) ∧
    ((ofToken table.token).locateObject a size session.kernel.machine.memory =
        .error (.objectUnmapped a) ↔
      PassesEnd a size ∧
        table.translate? (pageOf a) session.kernel.machine.memory = .ok none) ∧
    ((ofToken table.token).locateObject a size session.kernel.machine.memory =
        .error .outsideWindow ↔
      PassesEnd a size ∧
        table.translate? (pageOf a) session.kernel.machine.memory = .error .outsideWindow) ∧
    (∀ pa, (ofToken table.token).locateObject a size session.kernel.machine.memory = .ok pa ↔
      PassesEnd a size ∧ ∃ entry,
        table.translate? (pageOf a) session.kernel.machine.memory = .ok (some entry) ∧
          pa.value = entry.page.number * 4096 + a.toNat % 4096) ∧
    (∀ pa, (ofToken table.token).locateObject a size session.kernel.machine.memory = .ok pa →
      a.toNat % 4096 + size.toNat ≤ 4096 → ∃ entry,
        table.translate? (pageOf a) session.kernel.machine.memory = .ok (some entry) ∧
          ∀ i < size.toNat, (pa + i).page = entry.page) ∧
    (table.owned = true → ∀ page, table.translate? page session.kernel.machine.memory = .ok none ↔
      ¬table.Maps session.kernel.machine.memory page) ∧
    (Fault.objectCrossesPage size a).message = "Typed user access crosses a page boundary" ∧
    (Fault.objectUnmapped a).message = "Translation of an unmapped user page" := by
  have hoffset : a.toNat % 4096 < 4096 := Nat.mod_lt _ (by decide)
  refine ⟨locateObject_eq_crossing_iff.trans not_passesEnd_iff, ?_, ?_, fun pa => ?_,
    fun pa hlocate hinside => ?_, fun howned page => ⟨?_, fun hnot => ?_⟩, rfl, rfl⟩
  · rw [locateObject_eq_unmapped_iff, translate?_ofToken_token]
  · rw [locateObject_eq_outsideWindow_iff, translate?_ofToken_token]
  · rw [locateObject_eq_ok_iff]
    simp only [translate?_ofToken_token]
    refine and_congr_right fun _ => exists_congr fun entry => and_congr_right fun _ => ?_
    rw [← PhysPage.value_base_add hoffset]
    exact ⟨congrArg PhysAddr.value, PhysAddr.ext_value⟩
  · obtain ⟨-, entry, hentry, rfl⟩ := locateObject_eq_ok_iff.mp hlocate
    rw [translate?_ofToken_token] at hentry
    refine ⟨entry, hentry, fun i hi => ?_⟩
    rw [PhysAddr.add_add, PhysPage.page_base_add (by omega)]
  · rintro hnone ⟨entry, hentry⟩
    cases hnone.symm.trans hentry
  · obtain ⟨free, haccounts, -⟩ := hrun.invariant
    obtain ⟨answer, hanswer⟩ := haccounts.answers hget howned page
    rw [translate?_ofToken_token] at hanswer
    cases answer with
    | none => exact hanswer
    | some entry => exact (hnot ⟨entry, hanswer⟩).elim

-- On a page that is mapped: the last eight bytes, eight bytes from the next place on, and a byte of
-- the page after it.
theorem locateObject_iff_at_page_end : ∃ session history table, Run 1 8 session history ∧
    session.tables.get? 0 = some table ∧ table.owned = true ∧
    (ofToken table.token).locateObject 0x5ff8 8 session.kernel.machine.memory =
      .ok (.ofNat 0x7ff8) ∧
    (ofToken table.token).locateObject 0x5ff9 8 session.kernel.machine.memory =
      .error (.objectCrossesPage 8 0x5ff9) ∧
    (ofToken table.token).locateObject 0x6000 1 session.kernel.machine.memory =
      .error (.objectUnmapped 0x6000) := by
  obtain ⟨session, history, table, hrun, -, -, hget, howned, htranslate⟩ :=
    exists_only_one_leaf (.ofNat 5) (.ofNat 7) ⟨2⟩
  obtain ⟨-, -, -, hlocated, -⟩ := locateObject_iff hrun hget 0x5ff8 8
  obtain ⟨hcrosses, -⟩ := locateObject_iff hrun hget 0x5ff9 8
  obtain ⟨-, hunmapped, -⟩ := locateObject_iff hrun hget 0x6000 1
  exact ⟨session, history, table, hrun, hget, howned, (hlocated _).mpr ⟨Or.inl (by decide), _,
    htranslate _, rfl⟩, hcrosses.mpr (by decide), hunmapped.mpr ⟨Or.inl (by decide), htranslate _⟩⟩

-- The end of an object that is as long as memory could be is before its start, and it is found.
theorem object_of_all_bytes_located : ∃ session history table, Run 1 8 session history ∧
    history.map Event.command =
      [.table 0 (.map (.ofNat 5) (.page (.ofNat 7)) ⟨2⟩), .table 0 .create] ∧
    session.tables.get? 0 = some table ∧ table.owned = true ∧
    4096 < (0x5001 : UInt64).toNat % 4096 + (0xffffffffffffffff : UInt64).toNat ∧
    (ofToken table.token).locateObject 0x5001 0xffffffffffffffff session.kernel.machine.memory =
      .ok (.ofNat 0x7001) := by
  obtain ⟨session, history, table, hrun, hcommands, -, hget, howned, htranslate⟩ :=
    exists_only_one_leaf (.ofNat 5) (.ofNat 7) ⟨2⟩
  have hentry : (ofToken table.token).translate? (pageOf 0x5001) session.kernel.machine.memory =
      .ok (some (.leaf (.ofNat 7) ⟨2⟩)) := translate?_ofToken_token.trans (htranslate _)
  exact ⟨session, history, table, hrun, hcommands, hget, howned, by decide,
    locateObject_eq_ok_iff.mpr ⟨Or.inr (by decide), _, hentry, rfl⟩⟩

end Run

end PagedMemory.Session
