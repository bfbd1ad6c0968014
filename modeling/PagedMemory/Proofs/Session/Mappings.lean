import PagedMemory.Proofs.Session.Progress

namespace PagedMemory.Session

variable {session : Session} {low high slot : Nat} {history : List Event} {table : PageTable}

namespace Run

-- Tables are maps. Whatever else is done, also to other tables and other pages, a page translates to
-- the frame it was last mapped to, with the flags it was mapped with, and to nothing if it was
-- unmapped since or never mapped.
theorem translate_eq_record (hrun : Run low high session history)
    (howner : ∀ event ∈ history, event.ByOwner)
    (hget : session.tables.get? slot = some table) (howned : table.owned = true) :
    (∀ page, table.translate? page session.kernel.machine.memory =
      .ok ((Event.record history slot page).map fun (frame, flags) =>
        ⟨UInt64.ofNat frame.number <<< 10 ||| flags.bits.toUInt64 ||| 1⟩)) ∧
    ∀ a : UInt64, table.translateAddr? (.ofNat a.toNat) session.kernel.machine.memory =
      .ok ((Event.record history slot (.ofNat (a.toNat % 0x8000000000 / 4096))).map fun (frame, _) =>
        .ofNat (frame.number * 4096 + a.toNat % 4096)) := by
  obtain ⟨free, haccounts, hagrees⟩ := hrun.invariant
  have hwindow := (haccounts.standing hget howned).window
  have hmapped := hagrees howner slot table hget howned
  refine ⟨fun page => ?_, fun a => ?_⟩
  · rw [PageTable.translate?_eq hwindow, hmapped page]
    cases Event.record history slot page with
    | none => rfl
    | some mapping =>
        obtain ⟨frame, flags⟩ := mapping
        rw [Option.map_some, Option.map_some, Entry.leafOf]
        exact congrArg (fun bits => Except.ok (some (Entry.mk bits))) (Entry.bits_leaf frame flags)
  · rw [PageTable.translateAddr?_eq hwindow, VirtAddr.page_ofNat, VirtAddr.offset_ofNat, hmapped]
    cases Event.record history slot (.ofNat (a.toNat % 0x8000000000 / 4096)) with
    | none => rfl
    | some mapping =>
        obtain ⟨frame, flags⟩ := mapping
        rw [Option.map_some, Option.map_some, Option.map_some, Entry.leafOf, Entry.page_leaf]
        rfl

-- A new table, in which one page is mapped.
theorem translate_eq_record_after_map : ∃ session history table,
    Run 1 8 session history ∧ (∀ event ∈ history, event.ByOwner) ∧
      session.tables.get? 0 = some table ∧ table.owned = true ∧
      table.translate? (.ofNat 5) session.kernel.machine.memory =
        .ok (some ⟨UInt64.ofNat 7 <<< 10 ||| (2 : UInt8).toUInt64 ||| 1⟩) ∧
      table.translate? (.ofNat 6) session.kernel.machine.memory = .ok none ∧
      table.translateAddr? (.ofNat (0x5123 : UInt64).toNat) session.kernel.machine.memory =
        .ok (some (.ofNat 0x7123)) := by
  obtain ⟨empty, created, session, root, nodes, hrun, -, hget, -⟩ :=
    exists_mapped (.filled 1024 0xcd) 0x1000 0x8000 rfl rfl (by decide) (by decide) (.ofNat 5)
      (fun _ => .ofNat 7) ⟨2⟩
  have howner : ∀ event ∈ [
      (⟨created, .table 0 (.map (.ofNat 5) (.page (.ofNat 7)) ⟨2⟩), .count nodes⟩ : Event),
      ⟨empty, .table 0 .create, .page root⟩], event.ByOwner := by simp [Event.ByOwner]
  obtain ⟨htranslate, haddress⟩ := translate_eq_record hrun howner hget rfl
  exact ⟨session, _, _, hrun, howner, hget, rfl, htranslate (.ofNat 5), htranslate (.ofNat 6),
    haddress 0x5123⟩

end Run

end PagedMemory.Session
