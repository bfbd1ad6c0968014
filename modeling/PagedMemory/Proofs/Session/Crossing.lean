import Mathlib.Data.List.Range
import PagedMemory.Proofs.Session.Ranges
import PagedMemory.Proofs.User.Slices

namespace PagedMemory

open Session UserRange

-- A range of bytes at the end of one page and the start of the next.
theorem Session.Run.exists_made_over_page_end (start length : UInt64)
    (hlast : start.toNat + length.toNat ≤ 0xfffffffffffff000)
    (hover : start.toNat % 4096 + length.toNat ≤ 0x2000) :
    ∃ session history table, Run 1 8 session history ∧
      history.map Event.command =
        [.table 0 (.map (.ofNat (start.toNat / 4096 + 1)) (.page (.ofNat 6)) ⟨2⟩),
          .table 0 (.map (.ofNat (start.toNat / 4096)) (.page (.ofNat 7)) ⟨2⟩), .table 0 .create] ∧
      session.tables.get? 0 = some table ∧ table.owned = true ∧
      ofMapped (.ofToken table.token) start length session.kernel.machine.memory =
        .ok ⟨.ofToken table.token, start, start + length⟩ := by
  have hne : VirtPage.ofNat (start.toNat / 4096 + 1) ≠ .ofNat (start.toNat / 4096) := fun heq => by
    have hnumber := congrArg VirtPage.number heq
    simp only [VirtPage.ofNat] at hnumber
    omega
  obtain ⟨session, history, table, hrun, hcommands, hget, howned, hmaps⟩ :=
    exists_two_pages hne
  have horder : start ≤ start + length := le_stop (by omega)
  refine ⟨session, history, table, hrun, hcommands, hget, howned,
    ofMapped_of_maps horder (fun _ => ?_) fun a hstart hstop => ?_⟩
  · rw [UInt64.le_iff_toNat_le, toNat_stop horder]
    exact hlast
  · rw [UInt64.le_iff_toNat_le] at hstart
    rw [UInt64.lt_iff_toNat_lt, toNat_stop horder] at hstop
    rw [PageTable.maps_ofToken_token, hmaps, pageOf_eq]
    obtain hpage | hpage : a.toNat / 4096 = start.toNat / 4096 + 1 ∨
        a.toNat / 4096 = start.toNat / 4096 := by omega
    · exact Or.inl (congrArg VirtPage.ofNat hpage)
    · exact Or.inr (congrArg VirtPage.ofNat hpage)

namespace UserRange

variable {table : PageTable} {memory : Memory} {range : UserRange} {a start length : UInt64}
  {first count : Nat}

-- A range goes on past the end of an address space. Its addresses are words and count on, those of
-- the space start over.
def Crosses (start length : UInt64) : Prop :=
  ∃ m, start.toNat < m * 0x8000000000 ∧ m * 0x8000000000 < start.toNat + length.toNat

-- The pages that are looked up for its slices, in their order.
def pages (range : UserRange) : List VirtPage := range.starts.map pageOf

-- So many pages from one on, the first of the space after the last.
def pagesFrom (first count : Nat) : List VirtPage :=
  (List.range count).map fun k => .ofNat (first + k)

theorem pagesFrom_succ :
    pagesFrom first (count + 1) = .ofNat first :: pagesFrom (first + 1) count := by
  rw [pagesFrom, List.range_succ_eq_map, List.map_cons, List.map_map, pagesFrom]
  refine congrArg (VirtPage.ofNat first :: ·) (List.map_congr_left fun k _ => ?_)
  rw [Function.comp_apply, Nat.add_assoc, Nat.add_comm 1 k]

-- They are in order unless the first of the space is among those after the first of them.
theorem isChain_pagesFrom :
    (pagesFrom first count).IsChain (fun page next => next.number = page.number + 1) ↔
      ∀ k, k + 1 < count → (first + k + 1) % 0x8000000 ≠ 0 := by
  rw [pagesFrom, List.isChain_map, List.isChain_range]
  simp only [VirtPage.ofNat]
  refine forall_congr' fun k => ?_
  constructor
  · intro h hk
    have hnext := h (by omega)
    omega
  · intro h hk
    have hnext := h (by omega)
    omega

-- The slices from an address on lie in consecutive pages. The induction is on the pages that are left.
theorem map_pageOf_startsFrom (hlast : range.stop ≤ lastPage)
    (hcount : pageCount a range.stop = count) :
    (range.startsFrom count a).map pageOf = pagesFrom (a.toNat / 4096) count := by
  induction count generalizing a with
  | zero => rfl
  | succ count ih =>
      have hlt := lt_of_pageCount_succ hcount
      have hnext := toNat_nextStart hlt hlast
      rw [pageCount_nextStart hlt hlast] at hcount
      have hrest := Nat.succ.inj hcount
      rw [startsFrom_succ_of_lt count hlt, List.map_cons, ih hrest, pagesFrom_succ, pageOf_eq]
      refine congrArg (VirtPage.ofNat (a.toNat / 4096) :: ·) ?_
      cases count with
      | zero => rfl
      | succ count =>
          have hmore := UInt64.lt_iff_toNat_lt.mp (lt_of_pageCount_succ hrest)
          rw [show (range.nextStart a).toNat / 4096 = a.toNat / 4096 + 1 by omega]

theorem pages_of_made (hmade : ofMapped table start length memory = .ok range) :
    range.pages = pagesFrom (start.toNat / 4096) (pageCount start (start + length)) := by
  obtain ⟨rfl, -, hlast, -⟩ := ofMapped_eq_ok hmade
  by_cases hlt : start < start + length
  · exact map_pageOf_startsFrom (hlast hlt) rfl
  · rw [pages, starts, pageCount_of_le hlt]
    rfl

-- It crosses the end of a space if one of its pages after the first is the first of the space.
theorem crosses_iff (h : start ≤ start + length) : Crosses start length ↔
    ∃ k, k + 1 < pageCount start (start + length) ∧
      (start.toNat / 4096 + k + 1) % 0x8000000 = 0 := by
  have hstop := toNat_stop h
  by_cases hlt : start < start + length
  · rw [pageCount_of_lt hlt, hstop]
    rw [UInt64.lt_iff_toNat_lt, hstop] at hlt
    constructor
    · rintro ⟨m, hbelow, habove⟩
      exact ⟨m * 0x8000000 - start.toNat / 4096 - 1, by omega, by omega⟩
    · rintro ⟨k, hk, hfirst⟩
      exact ⟨(start.toNat / 4096 + k + 1) / 0x8000000, by omega, by omega⟩
  · rw [pageCount_of_le hlt]
    rw [UInt64.lt_iff_toNat_lt, hstop] at hlt
    constructor
    · rintro ⟨m, hbelow, habove⟩
      omega
    · rintro ⟨k, hk, -⟩
      omega

theorem isChain_pages_iff (hmade : ofMapped table start length memory = .ok range) :
    range.pages.IsChain (fun page next => next.number = page.number + 1) ↔
      ¬Crosses start length := by
  obtain ⟨-, horder, -⟩ := ofMapped_eq_ok hmade
  rw [pages_of_made hmade, isChain_pagesFrom, crosses_iff horder]
  simp only [not_exists, not_and]

-- A range that was made has the pages of its addresses one after the other, and they are in order
-- unless the range crosses the end of the address space. This is nothing that it is refused for: it
-- then goes on with the first page of the space, and is made if its pages are mapped and none of them
-- is the last page of all.
theorem made_in_order_iff (token : UInt64) (memory : Memory) (start length : UInt64) :
    (∀ range, ofMapped (.ofToken token) start length memory = .ok range →
      start.toNat + length.toNat < 0x10000000000000000 ∧
      range.pages = pagesFrom (start.toNat / 4096) range.starts.length ∧
      (range.pages.IsChain (fun page next => next.number = page.number + 1) ↔
        ¬Crosses start length)) ∧
    (Crosses start length →
      ((∃ range, ofMapped (.ofToken token) start length memory = .ok range) ↔
        start.toNat + length.toNat ≤ 0xfffffffffffff000 ∧
          ∀ a, start ≤ a → a < start + length →
            (PageTable.ofToken token).Maps memory (pageOf a))) := by
  have hend : lastPage.toNat = 0xfffffffffffff000 := rfl
  refine ⟨fun range hmade => ⟨?_, ?_, isChain_pages_iff hmade⟩, fun hcrosses => ⟨?_, ?_⟩⟩
  · obtain ⟨-, horder, -⟩ := ofMapped_eq_ok hmade
    exact Nat.not_le.mp fun hwraps => UInt64.not_lt.mpr horder (wraps_iff.mpr hwraps)
  · have hlength : range.starts.length = range.pages.length := (List.length_map _).symm
    rw [hlength, pages_of_made hmade, pagesFrom, List.length_map, List.length_range, pagesFrom]
  · rintro ⟨range, hmade⟩
    obtain ⟨-, horder, hlast, hmaps⟩ := ofMapped_eq_ok hmade
    obtain ⟨m, hbelow, habove⟩ := hcrosses
    have hlt : start < start + length := by
      rw [UInt64.lt_iff_toNat_lt, toNat_stop horder]
      omega
    have hstop := UInt64.le_iff_toNat_le.mp (hlast hlt)
    rw [toNat_stop horder, hend] at hstop
    exact ⟨hstop, hmaps⟩
  · rintro ⟨hstop, hmaps⟩
    have horder : start ≤ start + length := le_stop (by omega)
    refine ⟨_, ofMapped_of_maps horder (fun _ => ?_) hmaps⟩
    rw [UInt64.le_iff_toNat_le, toNat_stop horder, hend]
    exact hstop

theorem made_in_order_iff_over_page_end : ∃ session history table range, Run 1 8 session history ∧
    session.tables.get? 0 = some table ∧ table.owned = true ∧
    ofMapped (.ofToken table.token) 0x5ff0 0x20 session.kernel.machine.memory = .ok range ∧
    ¬Crosses 0x5ff0 0x20 ∧ range.pages = [.ofNat 5, .ofNat 6] ∧
    range.pages.IsChain (fun page next => next.number = page.number + 1) := by
  obtain ⟨session, history, table, hrun, -, hget, howned, hmade⟩ :=
    Run.exists_made_over_page_end 0x5ff0 0x20 (by decide) (by decide)
  obtain ⟨hpages, -⟩ :=
    made_in_order_iff table.token session.kernel.machine.memory 0x5ff0 0x20
  obtain ⟨-, -, hchain⟩ := hpages _ hmade
  have hcrosses : ¬Crosses 0x5ff0 0x20 := by
    rintro ⟨m, hbelow, habove⟩
    rw [show (0x5ff0 : UInt64).toNat = 0x5ff0 from rfl] at hbelow habove
    rw [show (0x20 : UInt64).toNat = 0x20 from rfl] at habove
    omega
  exact ⟨session, history, table, _, hrun, hget, howned, hmade, hcrosses, pages_of_made hmade,
    hchain.mpr hcrosses⟩

-- The last bytes of the address space and the first, as one range.
theorem range_over_space_end_made : ∃ session history table range, Run 1 8 session history ∧
    history.map Event.command =
      [.table 0 (.map (.ofNat 0) (.page (.ofNat 6)) ⟨2⟩),
        .table 0 (.map (.ofNat 0x7ffffff) (.page (.ofNat 7)) ⟨2⟩), .table 0 .create] ∧
    session.tables.get? 0 = some table ∧ table.owned = true ∧ Crosses 0x7ffffffff0 0x20 ∧
    ofMapped (.ofToken table.token) 0x7ffffffff0 0x20 session.kernel.machine.memory = .ok range ∧
    range.pages = [.ofNat 0x7ffffff, .ofNat 0] ∧
    ¬range.pages.IsChain (fun page next => next.number = page.number + 1) := by
  obtain ⟨session, history, table, hrun, hcommands, hget, howned, hmade⟩ :=
    Run.exists_made_over_page_end 0x7ffffffff0 0x20 (by decide) (by decide)
  have hcrosses : Crosses 0x7ffffffff0 0x20 := ⟨1, by decide, by decide⟩
  exact ⟨session, history, table, _, hrun, hcommands, hget, howned, hcrosses, hmade,
    pages_of_made hmade, fun hchain => (isChain_pages_iff hmade).mp hchain hcrosses⟩

end UserRange

end PagedMemory
