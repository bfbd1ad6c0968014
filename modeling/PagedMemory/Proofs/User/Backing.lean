import PagedMemory.Proofs.User.PageLoop

namespace PagedMemory.UserRange

variable {table : PageTable} {memory : Memory} {range : UserRange} {a start length : UInt64}

-- A range that was made: its pages are mapped, and it does not touch the last page of all.
theorem ofMapped_eq_ok (h : ofMapped table start length memory = .ok range) :
    range = ⟨table, start, start + length⟩ ∧ start ≤ start + length ∧
      (start < start + length → start + length ≤ lastPage) ∧
      ∀ a, start ≤ a → a < start + length → table.Maps memory (pageOf a) := by
  by_cases hwrap : start + length < start
  · cases h.symm.trans (ofMapped_of_wraps hwrap)
  by_cases hlast : start < start + length ∧ lastPage < start + length
  · rw [ofMapped_of_lastPage hlast.1 hlast.2] at h
    cases hchecked : checkMapped table memory VirtPage.count start <;> rw [hchecked] at h <;> cases h
  · rw [ofMapped_of_inside hwrap hlast] at h
    rcases checkMapped_cases table memory (pageCount start (start + length)) start with
      ⟨hok, hmaps⟩ | ⟨-, -, cause, -, herror, -⟩
    · rw [hok] at h
      cases h
      exact ⟨rfl, UInt64.not_lt.mp hwrap,
        fun hlt => UInt64.not_lt.mp fun hpast => hlast ⟨hlt, hpast⟩, pages_of_range.mp hmaps⟩
    · rw [herror] at h
      cases h

theorem ofMapped_of_maps (horder : start ≤ start + length)
    (hlast : start < start + length → start + length ≤ lastPage)
    (hmaps : ∀ a, start ≤ a → a < start + length → table.Maps memory (pageOf a)) :
    ofMapped table start length memory = .ok ⟨table, start, start + length⟩ := by
  rw [ofMapped_of_inside (UInt64.not_lt.mpr horder)
    fun hpast => UInt64.not_le.mpr hpast.2 (hlast hpast.1)]
  rcases checkMapped_cases table memory (pageCount start (start + length)) start with
    ⟨hok, -⟩ | ⟨i, b, cause, hi, -, hpage, hnot, -⟩
  · rw [hok]
    rfl
  · rw [hpage] at hnot
    exact (hnot (pages_of_range.mpr hmaps i hi)).elim

-- The addresses of a range, as numbers.
def Holds (range : UserRange) (n : Nat) : Prop := range.start.toNat ≤ n ∧ n < range.stop.toNat

theorem holds_toNat (hstart : range.start ≤ a) (hstop : a < range.stop) : range.Holds a.toNat :=
  ⟨UInt64.le_iff_toNat_le.mp hstart, UInt64.lt_iff_toNat_lt.mp hstop⟩

theorem exists_of_holds {n : Nat} (h : range.Holds n) :
    ∃ a : UInt64, range.start ≤ a ∧ a < range.stop ∧ a.toNat = n := by
  have hstop := range.stop.toNat_lt
  obtain ⟨hstart, hlt⟩ := h
  obtain ⟨a, rfl⟩ : ∃ a : UInt64, a.toNat = n :=
    ⟨.ofNat n, UInt64.toNat_ofNat'.trans (Nat.mod_eq_of_lt (by omega))⟩
  exact ⟨a, UInt64.le_iff_toNat_le.mpr hstart, UInt64.lt_iff_toNat_lt.mpr hlt, rfl⟩

-- A range that was made, and whose pages are mapped to frames that memory has.
structure Backed (range : UserRange) (memory : Memory) : Prop where
  last : range.start < range.stop → range.stop ≤ lastPage
  leaf : ∀ n, range.Holds n → ∃ entry,
    range.table.translate? (.ofNat (n / 4096)) memory = .ok (some entry) ∧
      entry.page.number < memory.frames

theorem backed_of_ofMapped (h : ofMapped table start length memory = .ok range)
    (hwindow : ∀ a entry, start ≤ a → a < start + length →
      table.translate? (pageOf a) memory = .ok (some entry) → entry.page.number < memory.frames) :
    range.Backed memory := by
  obtain ⟨rfl, -, hlast, hmaps⟩ := ofMapped_eq_ok h
  refine ⟨hlast, fun n hn => ?_⟩
  obtain ⟨a, hstart, hstop, rfl⟩ := exists_of_holds hn
  obtain ⟨entry, hentry⟩ := hmaps a hstart hstop
  exact ⟨entry, pageOf_eq a ▸ hentry, hwindow a entry hstart hstop hentry⟩

end PagedMemory.UserRange
