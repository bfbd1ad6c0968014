import PagedMemory.Proofs.Table.Lookup
import PagedMemory.User.Range

namespace PagedMemory

-- A table looks up every page without leaving the window.
def PageTable.Answers (table : PageTable) (memory : Memory) : Prop :=
  ∀ page, ∃ entry?, table.translate? page memory = .ok entry?

def PageTable.Maps (table : PageTable) (memory : Memory) (page : VirtPage) : Prop :=
  ∃ entry, table.translate? page memory = .ok (some entry)

-- The leaf is found, and it is valid.
theorem PageTable.maps_iff_found {table : PageTable} {memory : Memory} {page : VirtPage} :
    table.Maps memory page ↔ ∃ slot, table.find? page memory = .ok (some slot) ∧
      (memory.entry slot).isValid = true := by
  constructor
  · rintro ⟨entry, h⟩
    rw [translate?] at h
    cases hfind : table.find? page memory with
    | error cause =>
        rw [hfind] at h
        cases h
    | ok slot? =>
        rw [hfind] at h
        cases slot? with
        | none => cases h
        | some slot =>
            refine ⟨slot, rfl, ?_⟩
            by_contra hvalid
            cases h.symm.trans (congrArg Except.ok (if_neg hvalid))
  · rintro ⟨slot, hfind, hvalid⟩
    refine ⟨memory.entry slot, ?_⟩
    rw [translate?, hfind]
    exact congrArg Except.ok (if_pos hvalid)

namespace UserRange

variable {table : PageTable} {memory : Memory} {a start stop : UInt64} {count i : Nat}

-- Addresses that share a page, and the page after it.

theorem pageOf_eq (a : UInt64) : pageOf a = .ofNat (a.toNat / 4096) :=
  VirtAddr.page_ofNat_div a.toNat

theorem toNat_pageEnd (a : UInt64) :
    (pageEnd a).toNat = (a.toNat / 4096 + 1) * 4096 % 0x10000000000000000 := by
  have ha := a.toNat_lt
  have hsize : (4096 : UInt64).toNat = 4096 := rfl
  simp only [pageEnd, UInt64.toNat_add, UInt64.toNat_mul, UInt64.toNat_div, hsize]
  omega

theorem ofNat_pageEnd_add (a : UInt64) (i : Nat) :
    VirtPage.ofNat ((pageEnd a).toNat / 4096 + i) = .ofNat (a.toNat / 4096 + (i + 1)) := by
  rw [toNat_pageEnd]
  simp only [VirtPage.ofNat, VirtPage.mk.injEq]
  omega

-- Only the page after the last one starts below an address that lies on the last.
theorem pageEnd_le_lastPage (a : UInt64) : pageEnd a ≤ lastPage := by
  have ha := toNat_pageEnd a
  have hlast : lastPage.toNat = 0xfffffffffffff000 := rfl
  rw [UInt64.le_iff_toNat_le, hlast, ha]
  omega

theorem toNat_pageEnd_of_lt (hlt : a < stop) (hlast : stop ≤ lastPage) :
    (pageEnd a).toNat = (a.toNat / 4096 + 1) * 4096 := by
  have hend : lastPage.toNat = 0xfffffffffffff000 := rfl
  rw [UInt64.lt_iff_toNat_lt] at hlt
  rw [UInt64.le_iff_toNat_le, hend] at hlast
  rw [toNat_pageEnd]
  omega

theorem pageCount_of_le (h : ¬a < stop) : pageCount a stop = 0 := if_neg h

theorem pageCount_of_lt (h : a < stop) :
    pageCount a stop = (stop.toNat - 1) / 4096 - a.toNat / 4096 + 1 := if_pos h

theorem lt_of_pageCount_succ (h : pageCount a stop = count + 1) : a < stop := by
  by_contra hnot
  rw [pageCount_of_le hnot] at h
  cases h

theorem le_of_pageCount_zero (h : pageCount a stop = 0) : stop ≤ a := by
  by_contra hnot
  rw [pageCount_of_lt (UInt64.not_le.mp hnot)] at h
  cases h

-- The pages that are tried are those of the range.

theorem pageCount_pageEnd (hlt : a < stop) (hlast : stop ≤ lastPage) :
    pageCount a stop = pageCount (pageEnd a) stop + 1 := by
  have hend := toNat_pageEnd_of_lt hlt hlast
  rw [pageCount_of_lt hlt]
  rw [UInt64.lt_iff_toNat_lt] at hlt
  by_cases hnext : pageEnd a < stop
  · rw [pageCount_of_lt hnext, hend]
    rw [UInt64.lt_iff_toNat_lt, hend] at hnext
    omega
  · rw [pageCount_of_le hnext]
    rw [UInt64.lt_iff_toNat_lt, hend] at hnext
    omega

theorem exists_address (hi : i < pageCount start stop) :
    ∃ a, start ≤ a ∧ a < stop ∧ pageOf a = .ofNat (start.toNat / 4096 + i) := by
  by_cases hlt : start < stop
  · rw [pageCount_of_lt hlt] at hi
    have hstop := stop.toNat_lt
    rw [UInt64.lt_iff_toNat_lt] at hlt
    cases i with
    | zero => exact ⟨start, UInt64.le_refl _, UInt64.lt_iff_toNat_lt.mpr hlt, pageOf_eq start⟩
    | succ i =>
        obtain ⟨a, ha⟩ : ∃ a : UInt64, a.toNat = (start.toNat / 4096 + (i + 1)) * 4096 :=
          ⟨.ofNat _, UInt64.toNat_ofNat'.trans (Nat.mod_eq_of_lt (by omega))⟩
        refine ⟨a, ?_, ?_, (pageOf_eq a).trans (congrArg VirtPage.ofNat ?_)⟩
        · rw [UInt64.le_iff_toNat_le, ha]
          omega
        · rw [UInt64.lt_iff_toNat_lt, ha]
          omega
        · rw [ha]
          omega
  · rw [pageCount_of_le hlt] at hi
    cases hi

theorem pages_of_range {p : VirtPage → Prop} :
    (∀ i < pageCount start stop, p (.ofNat (start.toNat / 4096 + i))) ↔
      ∀ a, start ≤ a → a < stop → p (pageOf a) := by
  constructor
  · intro h a hstart hstop
    have hlt : start < stop := UInt64.lt_of_le_of_lt hstart hstop
    rw [UInt64.le_iff_toNat_le] at hstart
    rw [UInt64.lt_iff_toNat_lt] at hstop
    have ha := h (a.toNat / 4096 - start.toNat / 4096) (by rw [pageCount_of_lt hlt]; omega)
    rwa [Nat.add_sub_cancel' (Nat.div_le_div_right hstart), ← pageOf_eq] at ha
  · intro h i hi
    obtain ⟨a, hstart, hstop, hpage⟩ := exists_address hi
    exact hpage ▸ h a hstart hstop

-- As many pages as there are, from any page on, are all pages.
theorem pages_of_space {p : VirtPage → Prop} (n : Nat) :
    (∀ i < VirtPage.count, p (.ofNat (n + i))) ↔ ∀ page, p page := by
  have hcount : VirtPage.count = 0x8000000 := rfl
  refine ⟨fun h page => ?_, fun h i _ => h _⟩
  have hlt := page.isLt
  have hpage := h ((page.number + (0x8000000 - n % 0x8000000)) % 0x8000000) (by omega)
  have heq : VirtPage.ofNat (n + (page.number + (0x8000000 - n % 0x8000000)) % 0x8000000) = page := by
    obtain ⟨number, hnumber⟩ := page
    simp only [VirtPage.ofNat, VirtPage.mk.injEq]
    omega
  rwa [heq] at hpage

-- The test of all pages of a range.

theorem checkMapped_succ_of_maps {entry : Entry}
    (h : table.translate? (pageOf a) memory = .ok (some entry)) :
    checkMapped table memory (count + 1) a = checkMapped table memory count (pageEnd a) := by
  rw [checkMapped, h]
  rfl

theorem checkMapped_succ_of_unmapped (h : table.translate? (pageOf a) memory = .ok none) :
    checkMapped table memory (count + 1) a = .error (.pageUnmapped a) := by
  rw [checkMapped, h]
  rfl

theorem checkMapped_succ_of_not_maps (count : Nat) (h : ¬table.Maps memory (pageOf a)) :
    ∃ cause, checkMapped table memory (count + 1) a = .error cause ∧
      (table.Answers memory → cause = .pageUnmapped a) := by
  cases hlookup : table.translate? (pageOf a) memory with
  | error cause =>
      refine ⟨cause, ?_, fun hanswers => ?_⟩
      · rw [checkMapped, hlookup]
        rfl
      · obtain ⟨answer, hanswer⟩ := hanswers (pageOf a)
        cases hlookup.symm.trans hanswer
  | ok entry? =>
      cases entry? with
      | none => exact ⟨_, checkMapped_succ_of_unmapped hlookup, fun _ => rfl⟩
      | some entry => exact (h ⟨entry, hlookup⟩).elim

-- It is passed if they are mapped, and stops at the first that is not.
theorem checkMapped_cases (table : PageTable) (memory : Memory) (count : Nat) (a : UInt64) :
    (checkMapped table memory count a = .ok () ∧
        ∀ i < count, table.Maps memory (.ofNat (a.toNat / 4096 + i))) ∨
      ∃ i b cause, i < count ∧ checkMapped table memory count a = .error cause ∧
        pageOf b = .ofNat (a.toNat / 4096 + i) ∧ ¬table.Maps memory (pageOf b) ∧
        (table.Answers memory → cause = .pageUnmapped b) ∧
        ∀ j < i, table.Maps memory (.ofNat (a.toNat / 4096 + j)) := by
  induction count generalizing a with
  | zero => exact Or.inl ⟨rfl, fun i hi => absurd hi (Nat.not_lt_zero i)⟩
  | succ count ih =>
      by_cases hmaps : table.Maps memory (pageOf a)
      · obtain ⟨entry, hlookup⟩ := hmaps
        have hfirst : ∀ n, (∀ j < n, table.Maps memory (.ofNat ((pageEnd a).toNat / 4096 + j))) →
            ∀ j < n + 1, table.Maps memory (.ofNat (a.toNat / 4096 + j)) := by
          intro n hrest j hj
          cases j with
          | zero => exact ⟨entry, pageOf_eq a ▸ hlookup⟩
          | succ j => exact ofNat_pageEnd_add a j ▸ hrest j (Nat.lt_of_succ_lt_succ hj)
        rw [checkMapped_succ_of_maps hlookup]
        rcases ih (pageEnd a) with
          ⟨hok, hrest⟩ | ⟨i, b, cause, hi, herror, hpage, hnot, hcause, hrest⟩
        · exact Or.inl ⟨hok, hfirst count hrest⟩
        · exact Or.inr ⟨i + 1, b, cause, Nat.succ_lt_succ hi, herror,
            hpage.trans (ofNat_pageEnd_add a i), hnot, hcause, hfirst i hrest⟩
      · obtain ⟨cause, herror, hcause⟩ := checkMapped_succ_of_not_maps count hmaps
        exact Or.inr ⟨0, a, cause, Nat.succ_pos count, herror, pageOf_eq a, hmaps, hcause,
          fun j hj => absurd hj (Nat.not_lt_zero j)⟩

end UserRange

end PagedMemory
