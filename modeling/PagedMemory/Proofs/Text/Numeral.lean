import Mathlib.Data.List.Basic
import PagedMemory.Text.Digits
import PagedMemory.Text.Numeral

namespace PagedMemory

namespace Base

-- The digits from zero on.
def symbols : Base → List Char
  | .ten => "0123456789".toList
  | .sixteen => "0123456789abcdef".toList

theorem value_pos (base : Base) : 0 < base.value.toNat :=
  Nat.lt_trans Nat.zero_lt_one base.one_lt_value

end Base

namespace Numeral

variable {base : Base} {n start d : Nat} {text rest : List Char} {c : Char}

def digitValue? (base : Base) (c : Char) : Option Nat := base.symbols.idxOf? c

-- Reads digits on from a number, which the digits before them stand for.
def readOn? (base : Base) (start : Nat) (text : List Char) : Option Nat :=
  text.foldlM (fun n c => (digitValue? base c).map (base.value.toNat * n + ·)) start

-- A text is the numeral of a number if it consists of digits, these read back as the number, and no
-- zero stands before other digits.
structure IsNumeral (base : Base) (n : Nat) (text : List Char) : Prop where
  nonempty : text ≠ []
  reads : readOn? base 0 text = some n
  no_leading_zero : text.head? = some '0' → text = ['0']

-- A minus sign stands before the numerals of negative numbers, and before no others.
def IsSignedNumeral (n : Int) (text : List Char) : Prop :=
  if n < 0 then ∃ digits, text = '-' :: digits ∧ IsNumeral .ten n.natAbs digits
  else IsNumeral .ten n.natAbs text

def IsHexNumeral (n : Nat) (text : List Char) : Prop :=
  ∃ digits, text = '0' :: 'x' :: digits ∧ IsNumeral .sixteen n digits

theorem digitValue?_digitChar : ∀ d < base.value.toNat, digitValue? base d.digitChar = some d := by
  cases base <;> decide

theorem digitChar_of_digitValue? (h : digitValue? base c = some d) :
    d < base.value.toNat ∧ c = d.digitChar := by
  have hlength : base.symbols.length = base.value.toNat := by cases base <;> decide
  have hsymbols : ∀ d (hd : d < base.symbols.length), base.symbols[d] = d.digitChar := by
    cases base <;> decide
  obtain ⟨hd, hc, -⟩ := List.idxOf?_eq_some_iff.mp h
  exact ⟨hlength ▸ hd, hc.symm.trans (hsymbols d hd)⟩

theorem readOn?_append :
    readOn? base start (text ++ rest) = (readOn? base start text).bind (readOn? base · rest) :=
  List.foldlM_append ..

theorem readOn?_digitChar (h : d < base.value.toNat) :
    readOn? base start [d.digitChar] = some (base.value.toNat * start + d) := by
  rw [readOn?, List.foldlM_cons, digitValue?_digitChar d h]
  rfl

theorem readOn?_cons (h : readOn? base start (c :: rest) = some n) :
    ∃ d < base.value.toNat, c = d.digitChar ∧
      readOn? base (base.value.toNat * start + d) rest = some n := by
  rw [readOn?, List.foldlM_cons] at h
  obtain ⟨next, hnext, hrest⟩ := Option.bind_eq_some_iff.mp h
  obtain ⟨d, hd, rfl⟩ := Option.map_eq_some_iff.mp hnext
  obtain ⟨hlt, hc⟩ := digitChar_of_digitValue? hd
  exact ⟨d, hlt, hc, hrest⟩

-- Numbers are built from the digits of their numerals.
theorem digits_induction (base : Base) {motive : Nat → Prop}
    (digit : ∀ d < base.value.toNat, motive d)
    (shift : ∀ n d, n ≠ 0 → d < base.value.toNat → motive n → motive (base.value.toNat * n + d))
    (n : Nat) : motive n := by
  induction n using Nat.strongRecOn with
  | _ n ih =>
      by_cases hlt : n < base.value.toNat
      · exact digit n hlt
      · have hle := Nat.le_of_not_lt hlt
        have hquot := Nat.div_pos hle base.value_pos
        have hless := Nat.div_lt_self (Nat.lt_of_lt_of_le base.value_pos hle) base.one_lt_value
        rw [← Nat.div_add_mod n base.value.toNat]
        exact shift _ _ (Nat.ne_of_gt hquot) (Nat.mod_lt _ base.value_pos) (ih _ hless)

theorem toDigits_shift (hn : n ≠ 0) (hd : d < base.value.toNat) :
    Nat.toDigits base.value.toNat (base.value.toNat * n + d) =
      Nat.toDigits base.value.toNat n ++ [d.digitChar] := by
  rw [← Nat.toDigits_append_toDigits base.one_lt_value (Nat.pos_of_ne_zero hn) hd,
    Nat.toDigits_of_lt_base hd]

theorem readOn?_toDigits (n : Nat) :
    readOn? base 0 (Nat.toDigits base.value.toNat n) = some n := by
  induction n using digits_induction base with
  | digit d hd => rw [Nat.toDigits_of_lt_base hd, readOn?_digitChar hd, Nat.mul_zero, Nat.zero_add]
  | shift n d hn hd ih =>
      rw [toDigits_shift hn hd, readOn?_append, ih, Option.bind_some, readOn?_digitChar hd]

theorem digitChar_of_mem_toDigits (h : c ∈ Nat.toDigits base.value.toNat n) :
    ∃ d < base.value.toNat, c = d.digitChar := by
  induction n using digits_induction base with
  | digit d hd =>
      rw [Nat.toDigits_of_lt_base hd] at h
      exact ⟨d, hd, List.mem_singleton.mp h⟩
  | shift n d hn hd ih =>
      rw [toDigits_shift hn hd] at h
      rcases List.mem_append.mp h with hmem | hlast
      · exact ih hmem
      · exact ⟨d, hd, List.mem_singleton.mp hlast⟩

theorem head?_toDigits_ne (h : n ≠ 0) : (Nat.toDigits base.value.toNat n).head? ≠ some '0' := by
  induction n using digits_induction base with
  | digit d hd =>
      rw [Nat.toDigits_of_lt_base hd]
      simpa using h
  | shift n d hn hd ih =>
      rw [toDigits_shift hn hd, List.head?_append_of_ne_nil _ Nat.toDigits_ne_nil]
      exact ih hn

theorem isNumeral_toDigits (n : Nat) : IsNumeral base n (Nat.toDigits base.value.toNat n) where
  nonempty := Nat.toDigits_ne_nil
  reads := readOn?_toDigits n
  no_leading_zero hhead := by
    by_cases h : n = 0
    · rw [h, Nat.toDigits_zero]
    · exact (head?_toDigits_ne h hhead).elim

-- Digits that are read on from a number extend its own.
theorem toDigits_append_of_readOn? (hstart : start ≠ 0) (h : readOn? base start text = some n) :
    Nat.toDigits base.value.toNat start ++ text = Nat.toDigits base.value.toNat n := by
  induction text generalizing start with
  | nil =>
      cases h
      exact List.append_nil _
  | cons c rest ih =>
      obtain ⟨d, hd, rfl, hrest⟩ := readOn?_cons h
      have hscaled := Nat.mul_pos base.value_pos (Nat.pos_of_ne_zero hstart)
      rw [← ih (Nat.ne_of_gt (Nat.add_pos_left hscaled d)) hrest, toDigits_shift hstart hd,
        List.append_assoc]
      rfl

-- A number has one numeral.
theorem isNumeral_iff : IsNumeral base n text ↔ text = Nat.toDigits base.value.toNat n := by
  refine ⟨fun h => ?_, fun h => h ▸ isNumeral_toDigits n⟩
  obtain ⟨c, rest, rfl⟩ := List.exists_cons_of_ne_nil h.nonempty
  obtain ⟨d, hd, rfl, hrest⟩ := readOn?_cons h.reads
  rw [Nat.mul_zero, Nat.zero_add] at hrest
  by_cases hzero : d = 0
  · subst hzero
    cases h.no_leading_zero rfl
    cases hrest
    exact (Nat.toDigits_zero _).symm
  · rw [← toDigits_append_of_readOn? hzero hrest, Nat.toDigits_of_lt_base hd]
    rfl

theorem signed_of_neg {n : Int} (h : n < 0) : signed n = '-' :: decimal n.natAbs := by
  obtain ⟨m, rfl⟩ := Int.eq_negSucc_of_lt_zero h
  rfl

theorem signed_of_not_neg {n : Int} (h : ¬ n < 0) : signed n = decimal n.natAbs := by
  obtain ⟨m, rfl⟩ := Int.eq_ofNat_of_zero_le (Int.not_lt.mp h)
  rfl

theorem isSignedNumeral_iff {n : Int} : IsSignedNumeral n text ↔ text = signed n := by
  by_cases h : n < 0
  · rw [IsSignedNumeral, if_pos h, signed_of_neg h]
    simp only [isNumeral_iff, exists_eq_right]
    rfl
  · rw [IsSignedNumeral, if_neg h, signed_of_not_neg h]
    exact isNumeral_iff

example : signed 0 = ['0'] ∧ signed (-2147483648) = "-2147483648".toList := by decide +kernel

theorem isHexNumeral_iff : IsHexNumeral n text ↔ text = hex n := by
  simp only [IsHexNumeral, isNumeral_iff, exists_eq_right]
  rfl

example : hex 0 = "0x0".toList ∧ hex (2 ^ 64 - 1) = "0xffffffffffffffff".toList := by
  decide +kernel

-- Different numbers have different numerals.

theorem toDigits_inj {m : Nat} (h : Nat.toDigits base.value.toNat m = Nat.toDigits base.value.toNat n) :
    m = n :=
  Option.some_inj.mp ((readOn?_toDigits m).symm.trans (h ▸ readOn?_toDigits n))

theorem hex_inj {m : Nat} (h : hex m = hex n) : m = n :=
  @toDigits_inj .sixteen n m (List.cons.inj (List.cons.inj h).2).2

theorem notMem_decimal (hdigit : c.isDigit = false) : c ∉ decimal n := by
  intro h
  rw [Nat.isDigit_of_mem_toDigits (by decide) (by decide) h] at hdigit
  cases hdigit

theorem notMem_signed (hminus : c ≠ '-') (hdigit : c.isDigit = false) (n : Int) : c ∉ signed n := by
  by_cases h : n < 0
  · rw [signed_of_neg h]
    exact List.not_mem_cons_of_ne_of_not_mem hminus (notMem_decimal hdigit)
  · rw [signed_of_not_neg h]
    exact notMem_decimal hdigit

theorem signed_ofNat_ne (m n : Nat) : signed (.ofNat m) ≠ signed (.negSucc n) := by
  intro h
  refine @notMem_decimal m '-' rfl ?_
  rw [show decimal m = '-' :: decimal (n + 1) from h]
  exact List.mem_cons_self

theorem signed_inj {m n : Int} (h : signed m = signed n) : m = n := by
  cases m with
  | ofNat m =>
      cases n with
      | ofNat n => rw [@toDigits_inj .ten n m h]
      | negSucc n => exact (signed_ofNat_ne m n h).elim
  | negSucc m =>
      cases n with
      | ofNat n => exact (signed_ofNat_ne n m h.symm).elim
      | negSucc n => rw [Nat.succ_inj.mp (@toDigits_inj .ten (n + 1) (m + 1) (List.cons.inj h).2)]

end Numeral

end PagedMemory
