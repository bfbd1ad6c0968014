import PagedMemory.Proofs.Text.Numeral
import PagedMemory.Text.Format

namespace PagedMemory

namespace DigitBuffer

variable {buffer after : DigitBuffer} {place other : Nat} {c : Char} {text rest : List Char}

theorem lt_of_at? (h : buffer.at? place = some c) : place < 32 := by
  refine Nat.lt_of_not_le fun hle => ?_
  rw [at?, Vector.getElem?_eq_none hle] at h
  cases h

theorem put_of_lt (buffer : DigitBuffer) (c : Char) (h : place < 32) :
    ∃ after, buffer.put place c = some after ∧ after.at? place = some c ∧
      ∀ other ≠ place, after.at? other = buffer.at? other := by
  refine ⟨_, dif_pos h, ?_, fun other hne => ?_⟩
  · rw [at?, Vector.getElem?_set_self]
    rfl
  · rw [at?, Vector.getElem?_set_ne h (Ne.symm hne)]
    rfl

-- A text stands in the buffer from a place on.
def Shows (buffer : DigitBuffer) : Nat → List Char → Prop
  | _, [] => True
  | place, c :: rest => buffer.at? place = some c ∧ buffer.Shows (place + 1) rest

theorem shows_append :
    buffer.Shows place (text ++ rest) ↔
      buffer.Shows place text ∧ buffer.Shows (place + text.length) rest := by
  induction text generalizing place with
  | nil => exact (iff_of_eq (true_and _)).symm
  | cons c text ih =>
      rw [List.cons_append, Shows, Shows, ih, and_assoc, List.length_cons, Nat.add_right_comm]
      rfl

-- A text that stands in the buffer with its mark has room there, and is what the buffer holds.
theorem Shows.length_lt (h : buffer.Shows place (text ++ [endMark])) : place + text.length < 32 :=
  lt_of_at? (shows_append.mp h).2.1

theorem Shows.textFrom (h : buffer.Shows place (text ++ [endMark])) (hmark : endMark ∉ text) :
    buffer.textFrom place = some text := by
  induction text generalizing place with
  | nil =>
      have hplace := lt_of_at? h.1
      rw [DigitBuffer.textFrom, h.1]
      simp [hplace]
  | cons c rest ih =>
      obtain ⟨hc, hrest⟩ := List.ne_and_not_mem_of_not_mem_cons hmark
      have hplace := lt_of_at? h.1
      rw [DigitBuffer.textFrom, h.1]
      simp [hplace, hc.symm, ih h.2 hrest]

end DigitBuffer

namespace Digits

open DigitBuffer (endMark)

variable {base : Base} {n : UInt64} {start left : Nat} {buffer : DigitBuffer}

theorem digit_eq : ∀ d < base.value.toNat, digit d = d.digitChar := by
  cases base <;> decide

theorem count_zero : count base 0 = 0 := by rw [count, dif_pos rfl]

theorem count_of_ne (h : n ≠ 0) : count base n = count base (n / base.value) + 1 := by
  rw [count, dif_neg h]

-- The digits that the counting loop counts: zero has none.
def significant (base : Base) (n : UInt64) : List Char :=
  if n = 0 then [] else Nat.toDigits base.value.toNat n.toNat

theorem significant_of_ne (h : n ≠ 0) :
    significant base n =
      significant base (n / base.value) ++ [digit (n % base.value).toNat] := by
  have hlt := Nat.mod_lt n.toNat base.value_pos
  have hquot : n / base.value = 0 ↔ n.toNat / base.value.toNat = 0 := by
    rw [← UInt64.toNat_inj, UInt64.toNat_div]
    rfl
  rw [significant, if_neg h, significant, UInt64.toNat_mod, UInt64.toNat_div, digit_eq _ hlt]
  split
  · have hsmall := (Nat.div_eq_zero_iff_lt base.value_pos).mp (hquot.mp ‹_›)
    rw [Nat.toDigits_of_lt_base hsmall, Nat.mod_eq_of_lt hsmall]
    rfl
  · rw [← Numeral.toDigits_shift (mt hquot.mpr ‹_›) hlt, Nat.div_add_mod]

theorem length_significant (base : Base) (n : UInt64) :
    (significant base n).length = count base n := by
  fun_induction count base n with
  | case1 => rfl
  | case2 n h _ ih => rw [significant_of_ne h, List.length_append, ih, List.length_singleton]

-- A word has at most twenty digits.
theorem count_le (base : Base) (n : UInt64) : count base n ≤ 20 := by
  rw [← length_significant, significant]
  split
  · exact Nat.zero_le _
  · refine (Nat.length_toDigits_le_iff base.one_lt_value (by decide)).mpr ?_
    refine Nat.lt_of_lt_of_le n.toNat_lt ?_
    cases base <;> decide

-- The two loops agree: as many places are filled as digits were counted, from the last to the first.
theorem putDigits_shows (hcount : count base n = left) (hroom : start + left ≤ 32) :
    ∃ after, putDigits base start left n buffer = some after ∧
      after.Shows start (significant base n) ∧
      ∀ place, place < start ∨ start + left ≤ place → after.at? place = buffer.at? place := by
  induction left generalizing n buffer with
  | zero =>
      have hzero : n = 0 := by
        by_contra h
        rw [count_of_ne h] at hcount
        exact Nat.succ_ne_zero _ hcount
      exact ⟨buffer, by rw [putDigits, if_pos hzero], by rw [significant, if_pos hzero]; trivial,
        fun _ _ => rfl⟩
  | succ left ih =>
      have hne : n ≠ 0 := by
        rintro rfl
        rw [count_zero] at hcount
        exact Nat.succ_ne_zero _ hcount.symm
      have hquot : count base (n / base.value) = left := by
        rw [count_of_ne hne] at hcount
        exact Nat.succ_inj.mp hcount
      obtain ⟨written, hput, hlast, hothers⟩ :=
        buffer.put_of_lt (digit (n % base.value).toNat) (show start + left < 32 by omega)
      obtain ⟨after, hrest, hshows, houtside⟩ := @ih _ written hquot (by omega)
      refine ⟨after, ?_, ?_, fun place houter => ?_⟩
      · rw [putDigits, if_neg hne, hput]
        exact hrest
      · rw [significant_of_ne hne, DigitBuffer.shows_append, length_significant, hquot]
        exact ⟨hshows, (houtside _ (Or.inr (Nat.le_refl _))).trans hlast, trivial⟩
      · rw [houtside place (by omega), hothers place (by omega)]

theorem putUnsigned_of_ne (h : n ≠ 0) :
    putUnsigned base n start buffer =
      (buffer.put (start + count base n) endMark).bind
        (putDigits base start (count base n) n) :=
  if_neg h

-- A word, and the mark that ends it, always fit, also after a minus sign.
theorem putUnsigned_shows (base : Base) (n : UInt64) (buffer : DigitBuffer) (hstart : start ≤ 1) :
    ∃ after, putUnsigned base n start buffer = some after ∧
      after.Shows start (Nat.toDigits base.value.toNat n.toNat ++ [endMark]) ∧
      ∀ place < start, after.at? place = buffer.at? place := by
  by_cases hzero : n = 0
  · subst hzero
    obtain ⟨first, hfirst, hdigit, hkept⟩ := buffer.put_of_lt '0' (show start < 32 by omega)
    obtain ⟨after, hafter, hmark, hkept'⟩ := first.put_of_lt endMark (show start + 1 < 32 by omega)
    refine ⟨after, ?_, ?_, fun place hlt => ?_⟩
    · rw [putUnsigned, if_pos rfl, hfirst]
      exact hafter
    · rw [show (0 : UInt64).toNat = 0 from rfl, Nat.toDigits_zero]
      exact ⟨(hkept' _ (by omega)).trans hdigit, hmark, trivial⟩
    · rw [hkept' _ (by omega), hkept _ (by omega)]
  · have hcount := count_le base n
    have hsignificant : significant base n = Nat.toDigits base.value.toNat n.toNat := if_neg hzero
    obtain ⟨marked, hput, hmark, hkept⟩ :=
      buffer.put_of_lt endMark (show start + count base n < 32 by omega)
    obtain ⟨after, hafter, hshows, hkept'⟩ :=
      @putDigits_shows base n start _ marked rfl (by omega)
    refine ⟨after, ?_, ?_, fun place hlt => ?_⟩
    · rw [putUnsigned_of_ne hzero, hput]
      exact hafter
    · rw [← hsignificant, DigitBuffer.shows_append, length_significant]
      exact ⟨hshows, (hkept' _ (Or.inr (Nat.le_refl _))).trans hmark, trivial⟩
    · rw [hkept' _ (Or.inl hlt), hkept _ (by omega)]

theorem neg_iff {n : Int64} : n < 0 ↔ n.toInt < 0 := Int64.lt_iff_toInt_lt

-- The word of a number is the number, or one turn of a word above it.
theorem toUInt64_cases (n : Int64) :
    (0 ≤ n.toInt ∧ n.toUInt64.toNat = n.toInt) ∨
      n.toInt < 0 ∧ 0 < n.toUInt64.toNat ∧ n.toUInt64.toNat = n.toInt + UInt64.size := by
  have hword : n.toUInt64.toNat < 18446744073709551616 := n.toUInt64.toNat_lt
  have htoInt : n.toInt = if 2 * n.toUInt64.toNat < 18446744073709551616
      then (n.toUInt64.toNat : Int) else n.toUInt64.toNat - 18446744073709551616 :=
    BitVec.toInt_eq_toNat_cond n.toBitVec
  rw [show (UInt64.size : Int) = 18446744073709551616 from rfl]
  split at htoInt <;> omega

-- The distance from zero of the least number is a word, although it is not a signed number.
theorem toNat_zero_sub {n : Int64} (h : n.toInt < 0) :
    (0 - n.toUInt64).toNat = n.toInt.natAbs := by
  obtain ⟨hpos, -⟩ | ⟨-, hpos, hword⟩ := toUInt64_cases n
  · exact (Int.not_lt.mpr hpos h).elim
  · rw [show (UInt64.size : Int) = 18446744073709551616 from rfl] at hword
    have hless : 18446744073709551616 - n.toUInt64.toNat < 18446744073709551616 :=
      Nat.sub_lt (by decide) hpos
    rw [UInt64.toNat_sub, UInt64.toNat_zero, Nat.add_zero, Nat.mod_eq_of_lt hless]
    omega

theorem toNat_toUInt64 {n : Int64} (h : ¬n.toInt < 0) : n.toUInt64.toNat = n.toInt.natAbs := by
  obtain ⟨-, hword⟩ | ⟨hneg, -⟩ := toUInt64_cases n
  · rw [← hword]
    rfl
  · exact (h hneg).elim

theorem putSigned_shows (n : Int64) (buffer : DigitBuffer) :
    ∃ after, putSigned .ten n buffer = some after ∧
      after.Shows 0 (Numeral.signed n.toInt ++ [endMark]) := by
  by_cases h : n.toInt < 0
  · obtain ⟨signed, hsigned, hsign, -⟩ := buffer.put_of_lt '-' (show 0 < 32 by decide)
    obtain ⟨after, hafter, hshows, hkept⟩ :=
      putUnsigned_shows .ten (0 - n.toUInt64) signed (Nat.le_refl 1)
    refine ⟨after, ?_, ?_⟩
    · rw [putSigned, if_pos (neg_iff.mpr h), hsigned]
      exact hafter
    · rw [toNat_zero_sub h] at hshows
      rw [Numeral.signed_of_neg h]
      exact ⟨(hkept 0 Nat.zero_lt_one).trans hsign, hshows⟩
  · obtain ⟨after, hafter, hshows, -⟩ := putUnsigned_shows .ten n.toUInt64 buffer (Nat.zero_le 1)
    refine ⟨after, ?_, ?_⟩
    · rw [putSigned, if_neg (mt neg_iff.mp h)]
      exact hafter
    · rw [toNat_toUInt64 h] at hshows
      rw [Numeral.signed_of_not_neg h]
      exact hshows

theorem endMark_notMem (base : Base) (n : Nat) : endMark ∉ Nat.toDigits base.value.toNat n := by
  have hdigits : ∀ d < base.value.toNat, endMark ≠ d.digitChar := by cases base <;> decide
  intro h
  obtain ⟨d, hd, heq⟩ := Numeral.digitChar_of_mem_toDigits h
  exact hdigits d hd heq

theorem unsigned_eq (base : Base) (n : UInt64) :
    unsigned base n = some (Nat.toDigits base.value.toNat n.toNat) := by
  obtain ⟨after, hafter, hshows, -⟩ := putUnsigned_shows base n .blank (Nat.zero_le 1)
  rw [unsigned, hafter]
  exact hshows.textFrom (endMark_notMem base n.toNat)

theorem signed_eq (n : Int64) : signed .ten n = some (Numeral.signed n.toInt) := by
  obtain ⟨after, hafter, hshows⟩ := putSigned_shows n .blank
  rw [signed, hafter]
  exact hshows.textFrom (Numeral.notMem_signed (by decide) rfl n.toInt)

end Digits

namespace Format

open Numeral

-- What fields write for arguments of their kind.

theorem write?_int (v : Int32) : Arg.write? .signed false (.int v) = some (signed v.toInt) := by
  rw [Arg.write?, Digits.signed_eq, Int32.toInt_toInt64]

theorem write?_wideInt (v : Int64) : Arg.write? .signed true (.wideInt v) = some (signed v.toInt) :=
  Digits.signed_eq v

theorem write?_word (v : UInt32) : Arg.write? .unsigned false (.word v) = some (decimal v.toNat) := by
  rw [Arg.write?, Digits.unsigned_eq, UInt32.toNat_toUInt64]
  rfl

theorem write?_wideWord (v : UInt64) :
    Arg.write? .unsigned true (.wideWord v) = some (decimal v.toNat) :=
  Digits.unsigned_eq .ten v

theorem write?_hex_word (v : UInt32) : Arg.write? .hex false (.word v) = some (hex v.toNat) := by
  rw [Arg.write?, Digits.unsigned_eq, UInt32.toNat_toUInt64]
  rfl

theorem write?_hex_wideWord (v : UInt64) :
    Arg.write? .hex true (.wideWord v) = some (hex v.toNat) := by
  rw [Arg.write?, Digits.unsigned_eq]
  rfl

end Format

end PagedMemory
