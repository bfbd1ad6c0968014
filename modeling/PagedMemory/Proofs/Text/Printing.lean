import PagedMemory.Proofs.Text.Scanner

namespace PagedMemory.Format

open Numeral

variable {α : Type} {format closed g h : List Char} {args a b : List Arg} {conversion : Conversion}
  {wide : Bool}

-- A format that is one field writes every argument as the one text that stands for its value, and no
-- two arguments as the same text.
structure Faithful (format : String) (value : α → Arg) (standsFor : α → List Char → Prop) : Prop where
  exact_text : ∀ a, ∃ text, print format.toList [value a] = some text ∧
    ∀ other, standsFor a other ↔ other = text
  distinct : ∀ a b, print format.toList [value a] = print format.toList [value b] → a = b

-- A format that is one field writes what the field writes for its argument.
theorem print_of_directive {format : String} {letter : Char} {arg : Arg} {text : List Char}
    (hformat : ∀ args, print format.toList args =
      (directive wide letter args).bind fun (text, args) => (print [] args).map (text ++ ·))
    (hletter : Conversion.ofLetter? letter = some conversion)
    (hwrite : arg.write? conversion wide = some text) : print format.toList [arg] = some text := by
  rw [hformat, directive_cons hletter, hwrite]
  exact congrArg some (List.append_nil text)

theorem Faithful.of_directive {format : String} {value : α → Arg} {standsFor : α → List Char → Prop}
    (letter : Char) (text : α → List Char)
    (hformat : ∀ args, print format.toList args =
      (directive wide letter args).bind fun (text, args) => (print [] args).map (text ++ ·))
    (hletter : Conversion.ofLetter? letter = some conversion)
    (hwrite : ∀ a, (value a).write? conversion wide = some (text a))
    (hiff : ∀ a other, standsFor a other ↔ other = text a)
    (hinj : ∀ a b, text a = text b → a = b) : Faithful format value standsFor := by
  have hprint : ∀ a, print format.toList [value a] = some (text a) := fun a =>
    print_of_directive hformat hletter (hwrite a)
  refine ⟨fun a => ⟨text a, hprint a, hiff a⟩, fun a b h => hinj a b (Option.some_inj.mp ?_)⟩
  rw [← hprint, ← hprint, h]

-- Numbers are written as their numerals, whatever was in the buffer, and nothing is ever written
-- outside of it.
theorem numbers_are_faithful :
    Faithful "%d" .int (fun n => IsSignedNumeral n.toInt) ∧
    Faithful "%ld" .wideInt (fun n => IsSignedNumeral n.toInt) ∧
    Faithful "%u" .word (fun n => IsNumeral .ten n.toNat) ∧
    Faithful "%lu" .wideWord (fun n => IsNumeral .ten n.toNat) ∧
    Faithful "%x" .word (fun n => IsHexNumeral n.toNat) ∧
    Faithful "%lx" .wideWord (fun n => IsHexNumeral n.toNat) ∧
    (∀ base n buffer, ∃ after text, Digits.putUnsigned base n 0 buffer = some after ∧
      after.textFrom 0 = some text ∧ IsNumeral base n.toNat text ∧ text.length + 1 ≤ 32) ∧
    ∀ n buffer, ∃ after text, Digits.putSigned .ten n buffer = some after ∧
      after.textFrom 0 = some text ∧ IsSignedNumeral n.toInt text ∧ text.length + 1 ≤ 32 := by
  refine ⟨?_, ?_, ?_, ?_, ?_, ?_, fun base n buffer => ?_, fun n buffer => ?_⟩
  · exact .of_directive 'd' _ (fun _ => rfl) rfl write?_int (fun _ _ => isSignedNumeral_iff)
      fun _ _ h => Int32.toInt_inj.mp (signed_inj h)
  · exact .of_directive 'd' _ (fun _ => rfl) rfl write?_wideInt (fun _ _ => isSignedNumeral_iff)
      fun _ _ h => Int64.toInt_inj.mp (signed_inj h)
  · exact .of_directive 'u' _ (fun _ => rfl) rfl write?_word (fun _ _ => isNumeral_iff)
      fun _ _ h => UInt32.toNat_inj.mp (@toDigits_inj .ten _ _ h)
  · exact .of_directive 'u' _ (fun _ => rfl) rfl write?_wideWord (fun _ _ => isNumeral_iff)
      fun _ _ h => UInt64.toNat_inj.mp (@toDigits_inj .ten _ _ h)
  · exact .of_directive 'x' _ (fun _ => rfl) rfl write?_hex_word (fun _ _ => isHexNumeral_iff)
      fun _ _ h => UInt32.toNat_inj.mp (hex_inj h)
  · exact .of_directive 'x' _ (fun _ => rfl) rfl write?_hex_wideWord (fun _ _ => isHexNumeral_iff)
      fun _ _ h => UInt64.toNat_inj.mp (hex_inj h)
  · obtain ⟨after, hafter, hshows, -⟩ := Digits.putUnsigned_shows base n buffer (Nat.zero_le 1)
    have hlength := hshows.length_lt
    rw [Nat.zero_add] at hlength
    exact ⟨after, _, hafter, hshows.textFrom (Digits.endMark_notMem base _),
      isNumeral_toDigits _, hlength⟩
  · obtain ⟨after, hafter, hshows⟩ := Digits.putSigned_shows n buffer
    have hlength := hshows.length_lt
    rw [Nat.zero_add] at hlength
    exact ⟨after, _, hafter, hshows.textFrom (notMem_signed (by decide) rfl _),
      isSignedNumeral_iff.mpr rfl, hlength⟩

-- The least numbers and the greatest word.
example : print "%d %ld %lx".toList [.int (-2147483648), .wideInt (-9223372036854775808),
    .wideWord 18446744073709551615] =
      some "-2147483648 -9223372036854775808 0xffffffffffffffff".toList := by
  decide +kernel

-- What follows a format that is closed is read as if it stood alone.
theorem print_append (hg : Closed g) (ha : Matches g a) (hb : Matches h b) :
    ∃ s t, print g a = some s ∧ print h b = some t ∧ print (g ++ h) (a ++ b) = some (s ++ t) := by
  obtain ⟨s, hs, hreadg⟩ := ha.exists_print
  obtain ⟨t, ht, hreadh⟩ := hb.exists_print
  refine ⟨s, t, hs, ht, ?_⟩
  have hlast := hreadh [] ([] ++ s)
  rw [List.append_nil] at hlast
  rw [print_eq_readAll, Cursor.readAll_append, hreadg, Option.bind_some,
    show Progress.outside.after g = .outside from hg, hlast]
  rfl

theorem print_of_no_mark (h : '%' ∉ format) (args : List Arg) : print format args = some format := by
  have hread : ∀ before,
      Cursor.readAll ⟨.outside, args, before⟩ format = some ⟨.outside, args, before ++ format⟩ := by
    induction format with
    | nil => exact fun before => by rw [List.append_nil]; rfl
    | cons c rest ih =>
        obtain ⟨hc, hrest⟩ := List.ne_and_not_mem_of_not_mem_cons h
        intro before
        rw [Cursor.readAll_cons, Cursor.read_literal hc.symm, Option.bind_some, ih hrest,
          List.append_assoc]
        rfl
  rw [print_eq_readAll, hread]
  rfl

theorem print_text (v : List Char) : print "%s".toList [.text v] = some v :=
  congrArg some (List.append_nil v)

theorem matches_text (v : List Char) : Matches "%s".toList [.text v] := .cons (.text v false) .nil

-- A text is printed as it is, wherever its field stands.
theorem print_text_between (hg : Closed g) (ha : Matches g a) (hb : Matches h b) (v : List Char) :
    ∃ s t, print g a = some s ∧ print h b = some t ∧
      print (g ++ "%s".toList ++ h) (a ++ .text v :: b) = some (s ++ v ++ t) := by
  have hfield : Closed "%s".toList := rfl
  obtain ⟨s, v', hs, hv, hfirst⟩ := print_append hg ha (matches_text v)
  obtain ⟨sv, t, hsv, ht, hall⟩ := print_append (hg.append hfield) (ha.append hg (matches_text v)) hb
  cases (print_text v).symm.trans hv
  cases hfirst.symm.trans hsv
  refine ⟨s, t, hs, ht, ?_⟩
  rw [← hall, List.append_assoc a]
  rfl

-- The two ways in which a format can end inside of a directive.
inductive OpenEnd : List Char → Prop where
  | mark : OpenEnd ['%']
  | width : OpenEnd ['%', 'l']

namespace Progress

variable {progress : Progress} {c : Char} {text : List Char}

theorem of_next_eq_afterMark (h : progress.next c = .afterMark) :
    progress = .outside ∧ c = '%' := by
  cases progress with
  | outside =>
      refine ⟨rfl, by_contra fun hc => ?_⟩
      cases (if_neg hc).symm.trans h
  | afterMark => rw [next] at h; split at h <;> cases h
  | afterWidth => cases h

theorem of_next_eq_afterWidth (h : progress.next c = .afterWidth) :
    progress = .afterMark ∧ c = 'l' := by
  cases progress with
  | outside => rw [next] at h; split at h <;> cases h
  | afterMark =>
      refine ⟨rfl, by_contra fun hc => ?_⟩
      cases (if_neg hc).symm.trans h
  | afterWidth => cases h

theorem after_concat (text : List Char) (c : Char) :
    progress.after (text ++ [c]) = (progress.after text).next c := after_append text

theorem exists_mark (h : Progress.outside.after text = .afterMark) :
    ∃ closed, text = closed ++ ['%'] ∧ Closed closed := by
  rcases List.eq_nil_or_concat text with rfl | ⟨closed, c, rfl⟩
  · cases h
  · rw [List.concat_eq_append, after_concat] at h
    obtain ⟨hclosed, rfl⟩ := of_next_eq_afterMark h
    exact ⟨closed, List.concat_eq_append, hclosed⟩

theorem exists_width (h : Progress.outside.after text = .afterWidth) :
    ∃ closed, text = closed ++ ['%', 'l'] ∧ Closed closed := by
  rcases List.eq_nil_or_concat text with rfl | ⟨front, c, rfl⟩
  · cases h
  · rw [List.concat_eq_append, after_concat] at h
    obtain ⟨hmark, rfl⟩ := of_next_eq_afterWidth h
    obtain ⟨closed, rfl, hclosed⟩ := exists_mark hmark
    exact ⟨closed, by rw [List.concat_eq_append, List.append_assoc]; rfl, hclosed⟩

end Progress

theorem exists_openEnd (h : ¬Closed format) :
    ∃ closed tail, format = closed ++ tail ∧ Closed closed ∧ OpenEnd tail := by
  cases hafter : Progress.outside.after format with
  | outside => exact (h hafter).elim
  | afterMark =>
      obtain ⟨closed, hformat, hclosed⟩ := Progress.exists_mark hafter
      exact ⟨closed, _, hformat, hclosed, .mark⟩
  | afterWidth =>
      obtain ⟨closed, hformat, hclosed⟩ := Progress.exists_width hafter
      exact ⟨closed, _, hformat, hclosed, .width⟩

-- Nothing that goes on into the open directive is closed.
theorem OpenEnd.prefix_eq_nil {tail rest : List Char} (h : OpenEnd tail) (hrest : rest <+: tail)
    (hclosed : Closed rest) : rest = [] := by
  cases h with
  | mark =>
      rcases List.prefix_cons_iff.mp hrest with rfl | ⟨later, rfl, hlater⟩
      · rfl
      · cases List.prefix_nil.mp hlater
        cases hclosed
  | width =>
      rcases List.prefix_cons_iff.mp hrest with rfl | ⟨later, rfl, hlater⟩
      · rfl
      · rcases List.prefix_cons_iff.mp hlater with rfl | ⟨last, rfl, hlast⟩
        · cases hclosed
        · cases List.prefix_nil.mp hlast
          cases hclosed

theorem OpenEnd.longest {tail other : List Char} (h : OpenEnd tail) (hclosed : Closed closed)
    (hother : other <+: closed ++ tail) (hends : Closed other) : other <+: closed := by
  rcases List.prefix_or_prefix_of_prefix hother (List.prefix_append closed tail) with hle | hle
  · exact hle
  · obtain ⟨rest, rfl⟩ := hle
    rw [List.prefix_append_right_inj] at hother
    rw [Closed, Progress.after_append, hclosed] at hends
    have hrest := h.prefix_eq_nil hother hends
    subst hrest
    simp

theorem OpenEnd.print_append {tail : List Char} (h : OpenEnd tail) (hclosed : Closed closed)
    (args : List Arg) : print (closed ++ tail) args = print closed args := by
  rw [print_eq_readAll, print_eq_readAll, Cursor.readAll_append]
  cases hread : Cursor.readAll ⟨.outside, args, []⟩ closed with
  | none => rfl
  | some cursor =>
      obtain ⟨progress, left, text⟩ := cursor
      cases (Cursor.progress_of_readAll hread).trans hclosed
      cases h <;> rfl

-- A format that is closed can be split off: it prints its own text with its own arguments, and the rest
-- is read as if it stood alone. Characters of an argument are never read as part of a format. What is
-- left open at the end of a format does not show.
theorem print_is_compositional :
    (∀ g h a b, Closed g → Matches g a → Matches h b →
      (∃ s t, print g a = some s ∧ print h b = some t ∧ print (g ++ h) (a ++ b) = some (s ++ t)) ∧
      Matches (g ++ h) (a ++ b)) ∧
    (∀ format args, '%' ∉ format → print format args = some format) ∧
    (∀ g h a b v, Closed g → Matches g a → Matches h b →
      ∃ s t, print g a = some s ∧ print h b = some t ∧
        print (g ++ "%s".toList ++ h) (a ++ .text v :: b) = some (s ++ v ++ t)) ∧
    ∀ format, ¬Closed format → ∃ closed, closed <+: format ∧ Closed closed ∧
      (∀ other, other <+: format → Closed other → other <+: closed) ∧
      ∀ args, print format args = print closed args := by
  refine ⟨fun g h a b hg ha hb => ⟨print_append hg ha hb, ha.append hg hb⟩,
    fun format args hmark => print_of_no_mark hmark args,
    fun g h a b v hg ha hb => print_text_between hg ha hb v, fun format hopen => ?_⟩
  obtain ⟨closed, tail, rfl, hclosed, hend⟩ := exists_openEnd hopen
  exact ⟨closed, List.prefix_append closed tail, hclosed,
    fun other hother hends => hend.longest hclosed hother hends, hend.print_append hclosed⟩

-- A percent sign, a letter that is no conversion and one after the width letter; then a text that looks
-- like a format, and a directive left open.
theorem print_is_compositional_at_marks : ∃ s t,
    print "%%%q%l%%d".toList [.int (-1)] = some s ∧
    print "%s%l".toList [.text "%d".toList] = some t ∧
    print ("%%%q%l%%d".toList ++ "%s%l".toList) ([.int (-1)] ++ [.text "%d".toList]) =
      some (s ++ t) ∧
    s = "%%%q%%-1".toList := by
  have hprinted : print "%%%q%l%%d".toList [.int (-1)] = some "%%%q%%-1".toList := by
    decide +kernel
  obtain ⟨happend, -⟩ := print_is_compositional
  obtain ⟨⟨s, t, hs, ht, hall⟩, -⟩ := happend "%%%q%l%%d".toList "%s%l".toList [.int (-1)]
    [.text "%d".toList] (by decide) (.cons (.int (-1)) .nil) (.cons (.text _ false) .nil)
  exact ⟨s, t, hs, ht, hall, Option.some_inj.mp (hs.symm.trans hprinted)⟩

end PagedMemory.Format
