import Mathlib.Data.List.Forall2
import PagedMemory.Proofs.Text.Digits

namespace PagedMemory.Format

-- How far the scanner is into a directive.
inductive Progress where
  | outside
  | afterMark
  | afterWidth
deriving DecidableEq

namespace Progress

def next : Progress → Char → Progress
  | .outside, c => if c = '%' then .afterMark else .outside
  | .afterMark, c => if c = 'l' then .afterWidth else .outside
  | .afterWidth, _ => .outside

-- The field that a character completes. Not every letter names a conversion.
def field? : Progress → Char → Option (Conversion × Bool)
  | .outside, _ => none
  | .afterMark, c => (Conversion.ofLetter? c).map (·, false)
  | .afterWidth, c => (Conversion.ofLetter? c).map (·, true)

-- Where the scanner is after a text, and the fields it went over.

def after (progress : Progress) (text : List Char) : Progress := text.foldl next progress

def fields : Progress → List Char → List (Conversion × Bool)
  | _, [] => []
  | progress, c :: rest => (progress.field? c).toList ++ (progress.next c).fields rest

end Progress

-- A format that does not end inside of a directive.
def Closed (format : List Char) : Prop := Progress.outside.after format = .outside

instance (format : List Char) : Decidable (Closed format) :=
  inferInstanceAs (Decidable (_ = _))

-- The fields that an argument is for, by their conversion and width.
inductive Arg.Suits : Arg → Conversion × Bool → Prop where
  | int (v : Int32) : Suits (.int v) (.signed, false)
  | wideInt (v : Int64) : Suits (.wideInt v) (.signed, true)
  | word (v : UInt32) : Suits (.word v) (.unsigned, false)
  | wideWord (v : UInt64) : Suits (.wideWord v) (.unsigned, true)
  | hexWord (v : UInt32) : Suits (.word v) (.hex, false)
  | hexWideWord (v : UInt64) : Suits (.wideWord v) (.hex, true)
  | text (v : List Char) (wide : Bool) : Suits (.text v) (.text, wide)

-- As many arguments as the format has fields, each for the field in its place.
def Matches (format : List Char) (args : List Arg) : Prop :=
  List.Forall₂ Arg.Suits args (Progress.outside.fields format)

-- The scanner in the middle of a format, with the arguments that are left and what it has printed.
structure Cursor where
  progress : Progress
  args : List Arg
  text : List Char

namespace Cursor

def complete (cursor : Cursor) (wide : Bool) (letter : Char) : Option Cursor :=
  (directive wide letter cursor.args).map fun (text, args) => ⟨.outside, args, cursor.text ++ text⟩

-- The scanner reads the format one character at a time.
def read (cursor : Cursor) (c : Char) : Option Cursor :=
  match cursor.progress with
  | .outside =>
      if c = '%' then some { cursor with progress := .afterMark }
      else some { cursor with text := cursor.text ++ [c] }
  | .afterMark =>
      if c = 'l' then some { cursor with progress := .afterWidth } else cursor.complete false c
  | .afterWidth => cursor.complete true c

def readAll (cursor : Cursor) (format : List Char) : Option Cursor := format.foldlM read cursor

end Cursor

variable {format rest g h : List Char} {args a b : List Arg} {arg : Arg} {progress : Progress}
  {conversion : Conversion} {wide : Bool} {c : Char}

namespace Progress

theorem after_append (text : List Char) :
    progress.after (text ++ rest) = (progress.after text).after rest :=
  List.foldl_append ..

theorem fields_append (text : List Char) :
    progress.fields (text ++ rest) = progress.fields text ++ (progress.after text).fields rest := by
  induction text generalizing progress with
  | nil => rfl
  | cons c text ih =>
      rw [List.cons_append, fields, fields, ih, List.append_assoc]
      rfl

end Progress

theorem Closed.append (hg : Closed g) (hh : Closed h) : Closed (g ++ h) := by
  rw [Closed, Progress.after_append, hg]
  exact hh

theorem Matches.append (hg : Closed g) (ha : Matches g a) (hb : Matches h b) :
    Matches (g ++ h) (a ++ b) := by
  rw [Matches, Progress.fields_append, hg]
  exact List.rel_append ha hb

-- An argument that suits a field has a text.
theorem Arg.Suits.exists_write {field : Conversion × Bool} (h : arg.Suits field) :
    ∃ text, arg.write? field.1 field.2 = some text := by
  cases h with
  | int v => exact ⟨_, write?_int v⟩
  | wideInt v => exact ⟨_, write?_wideInt v⟩
  | word v => exact ⟨_, write?_word v⟩
  | wideWord v => exact ⟨_, write?_wideWord v⟩
  | hexWord v => exact ⟨_, write?_hex_word v⟩
  | hexWideWord v => exact ⟨_, write?_hex_wideWord v⟩
  | text v wide => exact ⟨v, rfl⟩

theorem directive_of_none (h : Conversion.ofLetter? c = none) :
    directive wide c args = some (['%', c], args) := by
  simp only [directive, h]

theorem directive_cons (h : Conversion.ofLetter? c = some conversion) :
    directive wide c (arg :: args) = (arg.write? conversion wide).map (·, args) := by
  simp only [directive, h]

-- A directive takes the arguments of its field, and whatever stands behind them is left.
theorem exists_directive
    (h : List.Forall₂ Arg.Suits args ((Conversion.ofLetter? c).map (·, wide)).toList) :
    ∃ text, ∀ others, directive wide c (args ++ others) = some (text, others) := by
  cases hletter : Conversion.ofLetter? c with
  | none =>
      rw [hletter] at h
      cases h
      exact ⟨['%', c], fun others => directive_of_none hletter⟩
  | some conversion =>
      rw [hletter] at h
      obtain ⟨arg, rest, hsuits, hrest, rfl⟩ := List.forall₂_cons_right_iff.mp h
      cases hrest
      obtain ⟨text, hwrite⟩ := hsuits.exists_write
      refine ⟨text, fun others => (directive_cons hletter).trans ?_⟩
      exact congrArg (Option.map (·, others)) hwrite

namespace Cursor

theorem readAll_cons (cursor : Cursor) (c : Char) (rest : List Char) :
    cursor.readAll (c :: rest) = (cursor.read c).bind (·.readAll rest) :=
  List.foldlM_cons ..

theorem readAll_append (cursor : Cursor) (text rest : List Char) :
    cursor.readAll (text ++ rest) = (cursor.readAll text).bind (·.readAll rest) :=
  List.foldlM_append ..

theorem read_mark (args : List Arg) (before : List Char) :
    read ⟨.outside, args, before⟩ '%' = some ⟨.afterMark, args, before⟩ := rfl

theorem read_literal (hc : c ≠ '%') (args : List Arg) (before : List Char) :
    read ⟨.outside, args, before⟩ c = some ⟨.outside, args, before ++ [c]⟩ :=
  if_neg hc

theorem read_width (args : List Arg) (before : List Char) :
    read ⟨.afterMark, args, before⟩ 'l' = some ⟨.afterWidth, args, before⟩ := rfl

theorem read_letter (hc : c ≠ 'l') (args : List Arg) (before : List Char) :
    read ⟨.afterMark, args, before⟩ c = complete ⟨.afterMark, args, before⟩ false c :=
  if_neg hc

-- One character of the format takes the arguments of the field that it completes.
theorem exists_read (h : List.Forall₂ Arg.Suits args (progress.field? c).toList) :
    ∃ text, ∀ others before, read ⟨progress, args ++ others, before⟩ c =
      some ⟨progress.next c, others, before ++ text⟩ := by
  cases progress with
  | outside =>
      cases h
      by_cases hc : c = '%'
      · subst hc
        exact ⟨[], fun others before => by rw [List.append_nil]; rfl⟩
      · refine ⟨[c], fun others before => (read_literal hc _ before).trans ?_⟩
        rw [Progress.next, if_neg hc]
        rfl
  | afterMark =>
      by_cases hc : c = 'l'
      · subst hc
        cases h
        exact ⟨[], fun others before => by rw [List.append_nil]; rfl⟩
      · obtain ⟨text, htext⟩ := exists_directive h
        refine ⟨text, fun others before => (read_letter hc _ before).trans ?_⟩
        rw [Progress.next, if_neg hc, complete, htext]
        rfl
  | afterWidth =>
      obtain ⟨text, htext⟩ := exists_directive h
      exact ⟨text, fun others before => congrArg (Option.map _) (htext others)⟩

-- And so does a text. What it prints depends neither on what was printed before nor on the arguments
-- behind its own.
theorem exists_readAll (h : List.Forall₂ Arg.Suits args (progress.fields format)) :
    ∃ text, ∀ others before, readAll ⟨progress, args ++ others, before⟩ format =
      some ⟨progress.after format, others, before ++ text⟩ := by
  induction format generalizing progress args with
  | nil =>
      cases h
      exact ⟨[], fun others before => by rw [List.append_nil]; rfl⟩
  | cons c rest ih =>
      obtain ⟨first, hfirst⟩ := exists_read (List.forall₂_take_append _ _ _ h)
      obtain ⟨later, hlater⟩ := ih (List.forall₂_drop_append _ _ _ h)
      refine ⟨first ++ later, fun others before => ?_⟩
      rw [← List.take_append_drop (progress.field? c).toList.length args, List.append_assoc,
        readAll_cons, hfirst, Option.bind_some, hlater, List.append_assoc]
      rfl

theorem progress_of_complete {cursor after : Cursor} (h : cursor.complete wide c = some after) :
    after.progress = .outside := by
  obtain ⟨_, -, rfl⟩ := Option.map_eq_some_iff.mp h
  rfl

theorem progress_of_read {cursor after : Cursor} (h : cursor.read c = some after) :
    after.progress = cursor.progress.next c := by
  obtain ⟨progress, args, before⟩ := cursor
  cases progress with
  | outside =>
      by_cases hc : c = '%'
      · subst hc
        cases h
        rfl
      · cases (read_literal hc args before).symm.trans h
        exact (if_neg hc).symm
  | afterMark =>
      by_cases hc : c = 'l'
      · subst hc
        cases h
        rfl
      · exact (progress_of_complete ((read_letter hc args before).symm.trans h)).trans
          (if_neg hc).symm
  | afterWidth => exact progress_of_complete h

theorem progress_of_readAll {cursor after : Cursor} (h : cursor.readAll format = some after) :
    after.progress = cursor.progress.after format := by
  induction format generalizing cursor with
  | nil =>
      cases h
      rfl
  | cons c rest ih =>
      rw [readAll_cons] at h
      obtain ⟨next, hnext, hrest⟩ := Option.bind_eq_some_iff.mp h
      rw [ih hrest, progress_of_read hnext]
      rfl

-- A directive prints its text, and the rest of the format what it prints with the arguments left.
theorem complete_readAll (progress : Progress) (args : List Arg) (before : List Char)
    (hrest : ∀ args before, (readAll ⟨.outside, args, before⟩ rest).map text =
      (print rest args).map (before ++ ·)) :
    ((complete ⟨progress, args, before⟩ wide c).bind (·.readAll rest)).map text =
      ((directive wide c args).bind fun (text, args) => (print rest args).map (text ++ ·)).map
        (before ++ ·) := by
  rw [complete]
  cases directive wide c args with
  | none => rfl
  | some result =>
      obtain ⟨text, others⟩ := result
      refine (hrest others (before ++ text)).trans ?_
      simp only [Option.bind_some, Option.map_map, Function.comp_def, List.append_assoc]

end Cursor

-- The scanner prints what the format prints.
theorem readAll_text (format : List Char) (args : List Arg) (before : List Char) :
    (Cursor.readAll ⟨.outside, args, before⟩ format).map Cursor.text =
      (print format args).map (before ++ ·) := by
  fun_induction print format args generalizing before with
  | case1 => exact congrArg some (List.append_nil before).symm
  | case2 => exact congrArg some (List.append_nil before).symm
  | case3 => exact congrArg some (List.append_nil before).symm
  | case4 letter rest args ih =>
      rw [Cursor.readAll_cons, Cursor.read_mark, Option.bind_some, Cursor.readAll_cons,
        Cursor.read_width, Option.bind_some, Cursor.readAll_cons]
      exact Cursor.complete_readAll .afterWidth args before ih
  | case5 letter rest args hlast hwide ih =>
      have hletter : letter ≠ 'l' := by
        intro h
        cases rest with
        | nil => exact hlast h rfl
        | cons c rest => exact hwide c rest h rfl
      rw [Cursor.readAll_cons, Cursor.read_mark, Option.bind_some, Cursor.readAll_cons,
        Cursor.read_letter hletter]
      exact Cursor.complete_readAll .afterMark args before ih
  | case6 c rest args hmark _ _ hdirective ih =>
      have hc : c ≠ '%' := by
        intro h
        cases rest with
        | nil => exact hmark h rfl
        | cons letter rest => exact hdirective letter rest h rfl
      rw [Cursor.readAll_cons, Cursor.read_literal hc, Option.bind_some, ih, Option.map_map]
      simp only [Function.comp_def, List.append_assoc, List.singleton_append]

theorem print_eq_readAll (format : List Char) (args : List Arg) :
    print format args = (Cursor.readAll ⟨.outside, args, []⟩ format).map Cursor.text := by
  rw [readAll_text]
  exact (Option.map_id_apply).symm

-- What a format prints with arguments that match it, in whatever text and with whatever arguments
-- behind them.
theorem Matches.exists_print (h : Matches format args) :
    ∃ text, print format args = some text ∧
      ∀ others before, Cursor.readAll ⟨.outside, args ++ others, before⟩ format =
        some ⟨Progress.outside.after format, others, before ++ text⟩ := by
  obtain ⟨text, htext⟩ := Cursor.exists_readAll h
  refine ⟨text, ?_, htext⟩
  have hread := htext [] []
  rw [List.append_nil] at hread
  rw [print_eq_readAll, hread]
  rfl

end PagedMemory.Format
