import PagedMemory.Text.Digits

namespace PagedMemory.Format

-- The ways a format can ask for an argument to be written.
inductive Conversion where
  | signed
  | unsigned
  | hex
  | text
deriving DecidableEq

namespace Conversion

-- Other letters name no conversion.
def ofLetter? : Char → Option Conversion
  | 'd' => some .signed
  | 'u' => some .unsigned
  | 'x' => some .hex
  | 's' => some .text
  | _ => none

end Conversion

inductive Arg where
  | int (value : Int32)
  | word (value : UInt32)
  | wideInt (value : Int64)
  | wideWord (value : UInt64)
  | text (value : List Char)
deriving DecidableEq

-- A conversion takes an argument of its own kind and width, which is widened to a word. Text has no
-- width.
def Arg.write? : Conversion → Bool → Arg → Option (List Char)
  | .signed, false, .int v => Digits.signed .ten v.toInt64
  | .signed, true, .wideInt v => Digits.signed .ten v
  | .unsigned, false, .word v => Digits.unsigned .ten v.toUInt64
  | .unsigned, true, .wideWord v => Digits.unsigned .ten v
  | .hex, false, .word v => (['0', 'x'] ++ ·) <$> Digits.unsigned .sixteen v.toUInt64
  | .hex, true, .wideWord v => (['0', 'x'] ++ ·) <$> Digits.unsigned .sixteen v
  | .text, _, .text v => some v
  | _, _, _ => none

-- What a directive with this letter prints, and the arguments that are left. A missing argument, or one
-- of the wrong kind, has no text. A letter that names no conversion is copied with a mark before it,
-- and the width letter is lost.
def directive (wide : Bool) (letter : Char) (args : List Arg) : Option (List Char × List Arg) :=
  match Conversion.ofLetter? letter, args with
  | none, args => some (['%', letter], args)
  | some _, [] => none
  | some conversion, arg :: args => (arg.write? conversion wide).map (·, args)

-- What a format prints. A directive that is left open at the end, after the mark or after the width
-- letter, prints nothing, and arguments left over are ignored.
def print : List Char → List Arg → Option (List Char)
  | [], _ => some []
  | ['%'], _ => some []
  | ['%', 'l'], _ => some []
  | '%' :: 'l' :: letter :: rest, args => do
      let (text, args) ← directive true letter args
      (print rest args).map (text ++ ·)
  | '%' :: letter :: rest, args => do
      let (text, args) ← directive false letter args
      (print rest args).map (text ++ ·)
  | c :: rest, args => (print rest args).map (c :: ·)

end PagedMemory.Format
