import PagedMemory.Frame.Owned
import PagedMemory.Proofs.Frame.Contents
import PagedMemory.Proofs.Text.Printing

namespace PagedMemory

-- The number of a page fits a word.
theorem VirtPage.toNat_word (page : VirtPage) : (UInt64.ofNat page.number).toNat = page.number :=
  UInt64.toNat_ofNat_of_lt' (Nat.lt_trans page.isLt (by decide))

namespace Format

open Numeral

variable {format format' text text' : String} {args args' : List Arg} {before : List Char}

-- A format that ends outside of its directives prints this text for its arguments.
structure Prints (format : String) (args : List Arg) (text : String) : Prop where
  closed : Closed format.toList
  suited : Matches format.toList args
  printed : print format.toList args = some text.toList

theorem fields_of_no_mark (h : '%' ∉ before) :
    Progress.outside.after before = .outside ∧ Progress.outside.fields before = [] := by
  induction before with
  | nil => exact ⟨rfl, rfl⟩
  | cons c rest ih =>
      obtain ⟨hc, hrest⟩ := List.ne_and_not_mem_of_not_mem_cons h
      have hnext : Progress.outside.next c = .outside := if_neg hc.symm
      rw [Progress.after, List.foldl_cons, Progress.fields, hnext]
      exact ih hrest

theorem prints_words (words : String) (h : '%' ∉ words.toList) : Prints words [] words := by
  obtain ⟨hclosed, hfields⟩ := fields_of_no_mark h
  refine ⟨hclosed, ?_, print_of_no_mark h []⟩
  rw [Matches, hfields]
  exact .nil

theorem prints_hex (v : UInt64) : Prints "%lx" [.wideWord v] (hexText v.toNat) := by
  refine ⟨rfl, .cons (.hexWideWord v) .nil, ?_⟩
  rw [print_of_directive (fun _ => rfl) (show Conversion.ofLetter? 'x' = _ from rfl)
    (write?_hex_wideWord v), hexText, String.toList_ofList]

theorem prints_decimal (v : UInt64) : Prints "%lu" [.wideWord v] (decimalText v.toNat) := by
  refine ⟨rfl, .cons (.wideWord v) .nil, ?_⟩
  rw [print_of_directive (fun _ => rfl) (show Conversion.ofLetter? 'u' = _ from rfl)
    (write?_wideWord v), decimalText, String.toList_ofList]

-- A line is put together from words and numbers.

namespace Prints

theorem append (h : Prints format args text) (h' : Prints format' args' text') :
    Prints (format ++ format') (args ++ args') (text ++ text') := by
  obtain ⟨first, second, hfirst, hsecond, hall⟩ := print_append h.closed h.suited h'.suited
  cases h.printed.symm.trans hfirst
  cases h'.printed.symm.trans hsecond
  refine ⟨?_, ?_, ?_⟩
  · rw [String.toList_append]
    exact h.closed.append h'.closed
  · rw [String.toList_append]
    exact h.suited.append h.closed h'.suited
  · rw [String.toList_append, hall, String.toList_append]

theorem print_eq (h : Prints format args text) (hformat : format' = format) :
    print format'.toList args = some text.toList := by
  rw [hformat]
  exact h.printed

theorem words (h : Prints format args text) (words : String) (hwords : '%' ∉ words.toList) :
    Prints (format ++ words) args (text ++ words) := by
  have hall := h.append (prints_words words hwords)
  rwa [List.append_nil] at hall

theorem hex (h : Prints format args text) (v : UInt64) :
    Prints (format ++ "%lx") (args ++ [.wideWord v]) (text ++ hexText v.toNat) :=
  h.append (prints_hex v)

theorem decimal (h : Prints format args text) (v : UInt64) :
    Prints (format ++ "%lu") (args ++ [.wideWord v]) (text ++ decimalText v.toNat) :=
  h.append (prints_decimal v)

end Prints

end Format

open Format

-- A frame is logged by its number.
theorem OwnedFrame.print_text (frame : OwnedFrame) :
    print "FrameTracker:PPN=%lx".toList [.wideWord (.ofNat frame.page.number)] =
      some frame.text.toList := by
  have h := (prints_words "FrameTracker:PPN=" (by decide)).hex (.ofNat frame.page.number)
  rw [PhysPage.toNat_word] at h
  exact h.print_eq (by decide)

-- The range of a pool is logged with the count of its frames.
theorem Kernel.print_rangeEntry (low high : PhysPage) :
    print "frame allocator: ppn %lx to %lx (%lu frames)".toList
      [.wideWord (.ofNat low.number), .wideWord (.ofNat high.number),
        .wideWord (.ofNat (high.number - low.number))] =
      some (rangeEntry low high).text.toList := by
  have hcount : high.number - low.number < 0x10000000000000000 :=
    Nat.lt_of_le_of_lt (Nat.sub_le _ _) (Nat.lt_trans high.isLt (by decide))
  have h := (prints_words "frame allocator: ppn " (by decide)).hex (.ofNat low.number)
    |>.words " to " (by decide) |>.hex (.ofNat high.number)
    |>.words " (" (by decide) |>.decimal (.ofNat (high.number - low.number))
    |>.words " frames)" (by decide)
  rw [PhysPage.toNat_word, PhysPage.toNat_word, UInt64.toNat_ofNat_of_lt' hcount] at h
  exact h.print_eq (by decide)

namespace Fault

-- The format of the line that explains a fault, and its arguments.
def format? : Fault → Option (String × List Arg)
  | .brokenLink frame link left =>
      some ("Recycled frame ppn=%lx links to ppn=%lx with %lu frames left on the stack",
        [.wideWord (.ofNat frame.number), .wideWord link, .wideWord (.ofNat left)])
  | .notAllocated frame =>
      some ("Frame ppn=%lx has not been allocated", [.wideWord (.ofNat frame.number)])
  | .alreadyMapped page =>
      some ("vpn %lx is mapped before mapping", [.wideWord (.ofNat page.number)])
  | .notMapped page =>
      some ("vpn %lx is invalid before unmapping", [.wideWord (.ofNat page.number)])
  | .pageUnmapped address =>
      some ("user buffer page at %lx is not mapped", [.wideWord address])
  | .objectCrossesPage size address =>
      some ("object of %lu bytes at %lx crosses a page boundary",
        [.wideWord size, .wideWord address])
  | .objectUnmapped address =>
      some ("user address %lx is not mapped", [.wideWord address])
  | _ => none

-- A count of frames is the only number in an explanation that may not fit a word.
def CountFits : Fault → Prop
  | .brokenLink _ _ left => left < 0x10000000000000000
  | _ => True

-- Every explanation is what its format prints.
theorem print_format {fault : Fault} (hfits : fault.CountFits) :
    (fault.format?.bind fun (format, args) => print format.toList args) =
      fault.explanation?.map String.toList := by
  cases fault with
  | brokenLink frame link left =>
      have h := (prints_words "Recycled frame ppn=" (by decide)).hex (.ofNat frame.number)
        |>.words " links to ppn=" (by decide) |>.hex link
        |>.words " with " (by decide) |>.decimal (.ofNat left)
        |>.words " frames left on the stack" (by decide)
      rw [PhysPage.toNat_word, UInt64.toNat_ofNat_of_lt' hfits] at h
      exact h.print_eq (by decide)
  | notAllocated frame =>
      have h := (prints_words "Frame ppn=" (by decide)).hex (.ofNat frame.number)
        |>.words " has not been allocated" (by decide)
      rw [PhysPage.toNat_word] at h
      exact h.print_eq (by decide)
  | alreadyMapped page =>
      have h := (prints_words "vpn " (by decide)).hex (.ofNat page.number)
        |>.words " is mapped before mapping" (by decide)
      rw [VirtPage.toNat_word] at h
      exact h.print_eq (by decide)
  | notMapped page =>
      have h := (prints_words "vpn " (by decide)).hex (.ofNat page.number)
        |>.words " is invalid before unmapping" (by decide)
      rw [VirtPage.toNat_word] at h
      exact h.print_eq (by decide)
  | pageUnmapped address =>
      have h := (prints_words "user buffer page at " (by decide)).hex address
        |>.words " is not mapped" (by decide)
      exact h.print_eq (by decide)
  | objectCrossesPage size address =>
      have h := (prints_words "object of " (by decide)).decimal size
        |>.words " bytes at " (by decide) |>.hex address
        |>.words " crosses a page boundary" (by decide)
      exact h.print_eq (by decide)
  | objectUnmapped address =>
      have h := (prints_words "user address " (by decide)).hex address
        |>.words " is not mapped" (by decide)
      exact h.print_eq (by decide)
  | _ => rfl

end Fault

end PagedMemory
