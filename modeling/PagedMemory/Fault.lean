import PagedMemory.Address
import PagedMemory.Log

namespace PagedMemory

-- The reasons for which an operation halts.
inductive Fault where
  -- addresses
  | outsideWindow
  | belowWindow
  | levelNegative
  | levelTooDeep
  -- slices
  | indexOutsideSlice
  | cutReversed
  | cutTooLong
  -- shared state
  | notBuilt
  | reentrant
  -- frames
  | framesReversed
  | beyondMemory
  | brokenLink (frame : PhysPage) (link : UInt64) (left : Nat)
  | notAllocated (frame : PhysPage)
  | notOwned
  | selfTestOutOfFrames
  -- tables
  | noFrameForRoot
  | noFrameForNode
  | alreadyMapped (page : VirtPage)
  | notMapped (page : VirtPage)
  -- user memory
  | rangeWraps
  | pageUnmapped (address : UInt64)
  | pastRangeEnd
  | sliceUnmapped
  | copyCutShort
  | objectCrossesPage (size address : UInt64)
  | objectUnmapped (address : UInt64)
  -- a condition or a reason in the caller's own words
  | unmet (condition : String)
  | stated (reason : String)
deriving DecidableEq

namespace Fault

private def assertion (condition : String) : String := "Assertion failure: " ++ condition

-- The text an operation halts with.
def message : Fault → String
  | .outsideWindow => assertion "phys < g_kernel_virtual_start"
  | .belowWindow => assertion "virt >= g_kernel_virtual_start"
  | .levelNegative => assertion "level >= 0"
  | .levelTooDeep => assertion "level < kPageTableLevels"
  | .indexOutsideSlice => assertion "index < size_"
  | .cutReversed => assertion "start <= end"
  | .cutTooLong => assertion "end <= size_"
  | .notBuilt => assertion "initialized_"
  | .reentrant => "ExclusiveCell: reentrant access"
  | .framesReversed => assertion "low <= high"
  | .beyondMemory => assertion "high <= kTestMemoryFrames"
  | .brokenLink _ _ _ => "Recycled frame list is corrupt"
  | .notAllocated _ => "Dealloc of a frame that is not allocated"
  | .notOwned => assertion "owned_"
  | .selfTestOutOfFrames => "frame allocator self test: out of frames"
  | .noFrameForRoot => "Out of memory allocating a page table root"
  | .noFrameForNode => "Out of memory allocating a page table node"
  | .alreadyMapped _ => "Map of an already mapped page"
  | .notMapped _ => "Unmap of a page that is not mapped"
  | .rangeWraps => assertion "end_ >= start_"
  | .pageUnmapped _ => "Translation of an unmapped user page"
  | .pastRangeEnd => assertion "addr < end_"
  | .sliceUnmapped => assertion "pte.has_value()"
  | .copyCutShort => assertion "copied == len"
  | .objectCrossesPage _ _ => "Typed user access crosses a page boundary"
  | .objectUnmapped _ => "Translation of an unmapped user page"
  | .unmet condition => assertion condition
  | .stated reason => reason

-- Some faults are explained in the log before the operation halts.
def explanation? : Fault → Option String
  | .brokenLink frame link left =>
      some <| "Recycled frame ppn=" ++ Numeral.hexText frame.number ++ " links to ppn=" ++
        Numeral.hexText link.toNat ++ " with " ++ Numeral.decimalText left ++
        " frames left on the stack"
  | .notAllocated frame =>
      some <| "Frame ppn=" ++ Numeral.hexText frame.number ++ " has not been allocated"
  | .alreadyMapped page =>
      some <| "vpn " ++ Numeral.hexText page.number ++ " is mapped before mapping"
  | .notMapped page =>
      some <| "vpn " ++ Numeral.hexText page.number ++ " is invalid before unmapping"
  | .pageUnmapped address =>
      some <| "user buffer page at " ++ Numeral.hexText address.toNat ++ " is not mapped"
  | .objectCrossesPage size address =>
      some <| "object of " ++ Numeral.decimalText size.toNat ++ " bytes at " ++
        Numeral.hexText address.toNat ++ " crosses a page boundary"
  | .objectUnmapped address =>
      some <| "user address " ++ Numeral.hexText address.toNat ++ " is not mapped"
  | _ => none

def logEntry? (fault : Fault) : Option LogEntry := fault.explanation?.map (LogEntry.mk .error)

end Fault

-- How two operands of a checked condition are compared.
inductive Relation where
  | eq
  | ne
  | lt
  | gt
  | le
  | ge
deriving DecidableEq

namespace Relation

def symbol : Relation → String
  | .eq => " == "
  | .ne => " != "
  | .lt => " < "
  | .gt => " > "
  | .le => " <= "
  | .ge => " >= "

def holds : Relation → Int → Int → Bool
  | .eq, a, b => a == b
  | .ne, a, b => a != b
  | .lt, a, b => a < b
  | .gt, a, b => a > b
  | .le, a, b => a ≤ b
  | .ge, a, b => a ≥ b

end Relation

-- A condition that is checked, in the words of whoever checks it.
inductive Condition where
  | truth (words : String) (value : Int)
  | comparison (relation : Relation) (leftWords rightWords : String) (left right : Int)
  | never (reason : String)

namespace Condition

-- A number is true unless it is zero.
def check : Condition → Except Fault Unit
  | .truth words value => if value ≠ 0 then .ok () else .error (.unmet words)
  | .comparison relation leftWords rightWords left right =>
      if relation.holds left right then .ok ()
      else .error (.unmet (leftWords ++ relation.symbol ++ rightWords))
  | .never reason => .error (.stated reason)

end Condition

-- Where a failed check reports itself: a host program names the failure, a kernel's console shows
-- the place only.
inductive ReportSite where
  | host
  | console

-- The report of a failed check. Its text is made of parts, and ends before the first missing one.
def failureReport (site : ReportSite) (position : Position) (first : String)
    (others : List (Option String)) : List Char :=
  let parts := others.takeWhile Option.isSome
  let text := first.toList ++ parts.flatMap fun part => (part.getD "").toList
  match site with
  | .host => "Assertion failure(".toList ++ position.text ++ "): ".toList ++ text ++ ['\n']
  | .console => position.text ++ ": ".toList ++ text ++ ['\n']

end PagedMemory
