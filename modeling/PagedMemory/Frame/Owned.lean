import PagedMemory.Kernel

namespace PagedMemory

-- A frame with the duty to return it, which one owner has at a time.
structure OwnedFrame where
  page : PhysPage
  owned : Bool
deriving DecidableEq

namespace OwnedFrame

-- A new owner starts with a frame of zeros.
def claim (page : PhysPage) : Action Machine OwnedFrame := do
  Machine.inspect (·.reach page.base)
  Machine.change (·.fillFrame page 0)
  return ⟨page, true⟩

-- A frame from the pool, if one is free.
def take : Action Kernel (Option OwnedFrame) := do
  match ← Kernel.takeFrame with
  | some page => return some (← Kernel.onMachine (claim page))
  | none => return none

-- What is left behind when the duty moves on.
def disowned (frame : OwnedFrame) : OwnedFrame := { frame with owned := false }

-- The end of an owner returns its frame.
def drop (frame : OwnedFrame) : Action Kernel Unit :=
  if frame.owned then Kernel.giveBackFrame frame.page else pure ()

-- Gives up the frame without returning it.
def release (frame : OwnedFrame) : Except Fault PhysPage :=
  if frame.owned then .ok frame.page else .error .notOwned

def text (frame : OwnedFrame) : String :=
  "FrameTracker:PPN=" ++ Numeral.hexText frame.page.number

end OwnedFrame

end PagedMemory
