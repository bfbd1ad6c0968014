import PagedMemory.Frame.Owned

namespace PagedMemory.SelfTest

def frameCount : Nat := 5

-- Takes frames one by one and logs each.
def takeAll : Nat → Action Kernel (List OwnedFrame)
  | 0 => return []
  | count + 1 => do
      match ← OwnedFrame.take with
      | none => Kernel.fail .selfTestOutOfFrames
      | some frame =>
          Kernel.onMachine (Machine.report ⟨.info, frame.text⟩)
          return frame :: (← takeAll count)

def dropAll : List OwnedFrame → Action Kernel Unit
  | [] => return ()
  | frame :: rest => do
      frame.drop
      dropAll rest

-- Takes a handful of frames and returns them in the order they came.
def round : Action Kernel Unit := do dropAll (← takeAll frameCount)

-- Each round reverses the order of the frames it takes, so two rounds restore it.
def run : Action Kernel Unit := do
  round
  round
  Kernel.onMachine (Machine.report ⟨.info, "frame allocator self test passed"⟩)

end PagedMemory.SelfTest
