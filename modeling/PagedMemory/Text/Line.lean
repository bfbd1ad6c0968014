import PagedMemory.Slots

namespace PagedMemory

-- The end of the way that characters take: there they are kept, or lost.
inductive Sink where
  | kept
  | discarded
deriving DecidableEq

namespace Sink

-- What is left of a text.
def keep : Sink → List Char → List Char
  | .kept, text => text
  | .discarded, _ => []

end Sink

-- Where a line's characters go: to the end of the way, or to the line in a slot, which passes them on.
inductive LineTarget where
  | sink (sink : Sink)
  | line (slot : Nat)
deriving DecidableEq

-- A line under construction. An armed line owes the newline that ends it.
structure LineStream where
  target : LineTarget
  armed : Bool
deriving DecidableEq

namespace LineStream

def onto (target : LineTarget) : LineStream := ⟨target, true⟩

-- After a move the source still writes to the same place, but no longer ends the line.
def disarmed (line : LineStream) : LineStream := { line with armed := false }

end LineStream

namespace LineTarget

-- A line can only write to a line that is there.
def isThere (live : Slots LineStream) : LineTarget → Bool
  | .sink _ => true
  | .line slot => (live.get? slot).isSome

-- The end of the way that leads from a target over the lines there. There is none if a line on the way
-- is gone, or if the way comes back to a line.
def sink? (live : Slots LineStream) : LineTarget → Option Sink
  | .sink last => some last
  | .line slot =>
      match h : live.get? slot with
      | none => none
      | some next =>
          have := Slots.length_erase_lt h
          sink? (live.erase slot) next.target
termination_by live.entries.length

end LineTarget

-- Lines, and what the sink holds.
structure Lines where
  written : List Char := []
  live : Slots LineStream := {}

inductive LineCommand where
  | create (slot : Nat) (target : LineTarget)
  | move (source target : Nat)
  | print (slot : Nat) (text : List Char)
  | finish (slot : Nat)

namespace LineCommand

def start (slot : Nat) : LineCommand := .create slot (.sink .kept)

-- A line inside another one.
def wrap (slot outer : Nat) : LineCommand := .create slot (.line outer)

end LineCommand

namespace Lines

def send (lines : Lines) (target : LineTarget) (text : List Char) : Option Lines := do
  let sink ← target.sink? lines.live
  some { lines with written := lines.written ++ sink.keep text }

-- A command on a slot that holds no line has no result.
def step (lines : Lines) : LineCommand → Option Lines
  | .create slot target =>
      if target.isThere lines.live then
        some { lines with live := lines.live.set slot (.onto target) }
      else none
  | .move source target => do
      let line ← lines.live.get? source
      some { lines with live := (lines.live.set source line.disarmed).set target line }
  | .print slot text => lines.send (.line slot) text
  | .finish slot => do
      let line ← lines.live.get? slot
      let ended ← if line.armed then lines.send line.target ['\n'] else some lines
      some { ended with live := ended.live.erase slot }

def run (lines : Lines) (commands : List LineCommand) : Option Lines := commands.foldlM step lines

end Lines

end PagedMemory
