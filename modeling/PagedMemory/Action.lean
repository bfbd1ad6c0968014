import PagedMemory.Memory

namespace PagedMemory

-- Why a computation ends without a result: a fault halts it, it repeats itself for ever, or it
-- names an object that does not exist.
inductive Stop where
  | fault (cause : Fault)
  | endless
  | absent
deriving DecidableEq

-- A computation on a state. A stop keeps what was done to the state before it: nothing is undone.
abbrev Action (σ α : Type) := EStateM Stop σ α

namespace Action

variable {σ τ α : Type}

-- An action on one part of a state leaves the other part alone.
def onFirst (action : Action σ α) : Action (σ × τ) α := fun (s, t) =>
  match action s with
  | .ok a s => .ok a (s, t)
  | .error stop s => .error stop (s, t)

def onSecond (action : Action τ α) : Action (σ × τ) α := fun (s, t) =>
  match action t with
  | .ok a t => .ok a (s, t)
  | .error stop t => .error stop (s, t)

end Action

-- Physical memory, and the lines logged so far.
structure Machine where
  memory : Memory
  log : List LogEntry

namespace Machine

variable {α : Type}

-- A stop with a cause that has an explanation logs it first.
def stop (reason : Stop) : Action Machine α := fun ⟨memory, log⟩ =>
  match reason with
  | .fault cause => .error reason ⟨memory, log ++ cause.logEntry?.toList⟩
  | _ => .error reason ⟨memory, log⟩

def fail (cause : Fault) : Action Machine α := stop (.fault cause)

def report (entry : LogEntry) : Action Machine Unit := fun ⟨memory, log⟩ =>
  .ok () ⟨memory, log ++ [entry]⟩

def change (f : Memory → Memory) : Action Machine Unit := fun ⟨memory, log⟩ =>
  .ok () ⟨f memory, log⟩

-- A question about memory, which may have no answer.
def consult (question : Memory → Except Stop α) : Action Machine α := fun machine =>
  match question machine.memory with
  | .ok a => .ok a machine
  | .error reason => stop reason machine

def inspect (question : Memory → Except Fault α) : Action Machine α :=
  consult fun memory => (question memory).mapError .fault

def check (result : Except Fault α) : Action Machine α := inspect fun _ => result

end Machine

end PagedMemory
