import PagedMemory.Fault

namespace PagedMemory

-- A value that is built after the program has started, and may be built again.
structure Deferred (α : Type) where
  value? : Option α := none
deriving DecidableEq

namespace Deferred

variable {α : Type}

-- Building ends the value that was there before.
def build (_ : Deferred α) (value : α) : Deferred α := ⟨some value⟩

def reset (_ : Deferred α) : Deferred α := ⟨none⟩

def isBuilt (deferred : Deferred α) : Bool := deferred.value?.isSome

-- Using a value that is not built is an error.
def get (deferred : Deferred α) : Except Fault α :=
  match deferred.value? with
  | some value => .ok value
  | none => .error .notBuilt

end Deferred

end PagedMemory
