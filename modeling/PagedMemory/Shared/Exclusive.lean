import PagedMemory.Fault

namespace PagedMemory

-- A value that is open to one user at a time. While it is borrowed, a second access is an error.
structure Exclusive (α : Type) where
  value : α
  borrowed : Bool := false
deriving DecidableEq

namespace Exclusive

variable {α : Type}

def borrow (cell : Exclusive α) : Except Fault (Exclusive α) :=
  if cell.borrowed then .error .reentrant else .ok { cell with borrowed := true }

def release (cell : Exclusive α) : Exclusive α := { cell with borrowed := false }

-- A borrow that ends at once.
def change (cell : Exclusive α) (f : α → α) : Except Fault (Exclusive α) := do
  let held ← cell.borrow
  return { held with value := f held.value }.release

end Exclusive

end PagedMemory
