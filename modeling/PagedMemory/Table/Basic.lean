import PagedMemory.Frame.Owned

namespace PagedMemory

-- A table of three levels, found through its root. The owner of a table also owns the frames of its
-- nodes and counts them; any other value is a view that only looks things up.
structure PageTable where
  root : PhysPage
  owned : Bool
  nodes : Nat
deriving DecidableEq

-- The index a page number has at a level of the table, where level 0 is the root.
def VirtPage.indexAtLevel (page : VirtPage) (level : Int) : Except Fault (Fin nodeEntries) :=
  if level < 0 then .error .levelNegative
  else if level.toNat < tableLevels then .ok (page.indexAt (tableLevels - 1 - level.toNat))
  else .error .levelTooDeep

namespace PageTable

-- The levels below the root.
def rootHeight : Nat := tableLevels - 1

-- The mode of the register that selects this kind of table.
def registerMode : UInt64 := 8
def registerModeShift : UInt64 := 60

-- The register value that activates the table.
def token (table : PageTable) : UInt64 :=
  registerMode <<< registerModeShift ||| UInt64.ofNat table.root.number

-- A view of the table that a register value activates.
def ofToken (token : UInt64) : PageTable := ⟨.ofNat token.toNat, false, 0⟩

-- What is left behind when a table moves: a view of the same nodes.
def disowned (table : PageTable) : PageTable := { table with owned := false, nodes := 0 }

-- Walks from a node of the given height to the leaf's slot. The walk ends early where a node is
-- missing.
def findFrom (memory : Memory) (page : VirtPage) :
    Nat → PhysPage → Except Fault (Option EntrySlot)
  | 0, node => do
      memory.reach node.base
      return some ⟨node, page.indexAt 0⟩
  | height + 1, node => do
      memory.reach node.base
      let entry := memory.entry ⟨node, page.indexAt (height + 1)⟩
      if entry.isValid then findFrom memory page height entry.page else return none

def find? (table : PageTable) (page : VirtPage) (memory : Memory) :
    Except Fault (Option EntrySlot) :=
  findFrom memory page rootHeight table.root

-- The leaf entry of a page, if the page is mapped.
def translate? (table : PageTable) (page : VirtPage) (memory : Memory) :
    Except Fault (Option Entry) := do
  match ← table.find? page memory with
  | none => return none
  | some slot =>
      let entry := memory.entry slot
      return if entry.isValid then some entry else none

-- The physical address behind a virtual one, if its page is mapped.
def translateAddr? (table : PageTable) (a : VirtAddr) (memory : Memory) :
    Except Fault (Option PhysAddr) := do
  let entry? ← table.translate? a.page memory
  return entry?.map fun entry => entry.page.base + a.offset

end PageTable

end PagedMemory
