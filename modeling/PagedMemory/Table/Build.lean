import PagedMemory.Table.Basic

namespace PagedMemory

namespace Kernel

-- A zeroed frame that nobody returns by itself: the new node's table answers for it.
def takeNode (missing : Fault) : Action Kernel PhysPage := do
  match ← OwnedFrame.take with
  | none => fail missing
  | some frame => onMachine (Machine.check frame.release)

end Kernel

namespace PageTable

-- A table of a single node, the root.
def create : Action Kernel PageTable := do
  let root ← Kernel.takeNode .noFrameForRoot
  return ⟨root, true, 1⟩

-- A node of the table's own, counted as such.
def addNode : Action (Kernel × PageTable) PhysPage := do
  let node ← Action.onFirst (Kernel.takeNode .noFrameForNode)
  Action.onSecond (modify fun table => { table with nodes := table.nodes + 1 })
  return node

-- Walks like `findFrom` and makes the nodes that are missing.
def buildFrom (page : VirtPage) : Nat → PhysPage → Action (Kernel × PageTable) EntrySlot
  | 0, node => do
      Action.onFirst (Kernel.onMachine (Machine.inspect (·.reach node.base)))
      return ⟨node, page.indexAt 0⟩
  | height + 1, node => do
      let slot : EntrySlot := ⟨node, page.indexAt (height + 1)⟩
      let entry ← Action.onFirst <| Kernel.onMachine <| Machine.inspect fun memory => do
        memory.reach node.base
        return memory.entry slot
      if entry.isValid then buildFrom page height entry.page
      else
        let child ← addNode
        Action.onFirst (Kernel.onMachine (Machine.change (·.setEntry slot (.node child))))
        buildFrom page height child

-- The slot of a page's leaf, with the nodes on the way to it made where they are missing.
def findOrBuild (page : VirtPage) : Action (Kernel × PageTable) EntrySlot := do
  let (_, table) ← get
  if table.owned then buildFrom page rootHeight table.root
  else Action.onFirst (Kernel.fail .notOwned)

-- Maps a page that is not mapped yet.
def map (page : VirtPage) (frame : PhysPage) (flags : Flags) : Action (Kernel × PageTable) Unit := do
  let slot ← findOrBuild page
  Action.onFirst <| Kernel.onMachine do
    let entry ← Machine.inspect fun memory => return memory.entry slot
    if entry.isValid then Machine.fail (.alreadyMapped page)
    else Machine.change (·.setEntry slot (.leaf frame flags))

-- Unmaps a page that is mapped. The nodes on the way to it stay.
def unmap (table : PageTable) (page : VirtPage) : Action Machine Unit := do
  match ← Machine.inspect (table.find? page) with
  | none => Machine.fail (.notMapped page)
  | some slot =>
      let entry ← Machine.inspect fun memory => return memory.entry slot
      if entry.isValid then Machine.change (·.setEntry slot .empty)
      else Machine.fail (.notMapped page)

-- Returns a node after all nodes below it, in the order of their indices. Only nodes above the
-- lowest level point at nodes.
def freeFrom : Nat → PhysPage → Action Kernel Unit
  | 0, node => Kernel.giveBackFrame node
  | height + 1, node => do
      Kernel.onMachine (Machine.inspect (·.reach node.base))
      (List.finRange nodeEntries).forM fun index => do
        let entry ← Kernel.onMachine <| Machine.inspect fun memory =>
          return memory.entry ⟨node, index⟩
        if entry.isValid then freeFrom height entry.page
      Kernel.giveBackFrame node

-- The end of a table returns the nodes it owns.
def drop (table : PageTable) : Action Kernel Unit :=
  if table.owned then freeFrom rootHeight table.root else pure ()

end PageTable

end PagedMemory
