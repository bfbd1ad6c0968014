import PagedMemory.Table.Entry
import PagedMemory.User.Object
import PagedMemory.User.Range

namespace PagedMemory

-- A frame named by its number, or as the frame of an owner in a slot.
inductive FrameName where
  | page (page : PhysPage)
  | ownedBy (slot : Nat)

-- An address space named by a register value, or as that of a table in a slot.
inductive SpaceName where
  | token (token : UInt64)
  | tableIn (slot : Nat)

-- Commands to the shared pool.
inductive SharedPoolCommand where
  | init (kernelEnd memoryEnd : UInt64)
  | initRange (low high : UInt64)
  | remaining
  | selfTest
  | take
  | giveBack (frame : PhysPage)
  | isStacked (frame : PhysPage)
  | hold
  | letGo
  | remainingHeld

-- Commands to a pool in a slot.
inductive PoolCommand where
  | create
  | init (low high : PhysPage)
  | take
  | giveBack (frame : PhysPage)
  | isStacked (frame : PhysPage)
  | remaining

-- Commands to the owner of a frame in a slot.
inductive FrameCommand where
  | take
  | claim (page : PhysPage)
  | drop
  | move (target : Nat)
  | release
  | page
  | text

-- Commands to a table in a slot.
inductive TableCommand where
  | create
  | view (space : SpaceName)
  | drop
  | move (target : Nat)
  | describe
  | map (page : VirtPage) (frame : FrameName) (flags : Flags)
  | unmap (page : VirtPage)
  | translate (page : VirtPage)
  | translateAddr (address : VirtAddr)
  | find (page : VirtPage)
  | findOrBuild (page : VirtPage)
  | poke (page : VirtPage) (entry : Entry)

-- Commands to physical memory.
inductive MemoryCommand where
  | fill (page : PhysPage) (value : UInt8)
  | frame (page : PhysPage)
  | read (address : PhysAddr) (count : Nat)
  | write (address : PhysAddr) (bytes : List UInt8)
  | word (address : PhysAddr)
  | setWord (address : PhysAddr) (word : UInt64)

-- Commands to an address space.
inductive SpaceCommand where
  | describeRange (start length : UInt64)
  | keepRange (slot : Nat) (start length : UInt64)
  | copyTo (start : UInt64) (bytes : List UInt8)
  | copyFrom (start length : UInt64)
  | locate (address size : UInt64)
  | write (address : UInt64) (object : UserObject)
  | read (address : UInt64) (kind : ObjectKind)

-- Commands to a range in a slot.
inductive RangeCommand where
  | describe
  | sliceAtEnd
  | sliceAfter (count : Nat)
  | copyOut (bytes : List UInt8)
  | copyIn (count : Nat)

inductive Command where
  | shared (command : SharedPoolCommand)
  | pool (slot : Nat) (command : PoolCommand)
  | frame (slot : Nat) (command : FrameCommand)
  | table (slot : Nat) (command : TableCommand)
  | memory (command : MemoryCommand)
  | space (space : SpaceName) (command : SpaceCommand)
  | range (slot : Nat) (command : RangeCommand)

-- A range as its slices show it.
structure RangeView where
  size : UInt64
  count : Nat
  isEmpty : Bool
  slices : List FrameSlice

inductive Reply where
  | done
  | count (n : Nat)
  | truth (value : Bool)
  | text (value : String)
  | word (value : UInt64)
  | page (page : PhysPage)
  | address (address : PhysAddr)
  | bytes (bytes : List UInt8)
  | missing
  -- what a pool in a slot answers, and how many frames it can hand out then
  | ofPool (reply : Reply) (remaining : Nat)
  | table (table : PageTable)
  | entry (entry : Entry)
  | slot (slot : EntrySlot) (entry : Entry)
  | builtSlot (slot : EntrySlot) (entry : Entry) (nodes : Nat)
  | range (view : RangeView)
  | keptRange (size : UInt64) (count : Nat)
  | atEnd
  | slice (slice : FrameSlice)
  | copied (bytes : List UInt8)
  | status (value : FileStatus)

end PagedMemory
