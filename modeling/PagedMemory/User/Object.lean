import PagedMemory.Table.Basic

namespace PagedMemory

-- The kinds of object that are passed to and from an address space: numbers of one to eight bytes,
-- the status of a file, and blocks of equal bytes.
inductive ObjectKind where
  | number (width : Nat)
  | status
  | block (size : Nat)
deriving DecidableEq

structure FileStatus where
  device : UInt64
  mode : UInt32
  links : UInt32
deriving DecidableEq

inductive UserObject where
  | number (width : Nat) (value : UInt64)
  | status (value : FileStatus)
  | block (size : Nat) (value : UInt8)
deriving DecidableEq

namespace ObjectKind

def size : ObjectKind → Nat
  | .number width => width
  | .status => 16
  | .block size => size

end ObjectKind

namespace UserObject

-- The bytes of an object. Numbers start with their least significant byte.
def encode : UserObject → List UInt8
  | .number width value => Bytes.ofNumber width value.toNat
  | .status ⟨device, mode, links⟩ =>
      Bytes.ofNumber 8 device.toNat ++ Bytes.ofNumber 4 mode.toNat ++ Bytes.ofNumber 4 links.toNat
  | .block size value => List.replicate size value

def decodeNumber (bytes : List UInt8) : UInt64 := UInt64.ofNat (Bytes.number bytes)

def decodeStatus (bytes : List UInt8) : FileStatus :=
  ⟨UInt64.ofNat (Bytes.number (bytes.take 8)),
    UInt32.ofNat (Bytes.number ((bytes.drop 8).take 4)),
    UInt32.ofNat (Bytes.number ((bytes.drop 12).take 4))⟩

end UserObject

namespace PageTable

-- The physical address of an object that lies in one mapped page. The end of the object is a word,
-- and wraps.
def locateObject (table : PageTable) (a size : UInt64) (memory : Memory) :
    Except Fault PhysAddr := do
  let va := VirtAddr.ofNat a.toNat
  if UInt64.ofNat va.offset + size > UInt64.ofNat pageSize then
    .error (.objectCrossesPage size a)
  else
    match ← table.translateAddr? va memory with
    | none => .error (.objectUnmapped a)
    | some pa => return pa

-- Stores an object in an address space.
def writeObject (table : PageTable) (a : UInt64) (bytes : List UInt8) : Action Machine Unit := do
  let pa ← Machine.inspect fun memory => do
    let pa ← table.locateObject a (UInt64.ofNat bytes.length) memory
    memory.reach pa
    return pa
  Machine.change (·.write pa bytes)

-- Loads the bytes of an object from an address space.
def readObject (table : PageTable) (a : UInt64) (size : Nat) : Action Machine (List UInt8) :=
  Machine.inspect fun memory => do
    let pa ← table.locateObject a (UInt64.ofNat size) memory
    memory.reach pa
    return memory.read pa size

end PageTable

end PagedMemory
