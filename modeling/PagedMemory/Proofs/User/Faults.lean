import PagedMemory.Proofs.Table.Lookup
import PagedMemory.User.Object
import PagedMemory.User.Range

namespace PagedMemory

variable {memory : Memory} {table : PageTable} {range : UserRange} {a start length : UInt64}
  {α : Type}

-- Two machines whose memories have the same frames.
def Machine.SameWindow (machine machine' : Machine) : Prop :=
  machine'.memory.frames = machine.memory.frames

namespace Machine

theorem sameWindow_trans {machine machine' machine'' : Machine} (h : SameWindow machine machine')
    (h' : SameWindow machine' machine'') : SameWindow machine machine'' := h'.trans h

theorem sameWindow_of_eq {machine machine' : Machine} (h : machine = machine') :
    SameWindow machine machine' := by rw [SameWindow, h]

theorem sameWindow_change {f : Memory → Memory} (h : ∀ memory, (f memory).frames = memory.frames) :
    Quiet SameWindow (change f) := fun machine => h machine.memory

theorem sameWindow_consult {question : Memory → Except Stop α}
    (h : ∀ memory, Spares Stop.OfPool (question memory)) : Quiet SameWindow (consult question) :=
  (quiet_consult h).mono sameWindow_of_eq

theorem sameWindow_inspect {question : Memory → Except Fault α}
    (h : ∀ memory, Spares Fault.OfPool (question memory)) : Quiet SameWindow (inspect question) :=
  (quiet_inspect h).mono sameWindow_of_eq

theorem sameWindow_pure (a : α) : Quiet SameWindow (pure a : Action Machine α) :=
  .pure (fun machine => sameWindow_of_eq (Eq.refl machine)) a

end Machine

open Machine

-- No access to an address space stops on account of the pool, or changes how many frames memory has.

theorem spares_checkCut (start stop size : Nat) :
    Spares Fault.OfPool (checkCut start stop size) := by
  rw [checkCut]
  split
  · exact .error id
  · split
    · exact .error id
    · exact .ok _

namespace UserRange

theorem spares_checkMapped (count : Nat) :
    Spares Fault.OfPool (checkMapped table memory count a) := by
  induction count generalizing a with
  | zero => exact .ok _
  | succ count ih =>
      refine PageTable.spares_translate?.bind fun entry? => ?_
      cases entry? with
      | none => exact .error id
      | some entry => exact ih

theorem spares_ofMapped : Spares Stop.OfPool (ofMapped table start length memory) := by
  have hchecked (count : Nat) (a : UInt64) :
      Spares Stop.OfPool ((checkMapped table memory count a).mapError .fault) :=
    (spares_checkMapped count).mapError fun _ hcause => hcause
  rw [ofMapped]
  split
  · exact .error id
  · split
    · exact (hchecked _ _).bind fun _ => .error id
    · exact (hchecked _ _).bind fun _ => .ok _

theorem spares_sliceAt : Spares Fault.OfPool (range.sliceAt a memory) := by
  rw [sliceAt]
  split
  · exact .error id
  · refine PageTable.spares_translate?.bind fun entry? => ?_
    cases entry? with
    | none => exact .error id
    | some entry =>
        exact (memory.spares_reach _).bind fun _ => (spares_checkCut _ _ _).bind fun _ => .ok _

theorem spares_slices : Spares Fault.OfPool (range.slices memory) :=
  Spares.mapM (fun _ => spares_sliceAt) range.starts

theorem spares_copyFrom (addresses : List UInt64) (left : Nat) :
    Spares Fault.OfPool (range.copyFrom memory addresses left) := by
  induction addresses generalizing left with
  | nil => exact .ok _
  | cons a rest ih =>
      refine spares_sliceAt.bind fun slice => ?_
      split
      · exact .ok _
      · exact (ih _).bind fun _ => .ok _

theorem quiet_copyInto (addresses : List UInt64) (left : Nat) (source : List UInt8) :
    Quiet SameWindow (range.copyInto addresses left source) := by
  induction addresses generalizing left source with
  | nil => exact sameWindow_pure 0
  | cons a rest ih =>
      refine (sameWindow_inspect fun _ => spares_sliceAt).bind sameWindow_trans fun slice => ?_
      split
      · exact sameWindow_pure 0
      · refine (sameWindow_change fun _ => Memory.frames_write _ _ _).bind sameWindow_trans
          fun _ => ?_
        exact (ih _ _).bind sameWindow_trans fun _ => sameWindow_pure _

end UserRange

namespace PageTable

theorem quiet_copyToUser (source : List UInt8) :
    Quiet SameWindow (table.copyToUser start source) := by
  refine (sameWindow_consult fun _ => UserRange.spares_ofMapped).bind sameWindow_trans
    fun range => ?_
  refine (UserRange.quiet_copyInto _ _ _).bind sameWindow_trans fun copied => ?_
  split
  · exact sameWindow_pure ()
  · exact quiet_fail id

theorem quiet_copyFromUser : Quiet SameWindow (table.copyFromUser start length) := by
  refine (sameWindow_consult fun _ => UserRange.spares_ofMapped).bind sameWindow_trans
    fun range => ?_
  refine (sameWindow_inspect fun _ => UserRange.spares_copyFrom _ _).bind sameWindow_trans
    fun bytes => ?_
  split
  · exact sameWindow_pure bytes
  · exact quiet_fail id

theorem spares_locateObject (size : UInt64) :
    Spares Fault.OfPool (table.locateObject a size memory) := by
  rw [locateObject]
  split
  · exact .error id
  · refine spares_translateAddr?.bind fun pa? => ?_
    cases pa? with
    | none => exact .error id
    | some pa => exact .ok _

theorem quiet_writeObject (bytes : List UInt8) : Quiet SameWindow (table.writeObject a bytes) := by
  refine (sameWindow_inspect fun memory => (spares_locateObject _).bind fun pa =>
    (memory.spares_reach pa).bind fun _ => .ok _).bind sameWindow_trans fun pa => ?_
  exact sameWindow_change fun _ => Memory.frames_write _ _ _

theorem quiet_readObject (size : Nat) : Quiet SameWindow (table.readObject a size) :=
  sameWindow_inspect fun memory => (spares_locateObject _).bind fun pa =>
    (memory.spares_reach pa).bind fun _ => .ok _

end PageTable

end PagedMemory
