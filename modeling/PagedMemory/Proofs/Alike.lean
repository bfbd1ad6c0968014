import PagedMemory.Proofs.Frame.Contents

namespace PagedMemory

variable {σ α β : Type} {settled settled' given : PhysPage → Prop}

theorem Bytes.byteAt_write_congr {a b : ByteArray} {start i : Nat} (values : List UInt8)
    (hsize : a.size = b.size) (h : byteAt a i = byteAt b i) :
    byteAt (write a start values) i = byteAt (write b start values) i := by
  induction values generalizing a b start with
  | nil => exact h
  | cons v rest ih =>
      refine ih (by rw [size_setByte, size_setByte, hsize]) ?_
      rw [byteAt_setByte, byteAt_setByte, hsize, h]

-- So many bytes from an address on, all in frames of a kind.
def PhysAddr.SpanIn (kind : PhysPage → Prop) (a : PhysAddr) (count : Nat) : Prop :=
  ∀ i < count, ∃ page : PhysPage, kind page ∧ page.number = (a.value + i) / 4096

theorem PhysAddr.spanIn_of_fits {kind : PhysPage → Prop} {a : PhysAddr} {count : Nat}
    (hpage : kind a.page) (hfits : a.offset + count ≤ 4096) : a.SpanIn kind count := by
  intro i hi
  refine ⟨a.page, hpage, ?_⟩
  have hlt := a.isLt
  simp only [page, offset, pageSize_eq] at hfits ⊢
  omega

theorem PhysAddr.SpanIn.mono {kind kind' : PhysPage → Prop} {a : PhysAddr} {count : Nat}
    (h : a.SpanIn kind count) (himp : ∀ page, kind page → kind' page) : a.SpanIn kind' count := by
  intro i hi
  obtain ⟨page, hkind, hnumber⟩ := h i hi
  exact ⟨page, himp page hkind, hnumber⟩

-- Two memories that hold the same in the frames that are settled. The others may hold anything.
structure Memory.Alike (settled : PhysPage → Prop) (memory memory' : Memory) : Prop where
  frames : memory'.frames = memory.frames
  same : ∀ page, settled page → memory'.frame page = memory.frame page

namespace Memory.Alike

variable {memory memory' : Memory} {page : PhysPage} {slot : EntrySlot}

theorem mono (h : Alike settled memory memory') (himp : ∀ page, settled' page → settled page) :
    Alike settled' memory memory' := ⟨h.frames, fun page hpage => h.same page (himp page hpage)⟩

theorem trans {memory'' : Memory} (h : Alike settled memory memory')
    (h' : Alike settled memory' memory'') : Alike settled memory memory'' :=
  ⟨h'.frames.trans h.frames, fun page hpage => (h'.same page hpage).trans (h.same page hpage)⟩

-- What neither wrote to is as before.
theorem of_spared {after after' : Memory} (h : Alike settled memory memory')
    (hframes : after.frames = memory.frames) (hframes' : after'.frames = memory'.frames)
    (hspared : ∀ page, settled' page →
      settled page ∧ after.frame page = memory.frame page ∧ after'.frame page = memory'.frame page) :
    Alike settled' after after' := by
  refine ⟨hframes'.trans (h.frames.trans hframes.symm), fun page hpage => ?_⟩
  obtain ⟨hsettled, hsame, hsame'⟩ := hspared page hpage
  exact hsame'.trans ((h.same page hsettled).trans hsame.symm)

theorem entry_eq (h : Alike settled memory memory') (hslot : settled slot.node) :
    memory'.entry slot = memory.entry slot := entry_eq_of_frame_eq (h.same _ hslot)

theorem read_eq (h : Alike settled memory memory') {a : PhysAddr} {count : Nat}
    (hspan : a.SpanIn settled count) : memory'.read a count = memory.read a count := by
  refine Bytes.read_congr fun j hj => ?_
  obtain ⟨page, hpage, hnumber⟩ := hspan j hj
  have hplace : a.value + j = page.number * 4096 + (a.value + j) % 4096 := by omega
  rw [hplace]
  exact frame_eq_iff.mp (h.same page hpage) _ (Nat.mod_lt _ (by decide))

-- What is written to both keeps them alike, wherever it goes.
theorem write (h : Alike settled memory memory') (a : PhysAddr) (values : List UInt8) :
    Alike settled (memory.write a values) (memory'.write a values) := by
  refine ⟨by rw [frames_write, frames_write, h.frames], fun page hpage => ?_⟩
  refine frame_eq_iff.mpr fun j hj => ?_
  rw [bytes_write, bytes_write]
  refine Bytes.byteAt_write_congr values ?_ (frame_eq_iff.mp (h.same page hpage) j hj)
  rw [memory'.size_eq, memory.size_eq, h.frames]

-- What is written to frames of a kind leaves the others as they are.
theorem write_other {kind : PhysPage → Prop} {a : PhysAddr} {values : List UInt8}
    (hspan : a.SpanIn kind values.length) : Alike (¬kind ·) memory (memory.write a values) := by
  refine ⟨frames_write _ _ _, fun page hpage => frame_eq_iff.mpr fun j hj => ?_⟩
  rw [bytes_write]
  apply Bytes.byteAt_write_outside
  apply Decidable.byContradiction
  intro hinside
  obtain ⟨other, hother, hnumber⟩ := hspan (page.number * 4096 + j - a.value) (by omega)
  have heq : other = page := PhysPage.ext_number (by omega)
  exact hpage (heq ▸ hother)

theorem setEntry (h : Alike settled memory memory') (slot : EntrySlot) (entry : Entry) :
    Alike settled (memory.setEntry slot entry) (memory'.setEntry slot entry) := h.write _ _

-- A frame that is filled in both is settled.
theorem fillFrame (h : Alike settled memory memory') (hpage : page.number < memory.frames)
    (v : UInt8) :
    Alike (fun other => settled other ∨ other = page) (memory.fillFrame page v)
      (memory'.fillFrame page v) := by
  refine ⟨(h.write _ _).frames, fun other hother => ?_⟩
  rcases hother with hother | rfl
  · exact (h.write _ _).same other hother
  · rw [frame_fillFrame_same v hpage, frame_fillFrame_same v (h.frames ▸ hpage)]

end Memory.Alike

-- Two results of an action: the same answer or the same reason to stop, and states that are related.
def Mirrored (related stopped : σ → σ → Prop) :
    EStateM.Result Stop σ α → EStateM.Result Stop σ α → Prop
  | .ok a s, .ok b t => b = a ∧ related s t
  | .error stop s, .error stop' t => stop' = stop ∧ stopped s t
  | _, _ => False

-- Nothing was done to either of two states.
abbrev Still (s t after after' : σ) : Prop := s = after ∧ t = after'

namespace Mirrored

variable {related related' stopped : σ → σ → Prop} {s t : σ}

theorem of_ok {result result' : EStateM.Result Stop σ α} {a : α} (hrun : result = .ok a s)
    (hrun' : result' = .ok a t) (h : related s t) : Mirrored related stopped result result' := by
  subst hrun hrun'
  exact ⟨rfl, h⟩

theorem of_error {result result' : EStateM.Result Stop σ α} {stop : Stop}
    (hrun : result = .error stop s) (hrun' : result' = .error stop t) (h : stopped s t) :
    Mirrored related stopped result result' := by
  subst hrun hrun'
  exact ⟨rfl, h⟩

theorem mono {result result' : EStateM.Result Stop σ α}
    (h : Mirrored related stopped result result')
    (himp : ∀ a s t, result = .ok a s → result' = .ok a t → related s t → related' s t) :
    Mirrored related' stopped result result' := by
  cases result with
  | ok a s =>
      cases result' with
      | ok b t =>
          obtain ⟨rfl, hrelated⟩ := h
          exact ⟨rfl, himp _ s t rfl rfl hrelated⟩
      | error stop t => exact h.elim
  | error stop s =>
      cases result' with
      | ok b t => exact h.elim
      | error stop' t => exact h

theorem bind {action : Action σ α} {next : α → Action σ β}
    (h : Mirrored related stopped (action.run s) (action.run t))
    (hnext : ∀ a s' t', action.run s = .ok a s' → action.run t = .ok a t' → related s' t' →
      Mirrored related' stopped ((next a).run s') ((next a).run t')) :
    Mirrored related' stopped ((action >>= next).run s) ((action >>= next).run t) := by
  cases hrun : action.run s with
  | ok a s' =>
      cases hrun' : action.run t with
      | ok b t' =>
          rw [hrun, hrun'] at h
          obtain ⟨rfl, hrelated⟩ := h
          rw [Action.run_bind_ok hrun, Action.run_bind_ok hrun']
          exact hnext _ _ _ hrun hrun' hrelated
      | error stop t' =>
          rw [hrun, hrun'] at h
          exact h.elim
  | error stop s' =>
      cases hrun' : action.run t with
      | ok b t' =>
          rw [hrun, hrun'] at h
          exact h.elim
      | error stop' t' =>
          rw [hrun, hrun'] at h
          rw [Action.run_bind_error hrun, Action.run_bind_error hrun']
          exact h

end Mirrored

namespace Machine

variable {machine machine' after after' : Machine}

-- Two machines whose memories are alike, and which have logged the same.
structure Alike (settled : PhysPage → Prop) (machine machine' : Machine) : Prop where
  log : machine'.log = machine.log
  memory : Memory.Alike settled machine.memory machine'.memory

def SameLog (machine machine' : Machine) : Prop := machine'.log = machine.log

-- The same bytes were stored in both memories, in frames that may be written to.
structure Stored (settled given : PhysPage → Prop) (machine machine' after after' : Machine) :
    Prop where
  alike : Alike settled after after'
  spared : Memory.Alike (¬given ·) machine.memory after.memory
  spared' : Memory.Alike (¬given ·) machine'.memory after'.memory

theorem Stored.refl (h : Alike settled machine machine') :
    Stored settled given machine machine' machine machine' :=
  ⟨h, ⟨rfl, fun _ _ => rfl⟩, ⟨rfl, fun _ _ => rfl⟩⟩

theorem Stored.trans {between between' : Machine}
    (h : Stored settled given machine machine' between between')
    (h' : Stored settled given between between' after after') :
    Stored settled given machine machine' after after' :=
  ⟨h'.alike, h.spared.trans h'.spared, h.spared'.trans h'.spared'⟩

theorem Stored.write (h : Alike settled machine machine') {place : PhysAddr}
    {values : List UInt8} (hspan : place.SpanIn given values.length) :
    Stored settled given machine machine' ⟨machine.memory.write place values, machine.log⟩
      ⟨machine'.memory.write place values, machine'.log⟩ :=
  ⟨⟨h.log, h.memory.write place values⟩, .write_other hspan, .write_other hspan⟩

theorem Stored.setEntry (h : Alike settled machine machine') (slot : EntrySlot) (entry : Entry) :
    Stored settled (· = slot.node) machine machine'
      ⟨machine.memory.setEntry slot entry, machine.log⟩
      ⟨machine'.memory.setEntry slot entry, machine'.log⟩ where
  alike := ⟨h.log, h.memory.setEntry slot entry⟩
  spared := ⟨Memory.frames_setEntry _ _ _, fun _ hne => Memory.frame_setEntry_other hne⟩
  spared' := ⟨Memory.frames_setEntry _ _ _, fun _ hne => Memory.frame_setEntry_other hne⟩

-- A question with the same answer in both memories.
theorem mirrored_consult {question : Memory → Except Stop α} (h : SameLog machine machine')
    (hquestion : question machine'.memory = question machine.memory) :
    Mirrored (Still machine machine') SameLog
      ((consult question).run machine) ((consult question).run machine') := by
  simp only [EStateM.run, consult, hquestion]
  cases question machine.memory with
  | ok a => exact ⟨rfl, rfl, rfl⟩
  | error reason =>
      cases reason with
      | fault cause => exact ⟨rfl, congrArg (· ++ cause.logEntry?.toList) h⟩
      | endless => exact ⟨rfl, h⟩
      | absent => exact ⟨rfl, h⟩

theorem mirrored_inspect {question : Memory → Except Fault α} (h : SameLog machine machine')
    (hquestion : question machine'.memory = question machine.memory) :
    Mirrored (Still machine machine') SameLog
      ((inspect question).run machine) ((inspect question).run machine') :=
  mirrored_consult h (congrArg _ hquestion)

theorem mirrored_change (f : Memory → Memory) (machine machine' : Machine) :
    Mirrored (fun after after' => ⟨f machine.memory, machine.log⟩ = after ∧
      ⟨f machine'.memory, machine'.log⟩ = after') SameLog
      ((change f).run machine) ((change f).run machine') := ⟨rfl, rfl, rfl⟩

theorem mirrored_fail {related : Machine → Machine → Prop} (h : SameLog machine machine')
    (cause : Fault) :
    Mirrored related SameLog ((fail cause : Action Machine α).run machine)
      ((fail cause).run machine') := ⟨rfl, congrArg (· ++ cause.logEntry?.toList) h⟩

end Machine

end PagedMemory
