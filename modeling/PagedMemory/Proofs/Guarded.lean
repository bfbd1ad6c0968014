import PagedMemory.Frame.SelfTest
import PagedMemory.Proofs.Quiet

namespace PagedMemory

variable {σ τ α β : Type}

-- What an action comes to, with another state in place of the one it leaves.
def Action.mapState (f : σ → τ) : EStateM.Result Stop σ α → EStateM.Result Stop τ α
  | .ok a s => .ok a (f s)
  | .error stop s => .error stop (f s)

-- An action that works on changed states as on the states themselves, whether it has a result or
-- stops.
def Commutes (f : σ → σ) (action : Action σ α) : Prop :=
  ∀ s, action.run (f s) = Action.mapState f (action.run s)

section Commutes

variable {f : σ → σ} {action : Action σ α} {next : α → Action σ β}

theorem Action.run_bind_mapState {s : σ} (h : action.run (f s) = mapState f (action.run s))
    (hnext : ∀ a t, action.run s = .ok a t → (next a).run (f t) = mapState f ((next a).run t)) :
    (action >>= next).run (f s) = mapState f ((action >>= next).run s) := by
  cases hrun : action.run s with
  | ok a t =>
      rw [hrun] at h
      rw [run_bind_ok hrun, run_bind_ok h]
      exact hnext a t hrun
  | error stop t =>
      rw [hrun] at h
      rw [run_bind_error hrun, run_bind_error h]
      rfl

theorem Commutes.pure (a : α) : Commutes f (Pure.pure a : Action σ α) := fun _ => rfl

theorem Commutes.bind (h : Commutes f action) (hnext : ∀ a, Commutes f (next a)) :
    Commutes f (action >>= next) := fun s => Action.run_bind_mapState (h s) fun a t _ => hnext a t

end Commutes

-- An action that keeps something up if it has a result, and never stops for finding the pool in use.
def Unrefused (inv : σ → Prop) (action : Action σ α) : Prop :=
  ∀ s, inv s → match action.run s with
    | .ok _ t => inv t
    | .error stop _ => stop ≠ .fault .reentrant

-- What there is always to keep up.
def Anything (_ : σ) : Prop := True

namespace Unrefused

variable {inv : σ → Prop} {action : Action σ α} {next : α → Action σ β}

theorem pure (a : α) : Unrefused inv (Pure.pure a : Action σ α) := fun _ hs => hs

theorem bind (h : Unrefused inv action) (hnext : ∀ a, Unrefused inv (next a)) :
    Unrefused inv (action >>= next) := by
  intro s hs
  have hfirst := h s hs
  cases hrun : action.run s with
  | ok a t =>
      rw [hrun] at hfirst
      rw [Action.run_bind_ok hrun]
      exact hnext a t hfirst
  | error stop t =>
      rw [hrun] at hfirst
      rw [Action.run_bind_error hrun]
      exact hfirst

theorem forM {f : α → Action σ PUnit} (h : ∀ a, Unrefused inv (f a)) (as : List α) :
    Unrefused inv (as.forM f) := by
  induction as with
  | nil => exact pure _
  | cons a as ih => exact (h a).bind fun _ => ih

theorem of_quiet {related : σ → σ → Prop} (h : Quiet related action)
    (hinv : ∀ {s t}, related s t → inv s → inv t) : Unrefused inv action := by
  intro s hs
  cases hrun : action.run s with
  | ok a t => exact hinv (h.ok hrun) hs
  | error stop t =>
      rintro rfl
      exact h.error hrun trivial

theorem onFirst {action : Action σ α} (h : Unrefused inv action) :
    Unrefused (fun s : σ × τ => inv s.1) (Action.onFirst action) := by
  intro ⟨s, t⟩ hs
  have hfirst := h s hs
  rw [Action.run_onFirst]
  cases hrun : action.run s with
  | ok a s' => rwa [hrun] at hfirst
  | error stop s' => rwa [hrun] at hfirst

theorem anything_onFirst {action : Action σ α} (h : Unrefused Anything action) :
    Unrefused Anything (Action.onFirst action : Action (σ × τ) α) := h.onFirst

theorem onSecond {action : Action τ α} {inv : σ → Prop} (h : Unrefused Anything action) :
    Unrefused (fun s : σ × τ => inv s.1) (Action.onSecond action) := by
  intro ⟨s, t⟩ hs
  have hsecond := h t trivial
  rw [Action.run_onSecond]
  cases hrun : action.run t with
  | ok a t' => exact hs
  | error stop t' => rwa [hrun] at hsecond

theorem get : Unrefused inv (MonadState.get : Action σ σ) := fun _ hs => hs

theorem modify {f : σ → σ} (h : ∀ {s}, inv s → inv (f s)) :
    Unrefused inv (modify f : Action σ PUnit) := fun _ hs => h hs

theorem ok {s t : σ} {a : α} (h : Unrefused inv action) (hs : inv s)
    (hrun : action.run s = .ok a t) : inv t := by
  have hafter := h s hs
  rwa [hrun] at hafter

theorem error {s t : σ} (h : Unrefused inv action) (hs : inv s) :
    action.run s ≠ .error (.fault .reentrant) t := by
  intro hrun
  have hstop := h s hs
  rw [hrun] at hstop
  exact hstop rfl

end Unrefused

namespace Machine

theorem unrefused_report (entry : LogEntry) : Unrefused Anything (report entry) :=
  fun _ _ => trivial

theorem unrefused_change (f : Memory → Memory) : Unrefused Anything (change f) := fun _ _ => trivial

theorem unrefused_consult {question : Memory → Except Stop α}
    (h : ∀ memory, Spares Stop.OfPool (question memory)) : Unrefused Anything (consult question) :=
  .of_quiet (quiet_consult h) fun _ _ => trivial

theorem unrefused_inspect {question : Memory → Except Fault α}
    (h : ∀ memory, Spares Fault.OfPool (question memory)) : Unrefused Anything (inspect question) :=
  .of_quiet (quiet_inspect h) fun _ _ => trivial

theorem unrefused_reach (a : PhysAddr) : Unrefused Anything (inspect (·.reach a)) :=
  unrefused_inspect fun memory => memory.spares_reach a

theorem unrefused_fail {cause : Fault} (h : cause ≠ .reentrant) :
    Unrefused Anything (fail cause : Action Machine α) := fun _ _ heq => h (Stop.fault.inj heq)

end Machine

namespace Kernel

variable {kernel : Kernel} {pool : FramePool}

-- Nobody uses the pool.
def Open (kernel : Kernel) : Prop := ∃ pool, kernel.pool = ⟨some ⟨pool, false⟩⟩

-- Somebody uses the pool.
def Held (kernel : Kernel) : Prop := ∃ pool, kernel.pool = ⟨some ⟨pool, true⟩⟩

-- The kernel while somebody uses the pool.
def guarded (kernel : Kernel) : Kernel :=
  ⟨kernel.machine, ⟨kernel.pool.value?.map fun cell => { cell with borrowed := true }⟩⟩

theorem Open.held (h : kernel.Open) : kernel.guarded.Held := by
  obtain ⟨pool, hpool⟩ := h
  exact ⟨pool, by rw [guarded, hpool]; rfl⟩

-- What is done to the machine only has nothing to do with who uses the pool.
theorem commutes_onMachine (action : Action Machine α) : Commutes guarded (onMachine action) := by
  intro kernel
  rw [run_onMachine, run_onMachine, guarded]
  cases action.run kernel.machine <;> rfl

theorem run_holdPool_of_open (h : kernel.Open) : holdPool.run kernel = .ok () kernel.guarded := by
  obtain ⟨pool, hpool⟩ := h
  obtain ⟨machine, shared⟩ := kernel
  subst hpool
  rfl

-- Whoever needs the pool while it is in use is refused, and nothing has been done.

theorem run_withPool_of_held (h : kernel.Held) (action : Action (Machine × FramePool) α) :
    (withPool action).run kernel = .error (.fault .reentrant) kernel := by
  obtain ⟨pool, hpool⟩ := h
  obtain ⟨⟨memory, log⟩, shared⟩ := kernel
  subst hpool
  have hborrow : (Deferred.get ⟨some ⟨pool, true⟩⟩ >>= Exclusive.borrow : Except Fault _) =
      .error .reentrant := rfl
  rw [EStateM.run]
  simp only [withPool, hborrow]
  exact (run_fail .reentrant _).trans (by rw [Fault.lines_eq_nil rfl, List.append_nil])

theorem run_holdPool_of_held (h : kernel.Held) :
    holdPool.run kernel = .error (.fault .reentrant) kernel := by
  obtain ⟨pool, hpool⟩ := h
  obtain ⟨⟨memory, log⟩, shared⟩ := kernel
  subst hpool
  exact (run_fail .reentrant _).trans (by rw [Fault.lines_eq_nil rfl, List.append_nil])

theorem run_initFrames_of_held (h : kernel.Held) (kernelEnd memoryEnd : UInt64) :
    (initFrames kernelEnd memoryEnd).run kernel = .error (.fault .reentrant) kernel := by
  obtain ⟨pool, hpool⟩ := h
  obtain ⟨machine, shared⟩ := kernel
  subst hpool
  rw [initFrames, EStateM.run_bind, EStateM.run_modify]
  exact Action.run_bind_error (run_withPool_of_held ⟨pool, rfl⟩ _)

theorem run_takeFrame_of_held (h : kernel.Held) :
    OwnedFrame.take.run kernel = .error (.fault .reentrant) kernel :=
  Action.run_bind_error (run_withPool_of_held h _)

theorem run_takeNode_of_held (h : kernel.Held) (missing : Fault) :
    (takeNode missing).run kernel = .error (.fault .reentrant) kernel :=
  Action.run_bind_error (run_takeFrame_of_held h)

theorem run_selfTest_of_held (h : kernel.Held) :
    SelfTest.run.run kernel = .error (.fault .reentrant) kernel :=
  Action.run_bind_error (Action.run_bind_error (Action.run_bind_error (run_takeFrame_of_held h)))

end Kernel

-- Nobody is refused while the pool is not in use, and whoever has used it gives it back.

namespace FramePool

theorem spares_link (frame : PhysPage) (memory : Memory) : Spares Fault.OfPool (link frame memory) :=
  (memory.spares_reach _).bind fun _ => .ok _

theorem spares_searchBelow (frame : PhysPage) (memory : Memory) (steps : Nat) (word : UInt64) :
    Spares Stop.OfPool (searchBelow frame memory steps word) := by
  induction steps generalizing word with
  | zero =>
      rw [searchBelow]
      split
      · exact .ok _
      · split
        · exact .ok _
        · exact .error id
  | succ steps ih =>
      rw [searchBelow]
      split
      · exact .ok _
      · split
        · exact .ok _
        · exact Spares.bind ((spares_link _ _).mapError fun _ h => h) ih

theorem spares_isStacked (pool : FramePool) (frame : PhysPage) (memory : Memory) :
    Spares Stop.OfPool (pool.isStacked frame memory) := spares_searchBelow _ _ _ _

theorem spares_isOut (pool : FramePool) (frame : PhysPage) (memory : Memory) :
    Spares Stop.OfPool (pool.isOut frame memory) := by
  rw [isOut]
  split
  · exact (pool.spares_isStacked frame memory).bind fun _ => .ok _
  · exact .ok _

-- What the pool does with its frames has nothing to do with who uses it.

theorem unrefused_set (pool : FramePool) :
    Unrefused Anything (Action.onSecond (set pool) : Action (Machine × FramePool) PUnit) :=
  fun _ _ => trivial

theorem unrefused_take : Unrefused Anything take := by
  refine Unrefused.get.bind fun (_, pool) => ?_
  dsimp only
  cases pool.top with
  | none =>
      dsimp only
      split
      · exact .pure _
      · exact (unrefused_set _).bind fun _ => .pure _
  | some frame =>
      refine (Unrefused.anything_onFirst (Machine.unrefused_inspect (spares_link frame))).bind
        fun word => (unrefused_set _).bind fun _ => ?_
      split
      · exact (unrefused_set _).bind fun _ => .pure _
      · exact .anything_onFirst (Machine.unrefused_fail (by simp))

theorem unrefused_giveBack (frame : PhysPage) : Unrefused Anything (giveBack frame) := by
  refine Unrefused.get.bind fun (_, pool) => ?_
  refine (Unrefused.anything_onFirst (Machine.unrefused_consult (spares_isOut pool frame))).bind
    fun out => ?_
  split
  · exact (Unrefused.anything_onFirst ((Machine.unrefused_reach _).bind fun _ =>
      Machine.unrefused_change _)).bind fun _ => unrefused_set _
  · exact .anything_onFirst (Machine.unrefused_fail (by simp))

end FramePool

namespace Kernel

theorem unrefused_withPool {action : Action (Machine × FramePool) α} (h : Unrefused Anything action) :
    Unrefused Open (withPool action) := by
  intro kernel ⟨pool, hpool⟩
  have haction := h (kernel.machine, pool) trivial
  cases hrun : action.run (kernel.machine, pool) with
  | ok a after =>
      rw [run_withPool_ok hpool hrun]
      exact ⟨after.2, rfl⟩
  | error stop after =>
      rw [run_withPool_error hpool hrun]
      rwa [hrun] at haction

theorem unrefused_onMachine {action : Action Machine α} (h : Unrefused Anything action) :
    Unrefused Open (onMachine action) := by
  intro kernel hopen
  have haction := h kernel.machine trivial
  rw [run_onMachine]
  cases hrun : action.run kernel.machine with
  | ok a machine => exact hopen
  | error stop machine => rwa [hrun] at haction

theorem unrefused_fail {cause : Fault} (h : cause ≠ .reentrant) :
    Unrefused Open (fail cause : Action Kernel α) := fun _ _ heq => h (Stop.fault.inj heq)

theorem unrefused_initFrames (kernelEnd memoryEnd : UInt64) :
    Unrefused Open (initFrames kernelEnd memoryEnd) := by
  refine (Unrefused.modify ?_).bind fun _ => (unrefused_withPool ?_).bind fun _ => ?_
  · rintro ⟨machine, shared⟩ ⟨pool, hpool⟩
    subst hpool
    exact ⟨pool, rfl⟩
  · refine (Unrefused.anything_onFirst (Machine.unrefused_inspect fun _ => ?_)).bind
      fun pool => FramePool.unrefused_set pool
    rw [FramePool.between]
    split
    · exact .ok _
    · exact .error id
  · exact unrefused_onMachine (Machine.unrefused_report _)

theorem unrefused_initFrameRange (low high : UInt64) : Unrefused Open (initFrameRange low high) := by
  refine (unrefused_onMachine (Machine.unrefused_inspect fun memory => ?_)).bind
    fun _ => unrefused_initFrames _ _
  split
  · exact .ok _
  · exact .error id

theorem unrefused_remainingFrames : Unrefused Open remainingFrames :=
  unrefused_withPool fun _ _ => trivial

theorem unrefused_takeFrame : Unrefused Open takeFrame := unrefused_withPool FramePool.unrefused_take

theorem unrefused_giveBackFrame (frame : PhysPage) : Unrefused Open (giveBackFrame frame) :=
  unrefused_withPool (FramePool.unrefused_giveBack frame)

theorem unrefused_isStackedFrame (frame : PhysPage) : Unrefused Open (isStackedFrame frame) :=
  unrefused_withPool (Unrefused.get.bind fun (_, pool) =>
    .anything_onFirst (Machine.unrefused_consult (pool.spares_isStacked frame)))

end Kernel

namespace OwnedFrame

open Kernel (Open)

theorem unrefused_claim (page : PhysPage) : Unrefused Anything (claim page) :=
  (Machine.unrefused_reach _).bind fun _ => (Machine.unrefused_change _).bind fun _ => .pure _

theorem spares_release (frame : OwnedFrame) : Spares Fault.OfPool frame.release := by
  rw [release]
  split
  · exact .ok _
  · exact .error id

theorem unrefused_take : Unrefused Open take := by
  refine Kernel.unrefused_takeFrame.bind fun page? => ?_
  cases page? with
  | none => exact .pure _
  | some page => exact (Kernel.unrefused_onMachine (unrefused_claim page)).bind fun _ => .pure _

theorem unrefused_drop (frame : OwnedFrame) : Unrefused Open frame.drop := by
  rw [drop]
  split
  · exact Kernel.unrefused_giveBackFrame _
  · exact .pure _

end OwnedFrame

namespace SelfTest

open Kernel (Open)

theorem unrefused_takeAll (count : Nat) : Unrefused Open (takeAll count) := by
  induction count with
  | zero => exact .pure _
  | succ count ih =>
      refine OwnedFrame.unrefused_take.bind fun frame? => ?_
      cases frame? with
      | none => exact Kernel.unrefused_fail (by simp)
      | some frame =>
          refine (Kernel.unrefused_onMachine (Machine.unrefused_report _)).bind fun _ => ?_
          exact ih.bind fun _ => .pure _

theorem unrefused_dropAll (frames : List OwnedFrame) : Unrefused Open (dropAll frames) := by
  induction frames with
  | nil => exact .pure _
  | cons frame rest ih => exact (OwnedFrame.unrefused_drop frame).bind fun _ => ih

theorem unrefused_round : Unrefused Open round :=
  (unrefused_takeAll frameCount).bind unrefused_dropAll

theorem unrefused_run : Unrefused Open run :=
  unrefused_round.bind fun _ => unrefused_round.bind fun _ =>
    Kernel.unrefused_onMachine (Machine.unrefused_report _)

end SelfTest

theorem Kernel.unrefused_takeNode {missing : Fault} (h : missing ≠ .reentrant) :
    Unrefused Open (takeNode missing) := by
  refine OwnedFrame.unrefused_take.bind fun frame? => ?_
  cases frame? with
  | none => exact unrefused_fail h
  | some frame =>
      exact unrefused_onMachine (Machine.unrefused_inspect fun _ => frame.spares_release)

end PagedMemory
