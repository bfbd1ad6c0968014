import PagedMemory.Proofs.Action

namespace PagedMemory

-- The pool found a frame that it did not expect: one that was returned twice, or a broken stack.

def Fault.BlamesPool : Fault → Prop
  | .notAllocated _ => True
  | .brokenLink _ _ _ => True
  | _ => False

def Stop.BlamesPool : Stop → Prop
  | .fault cause => cause.BlamesPool
  | _ => False

-- Faults that only the users of the shared pool meet.

def Fault.OfPool : Fault → Prop
  | .notBuilt => True
  | .reentrant => True
  | .notAllocated _ => True
  | .brokenLink _ _ _ => True
  | _ => False

def Stop.OfPool : Stop → Prop
  | .fault cause => cause.OfPool
  | _ => False

theorem Stop.ofPool_of_blamesPool {stop : Stop} (h : stop.BlamesPool) : stop.OfPool := by
  cases stop with
  | fault cause => cases cause <;> first | exact h | exact trivial
  | endless => exact h
  | absent => exact h

variable {ε ε' σ τ α β : Type}

-- A question that is answered, or not answered for a reason that is not a bad one.
def Spares (bad : ε → Prop) (answer : Except ε α) : Prop := ∀ e, answer = .error e → ¬bad e

namespace Spares

variable {bad : ε → Prop} {bad' : ε' → Prop} {answer : Except ε α} {next : α → Except ε β}

theorem ok (a : α) : Spares bad (.ok a : Except ε α) := fun _ h => by cases h

theorem error {e : ε} (h : ¬bad e) : Spares bad (.error e : Except ε α) := fun _ heq => by
  cases heq
  exact h

theorem bind (h : Spares bad answer) (hnext : ∀ a, Spares bad (next a)) :
    Spares bad (answer >>= next) := by
  cases answer with
  | ok a => exact hnext a
  | error e => exact error (h e rfl)

theorem mapError {f : ε → ε'} (h : Spares bad answer) (hf : ∀ e, ¬bad e → ¬bad' (f e)) :
    Spares bad' (answer.mapError f) := by
  cases answer with
  | ok a => exact ok a
  | error e => exact error (hf e (h e rfl))

theorem mapM {f : α → Except ε β} (hf : ∀ a, Spares bad (f a)) (as : List α) :
    Spares bad (as.mapM f) := by
  induction as with
  | nil => exact ok []
  | cons a as ih =>
      rw [List.mapM_cons]
      exact (hf a).bind fun b => ih.bind fun bs => ok (b :: bs)

end Spares

-- An action that changes the state no more than a relation allows, and never stops on account of the
-- pool.
def Quiet (related : σ → σ → Prop) (action : Action σ α) : Prop :=
  ∀ s, match action.run s with
    | .ok _ t => related s t
    | .error stop _ => ¬stop.OfPool

namespace Quiet

variable {related : σ → σ → Prop} {action : Action σ α} {next : α → Action σ β}

theorem pure (hrefl : ∀ s, related s s) (a : α) :
    Quiet related (Pure.pure a : Action σ α) := fun s => hrefl s

theorem bind (htrans : ∀ {r s t}, related r s → related s t → related r t)
    (h : Quiet related action) (hnext : ∀ a, Quiet related (next a)) :
    Quiet related (action >>= next) := by
  intro r
  have hfirst := h r
  cases hrun : action.run r with
  | ok a s =>
      rw [hrun] at hfirst
      rw [Action.run_bind_ok hrun]
      have hsecond := hnext a s
      cases hrun' : (next a).run s with
      | ok b t =>
          rw [hrun'] at hsecond
          exact htrans hfirst hsecond
      | error stop t =>
          rw [hrun'] at hsecond
          exact hsecond
  | error stop s =>
      rw [hrun] at hfirst
      rw [Action.run_bind_error hrun]
      exact hfirst

theorem ok {s t : σ} {a : α} (h : Quiet related action) (hrun : action.run s = .ok a t) :
    related s t := by
  have hs := h s
  rwa [hrun] at hs

theorem error {s t : σ} {stop : Stop} (h : Quiet related action)
    (hrun : action.run s = .error stop t) : ¬stop.OfPool := by
  have hs := h s
  rwa [hrun] at hs

theorem not_blamesPool {s t : σ} {stop : Stop} (h : Quiet related action)
    (hrun : action.run s = .error stop t) : ¬stop.BlamesPool :=
  fun hstop => h.error hrun (Stop.ofPool_of_blamesPool hstop)

theorem mono {related' : σ → σ → Prop} (h : Quiet related action)
    (himp : ∀ {s t}, related s t → related' s t) : Quiet related' action := by
  intro s
  have hs := h s
  cases hrun : action.run s with
  | ok a t =>
      rw [hrun] at hs
      exact himp hs
  | error stop t =>
      rw [hrun] at hs
      exact hs

end Quiet

namespace Machine

theorem quiet_consult {question : Memory → Except Stop α}
    (h : ∀ memory, Spares Stop.OfPool (question memory)) : Quiet Eq (consult question) := by
  intro machine
  cases hanswer : question machine.memory with
  | ok a => rw [run_consult_ok hanswer]
  | error reason =>
      have hspares := h machine.memory reason hanswer
      cases reason with
      | fault cause => simpa only [EStateM.run, consult, hanswer, stop] using hspares
      | endless => simpa only [EStateM.run, consult, hanswer, stop] using hspares
      | absent => simpa only [EStateM.run, consult, hanswer, stop] using hspares

theorem quiet_inspect {question : Memory → Except Fault α}
    (h : ∀ memory, Spares Fault.OfPool (question memory)) : Quiet Eq (inspect question) :=
  quiet_consult fun memory => (h memory).mapError fun _ hcause => hcause

theorem quiet_fail {related : Machine → Machine → Prop} {cause : Fault} (h : ¬cause.OfPool) :
    Quiet related (fail cause : Action Machine α) := fun _ => h

end Machine

theorem Memory.spares_reach (memory : Memory) (a : PhysAddr) :
    Spares Fault.OfPool (memory.reach a) := by
  rw [reach]
  split
  · exact .ok _
  · exact .error id

namespace Session

theorem quiet_onMachine {action : Action Machine α} {related : Machine → Machine → Prop}
    (h : Quiet related action) :
    Quiet (fun session after => related session.kernel.machine after.kernel.machine ∧
      after = { session with kernel := ⟨after.kernel.machine, session.kernel.pool⟩ })
      (onMachine action) := by
  intro session
  have hmachine := h session.kernel.machine
  rw [onMachine, run_onKernel, Kernel.run_onMachine]
  cases hrun : action.run session.kernel.machine with
  | ok a machine =>
      rw [hrun] at hmachine
      exact ⟨hmachine, rfl⟩
  | error stop machine =>
      rw [hrun] at hmachine
      exact hmachine

theorem quiet_inspect {question : Memory → Except Fault α}
    (h : ∀ memory, Spares Fault.OfPool (question memory)) :
    Quiet Eq (onMachine (Machine.inspect question)) :=
  (quiet_onMachine (Machine.quiet_inspect h)).mono fun {session after} hrelated => by
    rw [hrelated.2, ← hrelated.1]

theorem quiet_required (object? : Option α) : Quiet Eq (required object?) := by
  intro session
  cases object? with
  | some object => rfl
  | none => exact id

end Session

end PagedMemory
