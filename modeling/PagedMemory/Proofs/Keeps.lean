import PagedMemory.Proofs.Action

namespace PagedMemory

variable {σ α β : Type}

-- The state that an action leaves behind, whether it has a result or stops.
def Action.left (action : Action σ α) (s : σ) : σ :=
  match action.run s with
  | .ok _ t => t
  | .error _ t => t

theorem Action.left_of_ok {action : Action σ α} {s t : σ} {a : α} (h : action.run s = .ok a t) :
    action.left s = t := by
  rw [left, h]

theorem Action.left_of_error {action : Action σ α} {s t : σ} {stop : Stop}
    (h : action.run s = .error stop t) : action.left s = t := by
  rw [left, h]

-- An action that changes the state no more than a relation allows, even if it stops.
def Keeps (related : σ → σ → Prop) (action : Action σ α) : Prop := ∀ s, related s (action.left s)

namespace Keeps

variable {related : σ → σ → Prop} {action : Action σ α} {next : α → Action σ β}

theorem pure (hrefl : ∀ s, related s s) (a : α) :
    Keeps related (Pure.pure a : Action σ α) := fun s => hrefl s

theorem bind (htrans : ∀ {r s t}, related r s → related s t → related r t)
    (h : Keeps related action) (hnext : ∀ a, Keeps related (next a)) :
    Keeps related (action >>= next) := by
  intro r
  have hfirst := h r
  cases hrun : action.run r with
  | ok a s =>
      rw [Action.left_of_ok hrun] at hfirst
      have hboth : (action >>= next).left r = (next a).left s := by
        rw [Action.left, Action.left, Action.run_bind_ok hrun]
      rw [hboth]
      exact htrans hfirst (hnext a s)
  | error stop s =>
      rw [Action.left_of_error hrun] at hfirst
      rwa [Action.left_of_error (Action.run_bind_error hrun)]

end Keeps

-- Two machines with the same memory.
def Machine.SameMemory (machine machine' : Machine) : Prop := machine'.memory = machine.memory

-- Whoever asks about memory leaves it alone, whatever the answer.

theorem Machine.keeps_consult (question : Memory → Except Stop α) :
    Keeps SameMemory (consult question) := by
  intro machine
  simp only [SameMemory, Action.left, EStateM.run, consult]
  cases question machine.memory with
  | ok a => rfl
  | error reason => cases reason <;> rfl

theorem Machine.keeps_inspect (question : Memory → Except Fault α) :
    Keeps SameMemory (inspect question) := keeps_consult _

namespace Session

-- Two sessions with the same memory and the same pool.
def Untouched (session after : Session) : Prop :=
  after.kernel.machine.memory = session.kernel.machine.memory ∧
    after.kernel.pool = session.kernel.pool

theorem untouched_refl (session : Session) : session.Untouched session := ⟨rfl, rfl⟩

theorem untouched_trans {session between after : Session} (h : session.Untouched between)
    (h' : between.Untouched after) : session.Untouched after :=
  ⟨h'.1.trans h.1, h'.2.trans h.2⟩

-- Memory, the pool and all tables are as they were.
def Intact (session after : Session) : Prop :=
  session.Untouched after ∧ ∀ slot, after.tables.get? slot = session.tables.get? slot

theorem keeps_required (object? : Option α) : Keeps Untouched (required object?) := by
  intro session
  cases object? <;> exact untouched_refl session

theorem keeps_onMachine {action : Action Machine α} (h : Keeps Machine.SameMemory action) :
    Keeps Untouched (onMachine action) := by
  intro session
  have hmachine := h session.kernel.machine
  rw [Action.left] at hmachine ⊢
  rw [onMachine, run_onKernel, Kernel.run_onMachine]
  cases hrun : action.run session.kernel.machine with
  | ok a machine =>
      rw [hrun] at hmachine
      exact ⟨hmachine, rfl⟩
  | error stop machine =>
      rw [hrun] at hmachine
      exact ⟨hmachine, rfl⟩

end Session

end PagedMemory
