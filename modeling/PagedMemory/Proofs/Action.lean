import PagedMemory.Session.Basic

namespace PagedMemory

variable {σ τ α β : Type}

namespace Action

@[simp]
theorem run_onFirst (action : Action σ α) (s : σ) (t : τ) :
    (onFirst action : Action (σ × τ) α).run (s, t) =
      match action.run s with
      | .ok a s => .ok a (s, t)
      | .error stop s => .error stop (s, t) := rfl

@[simp]
theorem run_onSecond (action : Action τ α) (s : σ) (t : τ) :
    (onSecond action : Action (σ × τ) α).run (s, t) =
      match action.run t with
      | .ok a t => .ok a (s, t)
      | .error stop t => .error stop (s, t) := rfl

-- After a step that has a result, the action is what is left of it.
theorem run_bind_ok {action : Action σ α} {next : α → Action σ β} {s t : σ} {a : α}
    (h : action.run s = .ok a t) : (action >>= next).run s = (next a).run t := by
  rw [EStateM.run_bind, h]

theorem run_bind_error {action : Action σ α} {next : α → Action σ β} {s t : σ} {stop : Stop}
    (h : action.run s = .error stop t) : (action >>= next).run s = .error stop t := by
  rw [EStateM.run_bind, h]

-- Whatever has a result had one at every step.

theorem run_bind_eq_ok {action : Action σ α} {next : α → Action σ β} {s u : σ} {b : β}
    (h : (action >>= next).run s = .ok b u) :
    ∃ a t, action.run s = .ok a t ∧ (next a).run t = .ok b u := by
  cases hrun : action.run s with
  | ok a t => exact ⟨a, t, rfl, (run_bind_ok hrun).symm.trans h⟩
  | error stop t => cases (run_bind_error hrun).symm.trans h

theorem exists_of_bind_eq_ok {ε : Type} {answer : Except ε α} {next : α → Except ε β} {b : β}
    (h : (answer >>= next) = .ok b) : ∃ a, answer = .ok a ∧ next a = .ok b := by
  cases answer with
  | ok a => exact ⟨a, rfl, h⟩
  | error e => cases h

theorem run_onFirst_eq_ok {action : Action σ α} {s : σ} {t : τ} {a : α} {after : σ × τ}
    (h : (onFirst action : Action (σ × τ) α).run (s, t) = .ok a after) :
    ∃ s', action.run s = .ok a s' ∧ after = (s', t) := by
  rw [run_onFirst] at h
  cases hrun : action.run s with
  | ok a' s' =>
      rw [hrun] at h
      cases h
      exact ⟨s', rfl, rfl⟩
  | error stop s' =>
      rw [hrun] at h
      cases h

end Action

-- What is logged of a fault before the operation halts.
def Fault.lines (fault : Fault) : List LogEntry := fault.logEntry?.toList

-- Most faults speak for themselves.
theorem Fault.lines_eq_nil {fault : Fault} (h : fault.explanation? = none) : fault.lines = [] := by
  rw [lines, logEntry?, h]
  rfl

namespace Machine

@[simp]
theorem run_fail (cause : Fault) (machine : Machine) :
    (fail cause : Action Machine α).run machine =
      .error (.fault cause) ⟨machine.memory, machine.log ++ cause.lines⟩ := rfl

@[simp]
theorem run_change (f : Memory → Memory) (machine : Machine) :
    (change f).run machine = .ok () ⟨f machine.memory, machine.log⟩ := rfl

theorem run_consult_ok {question : Memory → Except Stop α} {machine : Machine} {a : α}
    (h : question machine.memory = .ok a) : (consult question).run machine = .ok a machine := by
  simp only [EStateM.run, consult, h]

theorem run_inspect_ok {question : Memory → Except Fault α} {machine : Machine} {a : α}
    (h : question machine.memory = .ok a) : (inspect question).run machine = .ok a machine :=
  run_consult_ok (by rw [h]; rfl)

theorem run_consult_eq_ok {question : Memory → Except Stop α} {machine machine' : Machine} {a : α}
    (h : (consult question).run machine = .ok a machine') :
    question machine.memory = .ok a ∧ machine' = machine := by
  simp only [EStateM.run, consult] at h
  cases hanswer : question machine.memory with
  | ok a' =>
      simp only [hanswer] at h
      cases h
      exact ⟨rfl, rfl⟩
  | error reason =>
      simp only [hanswer] at h
      cases reason <;> cases h

theorem run_inspect_eq_ok {question : Memory → Except Fault α} {machine machine' : Machine} {a : α}
    (h : (inspect question).run machine = .ok a machine') :
    question machine.memory = .ok a ∧ machine' = machine := by
  obtain ⟨hanswer, rfl⟩ := run_consult_eq_ok h
  cases hquestion : question machine'.memory with
  | ok a' =>
      rw [hquestion] at hanswer
      cases hanswer
      exact ⟨rfl, rfl⟩
  | error cause =>
      rw [hquestion] at hanswer
      cases hanswer

theorem run_consult_error {question : Memory → Except Stop α} {machine : Machine} {stop : Stop}
    (h : question machine.memory = .error stop) :
    ∃ log, (consult question).run machine = .error stop ⟨machine.memory, log⟩ := by
  simp only [EStateM.run, consult, h]
  cases stop <;> exact ⟨_, rfl⟩

theorem run_inspect_error {question : Memory → Except Fault α} {machine : Machine} {cause : Fault}
    (h : question machine.memory = .error cause) :
    (inspect question).run machine =
      .error (.fault cause) ⟨machine.memory, machine.log ++ cause.lines⟩ := by
  simp only [EStateM.run, inspect, consult, h]
  rfl

@[simp]
theorem run_inspect_pure (f : Memory → α) (machine : Machine) :
    (inspect fun memory => pure (f memory)).run machine = .ok (f machine.memory) machine := rfl

@[simp]
theorem run_check_ok (a : α) (machine : Machine) : (check (.ok a)).run machine = .ok a machine :=
  rfl

@[simp]
theorem run_check_error (cause : Fault) (machine : Machine) :
    (check (.error cause : Except Fault α)).run machine =
      .error (.fault cause) ⟨machine.memory, machine.log ++ cause.lines⟩ := rfl

end Machine

namespace Kernel

@[simp]
theorem run_onMachine (action : Action Machine α) (kernel : Kernel) :
    (onMachine action).run kernel =
      match action.run kernel.machine with
      | .ok a machine => .ok a { kernel with machine }
      | .error stop machine => .error stop { kernel with machine } := rfl

@[simp]
theorem run_fail (cause : Fault) (kernel : Kernel) :
    (fail cause : Action Kernel α).run kernel =
      .error (.fault cause)
        ⟨⟨kernel.machine.memory, kernel.machine.log ++ cause.lines⟩, kernel.pool⟩ := rfl

-- A pool that is free is borrowed, and given back with its new value.
theorem run_withPool_ok {action : Action (Machine × FramePool) α} {kernel : Kernel}
    {pool pool' : FramePool} {machine' : Machine} {a : α} (hpool : kernel.pool = ⟨some ⟨pool, false⟩⟩)
    (haction : action.run (kernel.machine, pool) = .ok a (machine', pool')) :
    (withPool action).run kernel = .ok a ⟨machine', ⟨some ⟨pool', false⟩⟩⟩ := by
  obtain ⟨machine, shared⟩ := kernel
  subst hpool
  have hborrow : (Deferred.get ⟨some ⟨pool, false⟩⟩ >>= Exclusive.borrow : Except Fault _) =
      .ok ⟨pool, true⟩ := rfl
  rw [EStateM.run] at haction ⊢
  simp only [withPool, hborrow, haction]
  rfl

-- If whoever has it stops, it is not given back.
theorem run_withPool_error {action : Action (Machine × FramePool) α} {kernel : Kernel} {stop : Stop}
    {pool pool' : FramePool} {machine' : Machine} (hpool : kernel.pool = ⟨some ⟨pool, false⟩⟩)
    (haction : action.run (kernel.machine, pool) = .error stop (machine', pool')) :
    (withPool action).run kernel = .error stop ⟨machine', ⟨some ⟨pool', true⟩⟩⟩ := by
  obtain ⟨machine, shared⟩ := kernel
  subst hpool
  have hborrow : (Deferred.get ⟨some ⟨pool, false⟩⟩ >>= Exclusive.borrow : Except Fault _) =
      .ok ⟨pool, true⟩ := rfl
  rw [EStateM.run] at haction ⊢
  simp only [withPool, hborrow, haction]
  rfl

end Kernel

namespace Session

theorem run_onKernel (action : Action Kernel α) (session : Session) :
    (onKernel action).run session =
      match action.run session.kernel with
      | .ok a kernel => .ok a { session with kernel }
      | .error stop kernel => .error stop { session with kernel } := rfl

variable {session : Session} {a : α} {stop : Stop}

theorem run_onKernel_ok {action : Action Kernel α} {kernel : Kernel}
    (h : action.run session.kernel = .ok a kernel) :
    (onKernel action).run session = .ok a { session with kernel } := by
  rw [run_onKernel, h]

theorem run_onKernel_error {action : Action Kernel α} {kernel : Kernel}
    (h : action.run session.kernel = .error stop kernel) :
    (onKernel action).run session = .error stop { session with kernel } := by
  rw [run_onKernel, h]

theorem run_onMachine_ok {action : Action Machine α} {machine : Machine}
    (h : action.run session.kernel.machine = .ok a machine) :
    (onMachine action).run session =
      .ok a { session with kernel := ⟨machine, session.kernel.pool⟩ } :=
  run_onKernel_ok (by rw [Kernel.run_onMachine, h])

theorem run_onMachine_error {action : Action Machine α} {machine : Machine}
    (h : action.run session.kernel.machine = .error stop machine) :
    (onMachine action).run session =
      .error stop { session with kernel := ⟨machine, session.kernel.pool⟩ } :=
  run_onKernel_error (by rw [Kernel.run_onMachine, h])

theorem run_onMachine_inspect_eq_ok {question : Memory → Except Fault α} {after : Session}
    (h : (onMachine (Machine.inspect question)).run session = .ok a after) :
    question session.kernel.machine.memory = .ok a := by
  cases hquestion : question session.kernel.machine.memory with
  | ok b =>
      rw [run_onMachine_ok (Machine.run_inspect_ok hquestion)] at h
      cases h
      rfl
  | error cause =>
      rw [run_onMachine_error (Machine.run_inspect_error hquestion)] at h
      cases h

end Session

end PagedMemory
