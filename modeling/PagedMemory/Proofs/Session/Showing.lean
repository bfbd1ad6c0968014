import PagedMemory.Proofs.Session.Twins

namespace PagedMemory.Session

variable {session twin after : Session} {command : Command} {commands : List Command}
  {reply : Reply}

-- The session after what it logged was shown.
def unlogged (session : Session) : Session :=
  { session with kernel := ⟨⟨session.kernel.machine.memory, []⟩, session.kernel.pool⟩ }

theorem perform_of_ok (hrun : (step command).run session = .ok reply after) :
    perform command session =
      (⟨.ok reply, after.kernel.machine.log, after.free?⟩, after.unlogged) := by
  have hstep : step command session = .ok reply after := hrun
  simp only [perform, hstep]
  rfl

theorem perform_of_error {stop : Stop} (hrun : (step command).run session = .error stop after) :
    perform command session =
      (⟨.error stop, after.kernel.machine.log, after.free?⟩, after.unlogged) := by
  have hstep : step command session = .error stop after := hrun
  simp only [perform, hstep]
  rfl

-- What a list of commands shows, up to the first that stops.
def showing (session : Session) : List Command → List Outcome
  | [] => []
  | command :: rest =>
      let (outcome, after) := perform command session
      match outcome.result with
      | .ok _ => outcome :: after.showing rest
      | .error _ => [outcome]

theorem showing_of_ok (hrun : (step command).run session = .ok reply after) :
    session.showing (command :: commands) =
      ⟨.ok reply, after.kernel.machine.log, after.free?⟩ :: after.unlogged.showing commands := by
  rw [showing, perform_of_ok hrun]

theorem showing_of_error {stop : Stop} (hrun : (step command).run session = .error stop after) :
    session.showing (command :: commands) =
      [⟨.error stop, after.kernel.machine.log, after.free?⟩] := by
  rw [showing, perform_of_error hrun]

-- Whatever keeps two sessions related makes them show the same, one command at a time.
theorem showing_eq_of_mirrored {related : Session → Session → Prop}
    (hend : ∀ after after', related after after' → SameEnd after after')
    (h : Mirrored related SameEnd ((step command).run session) ((step command).run twin))
    (hrest : ∀ reply after after', (step command).run session = .ok reply after →
      related after after' →
        after'.unlogged.showing commands = after.unlogged.showing commands) :
    twin.showing (command :: commands) = session.showing (command :: commands) := by
  cases hrun : (step command).run session with
  | ok reply after =>
      cases hrun' : (step command).run twin with
      | ok reply' after' =>
          rw [hrun, hrun'] at h
          obtain ⟨rfl, hrelated⟩ := h
          obtain ⟨hlog, hfree⟩ := hend _ _ hrelated
          rw [showing_of_ok hrun, showing_of_ok hrun', hrest _ _ _ hrun hrelated, hlog, hfree]
      | error stop after' =>
          rw [hrun, hrun'] at h
          exact h.elim
  | error stop after =>
      cases hrun' : (step command).run twin with
      | ok reply after' =>
          rw [hrun, hrun'] at h
          exact h.elim
      | error stop' after' =>
          rw [hrun, hrun'] at h
          obtain ⟨rfl, hlog, hfree⟩ := h
          rw [showing_of_error hrun, showing_of_error hrun', hlog, hfree]

end PagedMemory.Session
