import PagedMemory.Proofs.Frame.SelfTest
import PagedMemory.Proofs.Session.Run

namespace PagedMemory.Session

variable {session : Session} {low high : Nat} {loose free : List PhysPage} {frame : PhysPage}

-- Contents of memory are compared here and never computed.
attribute [local irreducible] Memory.entry Memory.frame Memory.setWord

theorem step_remaining_of_offers (h : session.kernel.Offers low high free) :
    (step (.shared .remaining)).run session = .ok (.count free.length) session :=
  Action.run_bind_ok (run_onKernel_ok (Kernel.run_remainingFrames h))

namespace Accounts

theorem step_remaining (h : Accounts low high session loose free) :
    (step (.shared .remaining)).run session = .ok (.count free.length) session :=
  step_remaining_of_offers h.offers

theorem sound_remaining (h : Accounts low high session loose free) :
    Sound low high loose session (.shared .remaining) :=
  .of_ok _ _ h.step_remaining (h.carries rfl h.offers (fun _ _ _ _ => rfl) h.frameSlots
    (List.Perm.refl _) fun _ => rfl)

theorem sound_isStacked (h : Accounts low high session loose free) :
    Sound low high loose session (.shared (.isStacked frame)) := by
  obtain ⟨answer, hanswer⟩ := Kernel.run_isStackedFrame h.offers frame
  exact .of_ok _ _ (Action.run_bind_ok (run_onKernel_ok hanswer)) (h.carries rfl h.offers
    (fun _ _ _ _ => rfl) h.frameSlots (List.Perm.refl _) fun _ => rfl)

-- The frame that is taken goes to somebody outside.
theorem sound_take (h : Accounts low high session loose free) :
    Sound low high loose session (.shared .take) := by
  obtain ⟨kernel', htake, hmachine, hoffers, -⟩ := Kernel.run_takeFrame h.offers
  have hrun := run_onKernel_ok htake
  have hspared : ∀ other, kernel'.machine.memory.frame other =
      session.kernel.machine.memory.frame other := fun other => by rw [hmachine]
  cases free with
  | nil =>
      exact .of_ok .missing _ (Action.run_bind_ok hrun)
        (h.carries rfl hoffers (fun other _ _ _ => hspared other) h.frameSlots (List.Perm.refl _)
          fun _ => rfl)
  | cons frame rest =>
      refine .of_ok (.page frame) _ (Action.run_bind_ok hrun)
        (h.carries rfl hoffers (fun other _ _ _ => hspared other) h.frameSlots ?_ fun _ => rfl)
      exact List.perm_middle

-- A frame that was outside comes back.
theorem sound_giveBack (h : Accounts low high session loose free) (hloose : frame ∈ loose) :
    Sound low high loose session (.shared (.giveBack frame)) := by
  obtain ⟨kernel', hgive, hreturned⟩ := Kernel.run_giveBack h.offers (h.out_of_given (Or.inr hloose))
  refine .of_ok _ _ (Action.run_bind_ok (run_onKernel_ok hgive))
    (h.carries rfl hreturned.offers (fun other _ hfree _ => ?_) h.frameSlots ?_ fun _ => rfl)
  · exact hreturned.spared other fun hin => hfree (List.mem_append_left _ hin)
  · have herase := List.perm_cons_erase hloose
    have hmoved : (free ++ session.heldFrames ++ frame :: loose.erase frame).Perm
        (frame :: (free ++ session.heldFrames ++ loose.erase frame)) := List.perm_middle
    exact hmoved.symm.trans (herase.symm.append_left _)

-- The self test returns what it took.
theorem sound_selfTest (h : Accounts low high session loose free) :
    Sound low high loose session (.shared .selfTest) := by
  by_cases hcount : SelfTest.frameCount ≤ free.length
  · obtain ⟨kernel', htest, hoffers', -, hwindow, hspared⟩ := SelfTest.run_run h.offers hcount
    refine .of_ok _ _ (Action.run_bind_ok (run_onKernel_ok htest)) (h.carries rfl hoffers'
      (fun other hfree _ _ => ?_) h.frameSlots (List.Perm.refl _) fun _ => rfl)
    exact hspared other fun hin => hfree (List.mem_of_mem_take hin)
  · obtain ⟨kernel', htest, -⟩ := SelfTest.run_run_of_few h.offers (Nat.lt_of_not_le hcount)
    exact .of_error (Action.run_bind_error (run_onKernel_error htest)) id

end Accounts

end PagedMemory.Session
