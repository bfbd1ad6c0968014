import PagedMemory.Proofs.Frame.WholeFrames
import PagedMemory.Proofs.Session.ClientSteps
import PagedMemory.Proofs.Session.FrameSteps
import PagedMemory.Proofs.Session.PoolSteps

namespace PagedMemory

namespace Kernel

variable {kernelEnd memoryEnd : UInt64}

-- A new pool offers all its frames, from the lowest up.
theorem run_initFrames_of_le (memory : Memory) (low high : PhysPage)
    (hlow : low = (PhysAddr.ofNat kernelEnd.toNat).pageCeil)
    (hhigh : high = (PhysAddr.ofNat memoryEnd.toNat).page)
    (hwindow : high.number ≤ memory.frames) (hle : low.number ≤ high.number) :
    ∃ kernel', (initFrames kernelEnd memoryEnd).run (boot memory) = .ok () kernel' ∧
      kernel'.machine.memory = memory ∧
      kernel'.Offers low.number high.number (PhysPage.upTo low.number high.number) := by
  subst hlow hhigh
  have hbetween := FramePool.between_of_le hle
  obtain ⟨hhands, -, -⟩ := FramePool.handsOut_of_between hbetween hwindow
  have hrun := run_initFrames_of_between _ _ (unheld_boot memory) hbetween
  exact ⟨_, hrun, rfl, _, rfl, rfl, rfl, hhands⟩

theorem run_initFrames_of_lt (memory : Memory) (low high : PhysPage)
    (hlow : low = (PhysAddr.ofNat kernelEnd.toNat).pageCeil)
    (hhigh : high = (PhysAddr.ofNat memoryEnd.toNat).page) (hlt : high.number < low.number) :
    ∃ kernel', (initFrames kernelEnd memoryEnd).run (boot memory) =
      .error (.fault .framesReversed) kernel' := by
  subst hlow hhigh
  exact run_initFrames_of_reversed (unheld_boot memory) (if_neg (Nat.not_le_of_lt hlt))

end Kernel

namespace Session

variable {session : Session} {low high : Nat} {loose free : List PhysPage} {history : List Event}
  {command : Command}

-- Nothing a well-behaved client does breaks the accounts.
theorem Accounts.sound (h : Accounts low high session loose free)
    (hpermitted : session.Permitted loose command) : Sound low high loose session command := by
  cases command with
  | shared command =>
      cases command with
      | remaining => exact h.sound_remaining
      | selfTest => exact h.sound_selfTest
      | take => exact h.sound_take
      | giveBack frame => exact h.sound_giveBack hpermitted
      | isStacked frame => exact h.sound_isStacked
      | init kernelEnd memoryEnd => exact hpermitted.elim
      | initRange low high => exact hpermitted.elim
      | hold => exact hpermitted.elim
      | letGo => exact hpermitted.elim
      | remainingHeld => exact hpermitted.elim
  | pool slot command => exact hpermitted.elim
  | frame slot command =>
      cases command with
      | take => exact h.sound_frame_take hpermitted
      | claim page => exact hpermitted.elim
      | drop => exact h.sound_frame_drop
      | move target => exact h.sound_frame_move hpermitted
      | release => exact h.sound_frame_release
      | page => exact h.sound_frame_page
      | text => exact h.sound_frame_text
  | table slot command =>
      cases command with
      | create => exact h.sound_create hpermitted
      | view space => exact h.sound_view hpermitted
      | drop => exact h.sound_drop
      | move target => exact h.sound_move hpermitted
      | describe => exact h.sound_describe
      | map page frame flags => exact h.sound_map
      | unmap page => exact h.sound_unmap hpermitted
      | translate page => exact h.sound_translate
      | translateAddr address => exact h.sound_translateAddr
      | find page => exact h.sound_find
      | findOrBuild page => exact h.sound_findOrBuild
      | poke page entry => exact hpermitted.elim
  | memory command =>
      exact h.sound_of_confined trivial (quiet_stepMemory command) hpermitted (fun _ => rfl)
        fun _ _ => rfl
  | space space command =>
      exact h.sound_of_confined trivial (quiet_stepSpace space command) hpermitted (fun _ => rfl)
        fun _ _ => rfl
  | range slot command =>
      exact h.sound_of_confined trivial (quiet_stepRange slot command) hpermitted (fun _ => rfl)
        fun _ _ => rfl

theorem step_init_of_ok {memory : Memory} {kernelEnd memoryEnd : UInt64} {kernel' : Kernel}
    (hrun : (Kernel.initFrames kernelEnd memoryEnd).run (Kernel.boot memory) = .ok () kernel') :
    (step (.shared (.init kernelEnd memoryEnd))).run (boot memory) =
      .ok .done { boot memory with kernel := kernel' } :=
  Action.run_bind_ok (run_onKernel_ok hrun)

-- The accounts of a new session: all frames are free.
theorem accounts_init {memory : Memory} {kernelEnd memoryEnd : UInt64} {reply : Reply}
    (hlow : low = (PhysAddr.ofNat kernelEnd.toNat).pageCeil.number)
    (hhigh : high = (PhysAddr.ofNat memoryEnd.toNat).page.number) (hwindow : high ≤ memory.frames)
    (hinit : (step (.shared (.init kernelEnd memoryEnd))).run (boot memory) = .ok reply session) :
    Accounts low high session [] (PhysPage.upTo low high) ∧ ∀ record, session.Agrees record := by
  subst hlow hhigh
  by_cases hle : (PhysAddr.ofNat kernelEnd.toNat).pageCeil.number ≤
      (PhysAddr.ofNat memoryEnd.toNat).page.number
  · obtain ⟨kernel', hrun, -, hoffers⟩ :=
      Kernel.run_initFrames_of_le memory _ _ rfl rfl hwindow hle
    have hreply := (step_init_of_ok hrun).symm.trans hinit
    rw [EStateM.Result.ok.injEq] at hreply
    obtain ⟨-, rfl⟩ := hreply
    refine ⟨⟨hoffers, ?_, Slots.distinct_empty, Slots.distinct_empty, ?_⟩, ?_⟩
    · rw [show heldFrames { boot memory with kernel := kernel' } = [] from rfl,
        show nodeFrames { boot memory with kernel := kernel' } = [] from rfl]
      simp
    · intro slot table hget
      cases hget
    · intro record slot table hget
      cases hget
  · obtain ⟨kernel', hrun⟩ :=
      Kernel.run_initFrames_of_lt memory _ _ rfl rfl (Nat.lt_of_not_le hle)
    have hstop : (onKernel (Kernel.initFrames kernelEnd memoryEnd)).run (boot memory) =
        .error (.fault .framesReversed) { boot memory with kernel := kernel' } :=
      run_onKernel_error hrun
    have hreply := (Action.run_bind_error hstop).symm.trans hinit
    cases hreply

-- In every session the accounts are kept, and the tables map what was recorded unless somebody else
-- unmapped a page of theirs.
theorem Run.invariant (hrun : Run low high session history) :
    ∃ free, Accounts low high session (Event.loose history) free ∧
      ((∀ event ∈ history, event.ByOwner) → session.Agrees (Event.record history)) := by
  induction hrun with
  | start hlow hhigh hwindow hinit =>
      obtain ⟨haccounts, hagrees⟩ := accounts_init hlow hhigh hwindow hinit
      exact ⟨_, haccounts, fun _ => hagrees _⟩
  | step _ hpermitted hstep ih =>
      obtain ⟨free, haccounts, hagrees⟩ := ih
      have hsound := haccounts.sound hpermitted
      rw [Sound, hstep] at hsound
      obtain ⟨free', haccounts', hagrees', -⟩ := hsound
      refine ⟨free', haccounts', fun howner => ?_⟩
      obtain ⟨hlast, hpast⟩ := List.forall_mem_cons.mp howner
      exact hagrees' hlast _ (hagrees hpast)

end Session

end PagedMemory
