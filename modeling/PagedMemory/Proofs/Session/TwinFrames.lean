import PagedMemory.Proofs.Session.Twins

namespace PagedMemory.Session

variable {session twin : Session} {low high slot target : Nat} {loose free : List PhysPage}
  {frame : PhysPage}

-- Contents of memory are compared here and never computed.
attribute [local irreducible] Memory.entry Memory.frame Memory.fillFrame Memory.setWord

-- A frame of the range that nobody has is free.
theorem Accounts.mem_free (h : Accounts low high session loose free) (hlow : low ≤ frame.number)
    (hhigh : frame.number < high) (hheld : frame ∉ session.heldFrames) (hloose : frame ∉ loose)
    (hnode : frame ∉ session.nodeFrames) : frame ∈ free := by
  have hmem := h.shared.mem_iff.mpr ((PhysPage.mem_upTo h.offers.high_le_pages).mpr ⟨hlow, hhigh⟩)
  simpa only [List.mem_append, hheld, hloose, hnode, or_false] using hmem

namespace Twins

-- Commands to the pool.

theorem mirrors_remaining (h : Twins low high loose free session twin) :
    Mirrors low high (.shared .remaining) session twin :=
  .of_ok h.accounts.step_remaining h.accounts_twin.step_remaining h.alike

-- The test logs the same frames, and writes to free ones only.
theorem mirrors_selfTest (h : Twins low high loose free session twin) :
    Mirrors low high (.shared .selfTest) session twin := by
  by_cases hcount : SelfTest.frameCount ≤ free.length
  · obtain ⟨kernel, hrun, hafter, hlog, hwindow, hspared⟩ := SelfTest.run_run h.offers hcount
    obtain ⟨kernel', hrun', hafter', hlog', hwindow', hspared'⟩ :=
      SelfTest.run_run h.offers_twin hcount
    refine mirrors_of_sound h.accounts.sound_selfTest
      (.of_ok (Action.run_bind_ok (run_onKernel_ok hrun)) (Action.run_bind_ok (run_onKernel_ok hrun'))
        ⟨free, hafter, hafter', ⟨?_, ?_⟩, h.frames, h.tables, h.ranges⟩)
    · rw [hlog, hlog', h.machines.log]
    · refine h.machines.memory.of_spared hwindow hwindow' fun page hsettled => ?_
      have hnot : page ∉ free.take SelfTest.frameCount := fun hmem =>
        hsettled.2.2 (List.mem_of_mem_take hmem)
      exact ⟨hsettled, hspared page hnot, hspared' page hnot⟩
  · have hfew := Nat.lt_of_not_le hcount
    obtain ⟨kernel, hrun, hafter, hlog⟩ := SelfTest.run_run_of_few h.offers hfew
    obtain ⟨kernel', hrun', hafter', hlog'⟩ := SelfTest.run_run_of_few h.offers_twin hfew
    refine .of_error (Action.run_bind_error (run_onKernel_error hrun))
      (Action.run_bind_error (run_onKernel_error hrun')) (sameEnd_of_offers hafter hafter' ?_)
    rw [hlog, hlog', h.machines.log]

-- A frame that was released goes back, and any other is refused.
theorem mirrors_giveBack (h : Twins low high loose free session twin)
    (hproper : session.Proper (.shared (.giveBack frame))) :
    Mirrors low high (.shared (.giveBack frame)) session twin := by
  obtain ⟨hheld, hnode⟩ := hproper
  by_cases hloose : frame ∈ loose
  · have hout := h.accounts.out_of_given (Or.inr hloose)
    obtain ⟨kernel, hrun, hreturned⟩ := Kernel.run_giveBack h.offers hout
    obtain ⟨kernel', hrun', hreturned'⟩ := Kernel.run_giveBack h.offers_twin hout
    exact mirrors_of_sound (h.accounts.sound_giveBack hloose)
      (.of_ok (Action.run_bind_ok (run_onKernel_ok hrun)) (Action.run_bind_ok (run_onKernel_ok hrun'))
        ⟨_, hreturned.offers, hreturned'.offers, h.machines_of_returned hreturned hreturned', h.frames,
          h.tables, h.ranges⟩)
  · have hout : ¬(low ≤ frame.number ∧ frame.number < high ∧ frame ∉ free) :=
      fun ⟨hlow, hhigh, hfree⟩ => hfree (h.accounts.mem_free hlow hhigh hheld hloose hnode)
    obtain ⟨pool, hrun⟩ := Kernel.run_giveBackFrame_refused h.offers hout
    obtain ⟨pool', hrun'⟩ := Kernel.run_giveBackFrame_refused h.offers_twin hout
    exact .of_error (Action.run_bind_error (run_onKernel_error hrun))
      (Action.run_bind_error (run_onKernel_error hrun'))
      ⟨congrArg (· ++ (Fault.notAllocated frame).lines) h.machines.log, rfl⟩

-- Commands to the owners of frames.

-- A frame that is taken is filled first.
theorem mirrors_frame_take (h : Twins low high loose free session twin)
    (hempty : session.frames.get? slot = none) :
    Mirrors low high (.frame slot .take) session twin := by
  cases free with
  | nil =>
      exact .of_ok (h.accounts.step_frame_take_nil slot) (h.accounts_twin.step_frame_take_nil slot)
        h.alike
  | cons page rest =>
      obtain ⟨kernel, hrun, hmachine, hoffers⟩ := OwnedFrame.run_take_cons h.offers
      obtain ⟨kernel', hrun', hmachine', hoffers'⟩ := OwnedFrame.run_take_cons h.offers_twin
      refine mirrors_of_sound (h.accounts.sound_frame_take hempty)
        (.of_ok (Action.run_bind_ok (run_onKernel_ok hrun)) (Action.run_bind_ok (run_onKernel_ok hrun'))
          ⟨rest, hoffers, hoffers', ?_, congrArg (·.set slot ⟨page, true⟩) h.frames, h.tables,
            h.ranges⟩)
      rw [hmachine, hmachine']
      exact h.machines_of_filled

theorem mirrors_frame_drop (h : Twins low high loose free session twin) :
    Mirrors low high (.frame slot .drop) session twin := by
  have hframes : twin.frames.erase slot = session.frames.erase slot :=
    congrArg (·.erase slot) h.frames
  refine mirrors_of_sound h.accounts.sound_frame_drop ?_
  cases hget : session.frames.get? slot with
  | none =>
      exact .of_error (Action.run_bind_error (run_frame_none hget))
        (Action.run_bind_error (run_frame_none (h.frames ▸ hget))) h.sameEnd
  | some frame =>
      have hget' : twin.frames.get? slot = some frame := h.frames ▸ hget
      cases howned : frame.owned with
      | true =>
          obtain ⟨kernel, hstep, hreturned⟩ := h.accounts.step_frame_drop_of_owned hget howned
          obtain ⟨kernel', hstep', hreturned'⟩ := h.accounts_twin.step_frame_drop_of_owned hget' howned
          exact .of_ok hstep hstep' ⟨_, hreturned.offers, hreturned'.offers,
            h.machines_of_returned hreturned hreturned', hframes, h.tables, h.ranges⟩
      | false =>
          exact .of_ok (Accounts.step_frame_drop_of_disowned hget howned)
            (Accounts.step_frame_drop_of_disowned hget' howned)
            ⟨free, { h.toSimilar with frames := hframes }⟩

theorem mirrors_frame_move (h : Twins low high loose free session twin)
    (hempty : session.frames.get? target = none) :
    Mirrors low high (.frame slot (.move target)) session twin := by
  refine mirrors_of_sound (h.accounts.sound_frame_move hempty) ((h.mirrored_frame slot).bind ?_)
  rintro frame _ _ - - ⟨rfl, rfl⟩
  refine .of_ok rfl rfl ⟨free, { h.toSimilar with
    frames := congrArg (fun frames => (frames.set slot frame.disowned).set target frame) h.frames }⟩

theorem mirrors_frame_release (h : Twins low high loose free session twin) :
    Mirrors low high (.frame slot .release) session twin := by
  refine mirrors_of_sound h.accounts.sound_frame_release ((h.mirrored_frame slot).bind ?_)
  rintro frame _ _ - - ⟨rfl, rfl⟩
  refine (h.mirrored_inspect rfl).bind ?_
  rintro page _ _ - - ⟨rfl, rfl⟩
  exact .of_ok rfl rfl ⟨free, { h.toSimilar with
    frames := congrArg (·.set slot frame.disowned) h.frames }⟩

theorem mirrors_frame_page (h : Twins low high loose free session twin) :
    Mirrors low high (.frame slot .page) session twin := by
  refine (h.mirrored_frame slot).bind ?_
  rintro frame _ _ - - ⟨rfl, rfl⟩
  exact .of_ok rfl rfl h.alike

theorem mirrors_frame_text (h : Twins low high loose free session twin) :
    Mirrors low high (.frame slot .text) session twin := by
  refine (h.mirrored_frame slot).bind ?_
  rintro frame _ _ - - ⟨rfl, rfl⟩
  exact .of_ok rfl rfl h.alike

end Twins

end PagedMemory.Session
