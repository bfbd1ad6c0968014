import PagedMemory.Proofs.Session.Run

namespace PagedMemory

theorem OwnedFrame.holds_disowned (frame : OwnedFrame) : frame.disowned.holds = [] := rfl

namespace Session

variable {session : Session} {low high slot target : Nat} {loose free : List PhysPage}
  {frame : OwnedFrame}

-- Contents of memory are compared here and never computed.
attribute [local irreducible] Memory.entry Memory.frame Memory.fillFrame Memory.setWord

theorem heldFrames_perm (h : Accounts low high session loose free)
    (hget : session.frames.get? slot = some frame) :
    session.heldFrames.Perm (frame.holds ++ (session.frames.erase slot).total OwnedFrame.holds) :=
  Slots.total_perm slot h.frameSlots hget

namespace Accounts

theorem quiet_frame (slot : Nat) : Quiet Eq (Session.frame slot) :=
  fun session => quiet_required (session.frames.get? slot) session

theorem sound_frame_page (h : Accounts low high session loose free) :
    Sound low high loose session (.frame slot .page) :=
  h.sound_of_quiet ((quiet_frame slot).bind Eq.trans fun _ => .pure (fun _ => rfl) _)
    (fun _ => rfl) fun _ _ => rfl

theorem sound_frame_text (h : Accounts low high session loose free) :
    Sound low high loose session (.frame slot .text) :=
  h.sound_of_quiet ((quiet_frame slot).bind Eq.trans fun _ => .pure (fun _ => rfl) _)
    (fun _ => rfl) fun _ _ => rfl

-- Either no frame is free, or the first one is filled with zeros and handed out.

theorem step_frame_take_nil (h : Accounts low high session loose []) (slot : Nat) :
    (step (.frame slot .take)).run session = .ok .missing session :=
  Action.run_bind_ok (run_onKernel_ok (OwnedFrame.run_take_nil h.offers))

theorem step_frame_take_cons {page : PhysPage} {rest : List PhysPage}
    (h : Accounts low high session loose (page :: rest)) (slot : Nat) :
    ∃ kernel', (step (.frame slot .take)).run session = .ok (.page page)
        { session with kernel := kernel', frames := session.frames.set slot ⟨page, true⟩ } ∧
      kernel'.machine.memory = session.kernel.machine.memory.fillFrame page 0 ∧
      kernel'.Offers low high rest := by
  obtain ⟨kernel', htake, hmachine, hoffers⟩ := OwnedFrame.run_take_cons h.offers
  exact ⟨kernel', Action.run_bind_ok (run_onKernel_ok htake), congrArg Machine.memory hmachine,
    hoffers⟩

-- The frame that is taken belongs to a new owner.
theorem sound_frame_take (h : Accounts low high session loose free)
    (hempty : session.frames.get? slot = none) :
    Sound low high loose session (.frame slot .take) := by
  cases free with
  | nil =>
      exact .of_ok .missing _ (h.step_frame_take_nil slot)
        (h.carries rfl h.offers (fun _ _ _ _ => rfl) h.frameSlots (List.Perm.refl _) fun _ => rfl)
  | cons page rest =>
      obtain ⟨kernel', hrun, hmemory, hoffers⟩ := h.step_frame_take_cons slot
      refine .of_ok _ _ hrun
        (h.carries rfl hoffers (fun other hfree _ _ => ?_) (h.frameSlots.set _ _) ?_ fun _ => rfl)
      · have hne : other ≠ page := fun heq => hfree (heq ▸ List.mem_cons_self)
        change kernel'.machine.memory.frame other = _
        rw [hmemory]
        exact Memory.frame_fillFrame_other hne
      · have hheld : (session.frames.set slot ⟨page, true⟩).total OwnedFrame.holds =
            page :: session.heldFrames := by
          rw [Slots.total_set, Slots.erase_of_get?_none hempty]
          rfl
        change ((rest ++ (session.frames.set slot ⟨page, true⟩).total OwnedFrame.holds) ++ loose).Perm
          ((page :: rest ++ session.heldFrames) ++ loose)
        rw [hheld]
        exact List.perm_middle.append_right loose

-- The end of an owner returns its frame.

theorem step_frame_drop_of_owned (h : Accounts low high session loose free)
    (hget : session.frames.get? slot = some frame) (howned : frame.owned = true) :
    ∃ kernel', (step (.frame slot .drop)).run session = .ok .done
        { session with kernel := kernel', frames := session.frames.erase slot } ∧
      Kernel.Returned low high session.kernel kernel' [frame.page] free := by
  obtain ⟨kernel', hgive, hreturned⟩ :=
    Kernel.run_giveBack h.offers (h.out_of_given (Or.inl (held_mem hget howned)))
  have hdrop : (onKernel frame.drop).run session = .ok () { session with kernel := kernel' } := by
    rw [run_onKernel, OwnedFrame.drop, if_pos howned, hgive]
  exact ⟨kernel', (Action.run_bind_ok (run_frame_some hget)).trans (Action.run_bind_ok hdrop),
    hreturned⟩

theorem step_frame_drop_of_disowned (hget : session.frames.get? slot = some frame)
    (hdisowned : frame.owned = false) :
    (step (.frame slot .drop)).run session =
      .ok .done { session with frames := session.frames.erase slot } := by
  have hdrop : (onKernel frame.drop).run session = .ok () session := by
    rw [run_onKernel, OwnedFrame.drop, hdisowned, if_neg Bool.false_ne_true, EStateM.run_pure]
  exact (Action.run_bind_ok (run_frame_some hget)).trans (Action.run_bind_ok hdrop)

theorem sound_frame_drop (h : Accounts low high session loose free) :
    Sound low high loose session (.frame slot .drop) := by
  cases hget : session.frames.get? slot with
  | none => exact .of_error (Action.run_bind_error (run_frame_none hget)) id
  | some frame =>
      have hperm := heldFrames_perm h hget
      cases howned : frame.owned with
      | true =>
          obtain ⟨kernel', hstep, hreturned⟩ := h.step_frame_drop_of_owned hget howned
          refine .of_ok .done _ hstep (h.carries rfl hreturned.offers (fun other _ hfree _ => ?_)
            (h.frameSlots.erase _) ?_ fun _ => rfl)
          · exact hreturned.spared other fun hin => hfree (List.mem_append_left _ hin)
          · rw [OwnedFrame.holds_of_owned howned] at hperm
            refine List.Perm.append_right loose (List.Perm.trans ?_ (hperm.symm.append_left free))
            exact List.perm_middle.symm
      | false =>
          refine .of_ok .done _ (step_frame_drop_of_disowned hget howned)
            (h.carries rfl h.offers (fun _ _ _ _ => rfl) (h.frameSlots.erase _) ?_ fun _ => rfl)
          rw [OwnedFrame.holds_of_disowned howned, List.nil_append] at hperm
          exact (hperm.symm.append_left free).append_right loose

-- The duty moves on to an empty slot.
theorem sound_frame_move (h : Accounts low high session loose free)
    (hempty : session.frames.get? target = none) :
    Sound low high loose session (.frame slot (.move target)) := by
  cases hget : session.frames.get? slot with
  | none => exact .of_error (Action.run_bind_error (run_frame_none hget)) id
  | some frame =>
      have hframe := run_frame_some hget
      have hne : target ≠ slot := fun heq => by rw [heq, hget] at hempty; cases hempty
      refine .of_ok (.page frame.page)
        { session with frames := (session.frames.set slot frame.disowned).set target frame }
        (Action.run_bind_ok hframe) (h.carries rfl h.offers (fun _ _ _ _ => rfl)
          ((h.frameSlots.set _ _).set _ _) ?_ fun _ => rfl)
      have hheld : ((session.frames.set slot frame.disowned).set target frame).total
          OwnedFrame.holds = frame.holds ++ (session.frames.erase slot).total OwnedFrame.holds :=
        Slots.total_move hne hempty frame.holds_disowned
      have hperm := heldFrames_perm h hget
      rw [← hheld] at hperm
      exact (hperm.symm.append_left free).append_right loose

-- A released frame goes to somebody outside.
theorem sound_frame_release (h : Accounts low high session loose free) :
    Sound low high loose session (.frame slot .release) := by
  cases hget : session.frames.get? slot with
  | none => exact .of_error (Action.run_bind_error (run_frame_none hget)) id
  | some frame =>
      have hframe := run_frame_some hget
      by_cases howned : frame.owned = true
      · have hrelease : (onMachine (Machine.check frame.release)).run session =
            .ok frame.page session := by
          rw [onMachine, run_onKernel, Kernel.run_onMachine, OwnedFrame.release, if_pos howned,
            Machine.run_check_ok]
        refine .of_ok (.page frame.page)
          { session with frames := session.frames.set slot frame.disowned }
          ((Action.run_bind_ok hframe).trans (Action.run_bind_ok hrelease))
          (h.carries rfl h.offers (fun _ _ _ _ => rfl) (h.frameSlots.set _ _) ?_ fun _ => rfl)
        have hholds := OwnedFrame.holds_of_owned howned
        have hperm := heldFrames_perm h hget
        have hheld : (session.frames.set slot frame.disowned).total OwnedFrame.holds =
            (session.frames.erase slot).total OwnedFrame.holds := by
          rw [Slots.total_set, OwnedFrame.holds_disowned, List.nil_append]
        rw [hholds, ← hheld] at hperm
        have hmoved := (hperm.append_left free).append_right loose
        refine List.Perm.trans ?_ hmoved.symm
        rw [List.singleton_append]
        exact List.perm_middle.trans (List.perm_middle.append_right loose).symm
      · have hrelease : (onMachine (Machine.check frame.release)).run session =
            .error (.fault .notOwned) session := by
          rw [onMachine, run_onKernel, Kernel.run_onMachine, OwnedFrame.release, if_neg howned,
            Machine.run_check_error, Fault.lines_eq_nil rfl, List.append_nil]
        exact .of_error ((Action.run_bind_ok hframe).trans (Action.run_bind_error hrelease)) id

end Accounts

end Session

end PagedMemory
