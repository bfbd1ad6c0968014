import PagedMemory.Proofs.Frame.Links
import PagedMemory.Proofs.Frame.SelfTest
import PagedMemory.Proofs.Session.Failures
import PagedMemory.Proofs.Session.Progress
import PagedMemory.Proofs.Session.Showing
import PagedMemory.Proofs.Text.Reports

namespace PagedMemory

-- Frames are taken from the pool and returned to it by number, whoever has them, and are counted.
def SharedPoolCommand.Exchanges : SharedPoolCommand → Prop
  | .take => True
  | .giveBack _ => True
  | .remaining => True
  | _ => False

namespace Kernel

-- Frames that are taken one after the other are these, in this order, and then there are none.
def Yields (kernel : Kernel) (free : List PhysPage) : Prop :=
  ∃ after, ((List.replicate (free.length + 1) ()).mapM fun _ => takeFrame).run kernel =
    .ok (free.map some ++ [none]) after

theorem Offers.yields {kernel : Kernel} {low high : Nat} {free : List PhysPage}
    (h : kernel.Offers low high free) : kernel.Yields free := by
  rw [← List.append_nil free] at h
  obtain ⟨emptied, htake, -, hoffers⟩ := run_takeFrames h
  obtain ⟨after, hnone, -⟩ := run_takeFrame hoffers
  refine ⟨after, ?_⟩
  rw [List.replicate_succ', List.mapM_append]
  refine (Action.run_bind_ok htake).trans (Action.run_bind_ok ?_)
  rw [List.mapM_cons]
  exact Action.run_bind_ok hnone

end Kernel

namespace Session

variable {session twin : Session} {low high : Nat} {free rest : List PhysPage} {frame : PhysPage}
  {command : SharedPoolCommand} {commands : List Command}

-- Contents of memory are compared here and never computed.
attribute [local irreducible] Memory.entry Memory.frame Memory.fillFrame Memory.setWord

-- What commands to a pool do that offers these frames.

theorem step_take_of_nil (h : session.kernel.Offers low high []) :
    (step (.shared .take)).run session = .ok .missing session := by
  obtain ⟨kernel', htake, -, -, hnil⟩ := Kernel.run_takeFrame h
  cases hnil rfl
  exact Action.run_bind_ok (run_onKernel_ok htake)

theorem step_take_of_cons (h : session.kernel.Offers low high (frame :: rest)) :
    ∃ kernel', (step (.shared .take)).run session =
        .ok (.page frame) { session with kernel := kernel' } ∧
      kernel'.machine = session.kernel.machine ∧ kernel'.Offers low high rest := by
  obtain ⟨kernel', htake, hmachine, hoffers, -⟩ := Kernel.run_takeFrame h
  exact ⟨kernel', Action.run_bind_ok (run_onKernel_ok htake), hmachine, hoffers⟩

theorem step_giveBack_of_out (h : session.kernel.Offers low high free)
    (hout : low ≤ frame.number ∧ frame.number < high ∧ frame ∉ free) :
    ∃ kernel', (step (.shared (.giveBack frame))).run session =
        .ok .done { session with kernel := kernel' } ∧
      kernel'.machine.log = session.kernel.machine.log ∧
      kernel'.Offers low high (frame :: free) := by
  obtain ⟨kernel', link, hgive, hmachine, hoffers⟩ :=
    Kernel.run_giveBackFrame h hout.1 hout.2.1 hout.2.2
  exact ⟨kernel', Action.run_bind_ok (run_onKernel_ok hgive), by rw [hmachine], hoffers⟩

theorem step_giveBack_of_not_out (h : session.kernel.Offers low high free)
    (hout : ¬(low ≤ frame.number ∧ frame.number < high ∧ frame ∉ free)) :
    ∃ after, (step (.shared (.giveBack frame))).run session =
        .error (.fault (.notAllocated frame)) after ∧
      after.kernel.machine.log = session.kernel.machine.log ++ (Fault.notAllocated frame).lines ∧
      after.free? = none := by
  obtain ⟨pool, hgive⟩ := Kernel.run_giveBackFrame_refused h hout
  exact ⟨_, Action.run_bind_error (run_onKernel_error hgive), rfl, rfl⟩

-- The pools of two sessions offer the same frames in the same order, whatever else they have been
-- through.
def SameOffer (low high : Nat) (session twin : Session) : Prop :=
  ∃ free, session.kernel.Offers low high free ∧ twin.kernel.Offers low high free ∧
    twin.kernel.machine.log = session.kernel.machine.log

namespace SameOffer

theorem sameEnd (h : SameOffer low high session twin) : SameEnd session twin := by
  obtain ⟨free, hoffers, hoffers', hlog⟩ := h
  exact sameEnd_of_offers hoffers hoffers' hlog

theorem unlogged (h : SameOffer low high session twin) :
    SameOffer low high session.unlogged twin.unlogged := by
  obtain ⟨free, hoffers, hoffers', -⟩ := h
  exact ⟨free, hoffers.congr rfl rfl fun _ _ => rfl, hoffers'.congr rfl rfl fun _ _ => rfl, rfl⟩

-- The pool answers by what it offers, and offers the same afterwards.
theorem mirrored (h : SameOffer low high session twin) (hcommand : command.Exchanges) :
    Mirrored (SameOffer low high) SameEnd ((step (.shared command)).run session)
      ((step (.shared command)).run twin) := by
  obtain ⟨free, hoffers, hoffers', hlog⟩ := h
  cases command with
  | remaining =>
      exact .of_ok (step_remaining_of_offers hoffers) (step_remaining_of_offers hoffers')
        ⟨free, hoffers, hoffers', hlog⟩
  | take =>
      cases free with
      | nil =>
          exact .of_ok (step_take_of_nil hoffers) (step_take_of_nil hoffers')
            ⟨[], hoffers, hoffers', hlog⟩
      | cons frame rest =>
          obtain ⟨kernel, hstep, hmachine, hrest⟩ := step_take_of_cons hoffers
          obtain ⟨kernel', hstep', hmachine', hrest'⟩ := step_take_of_cons hoffers'
          refine .of_ok hstep hstep' ⟨rest, hrest, hrest', ?_⟩
          rw [hmachine, hmachine', hlog]
  | giveBack frame =>
      by_cases hout : low ≤ frame.number ∧ frame.number < high ∧ frame ∉ free
      · obtain ⟨kernel, hstep, hkept, hgiven⟩ := step_giveBack_of_out hoffers hout
        obtain ⟨kernel', hstep', hkept', hgiven'⟩ := step_giveBack_of_out hoffers' hout
        refine .of_ok hstep hstep' ⟨frame :: free, hgiven, hgiven', ?_⟩
        rw [hkept, hkept', hlog]
      · obtain ⟨after, hstep, hlines, hheld⟩ := step_giveBack_of_not_out hoffers hout
        obtain ⟨after', hstep', hlines', hheld'⟩ := step_giveBack_of_not_out hoffers' hout
        exact .of_error hstep hstep' ⟨by rw [hlines, hlines', hlog], hheld'.trans hheld.symm⟩
  | init kernelEnd memoryEnd => exact hcommand.elim
  | initRange low high => exact hcommand.elim
  | selfTest => exact hcommand.elim
  | isStacked frame => exact hcommand.elim
  | hold => exact hcommand.elim
  | letGo => exact hcommand.elim
  | remainingHeld => exact hcommand.elim

theorem showing_eq {commands : List SharedPoolCommand} (h : SameOffer low high session twin)
    (hcommands : ∀ command ∈ commands, command.Exchanges) :
    twin.showing (commands.map .shared) = session.showing (commands.map .shared) := by
  induction commands generalizing session twin with
  | nil => rfl
  | cons command rest ih =>
      obtain ⟨hcommand, hrest⟩ := List.forall_mem_cons.mp hcommands
      exact showing_eq_of_mirrored (fun _ _ => sameEnd) (h.mirrored hcommand)
        fun _ _ _ _ hafter => ih hafter.unlogged hrest

end SameOffer

namespace Run

variable {history : List Event}

-- A client that behaves finds a pool that offers something.
theorem offers (hrun : Run low high session history) :
    ∃ free, session.kernel.Offers low high free := by
  obtain ⟨free, haccounts, -⟩ := hrun.invariant
  exact ⟨free, haccounts.offers⟩

-- So it can test the allocator at any time. Unless five frames are left the test runs out of them, and
-- keeps those that there were.
theorem selfTest_ends (hrun : Run low high session history) :
    ∃ count, session.Remaining count ∧
      session.SucceedsWhen (.shared .selfTest) (5 ≤ count) (fun _ after => after.Remaining count) ∧
      session.StopsWhen (.shared .selfTest) .selfTestOutOfFrames (count < 5) (·.Remaining 0) := by
  obtain ⟨free, hoffers⟩ := hrun.offers
  refine ⟨free.length, step_remaining_of_offers hoffers, ?_⟩
  by_cases hcount : 5 ≤ free.length
  · obtain ⟨kernel', htest, hoffers', -⟩ := SelfTest.run_run hoffers hcount
    have hstep : (Session.step (.shared .selfTest)).run session =
        .ok .done { session with kernel := kernel' } :=
      Action.run_bind_ok (run_onKernel_ok htest)
    exact ⟨succeedsWhen_of_ok hstep hcount (step_remaining_of_offers hoffers'),
      stopsWhen_of_ok hstep (Nat.not_lt_of_le hcount)⟩
  · have hfew := Nat.lt_of_not_le hcount
    obtain ⟨kernel', htest, hoffers', -⟩ := SelfTest.run_run_of_few hoffers hfew
    have hstep : (Session.step (.shared .selfTest)).run session =
        .error (.fault .selfTestOutOfFrames) { session with kernel := kernel' } :=
      Action.run_bind_error (run_onKernel_error htest)
    have hnone := step_remaining_of_offers
      (show ({ session with kernel := kernel' } : Session).kernel.Offers low high [] from hoffers')
    exact ⟨succeedsWhen_of_error hstep hcount, stopsWhen_of_error hstep hfew hnone⟩

theorem exists_take (hrun : Run low high session history)
    (hoffers : session.kernel.Offers low high (frame :: rest)) :
    ∃ after, Run low high after (⟨session, .shared .take, .page frame⟩ :: history) ∧
      after.kernel.Offers low high rest := by
  obtain ⟨kernel', hstep, -, hrest⟩ := step_take_of_cons hoffers
  exact ⟨_, hrun.step trivial hstep, hrest⟩

theorem exists_giveBack (hrun : Run low high session history)
    (hoffers : session.kernel.Offers low high free) (hloose : frame ∈ Event.loose history) :
    ∃ after, Run low high after (⟨session, .shared (.giveBack frame), .done⟩ :: history) ∧
      after.kernel.Offers low high (frame :: free) := by
  obtain ⟨others, haccounts, -⟩ := hrun.invariant
  cases haccounts.offers.unique hoffers
  have hout := haccounts.out_of_given (Or.inr hloose)
  obtain ⟨hlow, hhigh⟩ := hout.range frame (List.mem_singleton_self frame)
  obtain ⟨kernel', hstep, -, hgiven⟩ := step_giveBack_of_out hoffers
    ⟨hlow, hhigh, hout.apart frame (List.mem_singleton_self frame)⟩
  exact ⟨_, hrun.step hloose hstep, hgiven⟩

end Run

-- The self test leaves no trace. If five frames are free it completes: it logs the first five in the
-- order in which they would be taken, and then in the reverse order, and says that it passed. After it
-- as many frames are free as before, they would be taken in the same order, and whatever is taken,
-- returned or counted from then on goes the same way as without it. Only the five frames were written
-- to. If fewer are free it halts.
theorem selfTest_leaves_no_trace (hoffers : session.kernel.Offers low high free) :
    session.kernel.Yields free ∧
    (step (.shared .remaining)).run session = .ok (.count free.length) session ∧
    (5 ≤ free.length → ∃ kernel',
      (step (.shared .selfTest)).run session = .ok .done { session with kernel := kernel' } ∧
      kernel'.machine.log = session.kernel.machine.log ++
        (free.take 5 ++ (free.take 5).reverse).map
          (fun page => ⟨.info, OwnedFrame.text ⟨page, true⟩⟩) ++
        [⟨.info, "frame allocator self test passed"⟩] ∧
      kernel'.Yields free ∧
      Kernel.remainingFrames.run kernel' = .ok free.length kernel' ∧
      (∀ commands : List SharedPoolCommand, (∀ command ∈ commands, command.Exchanges) →
        ({ session with kernel := kernel' } : Session).unlogged.showing (commands.map .shared) =
          session.unlogged.showing (commands.map .shared)) ∧
      kernel'.machine.memory.frames = session.kernel.machine.memory.frames ∧
      ∀ frame ∉ free.take 5,
        kernel'.machine.memory.frame frame = session.kernel.machine.memory.frame frame) ∧
    (free.length < 5 → ∃ after,
      (step (.shared .selfTest)).run session = .error (.fault .selfTestOutOfFrames) after ∧
      Fault.selfTestOutOfFrames.message = "frame allocator self test: out of frames") ∧
    ∀ page : PhysPage,
      Format.print "FrameTracker:PPN=%lx".toList [.wideWord (.ofNat page.number)] =
        some (OwnedFrame.text ⟨page, true⟩).toList := by
  refine ⟨hoffers.yields, step_remaining_of_offers hoffers, fun hcount => ?_, fun hfew => ?_,
    fun page => OwnedFrame.print_text ⟨page, true⟩⟩
  · obtain ⟨kernel', htest, hoffers', hlog, hwindow, hspared⟩ := SelfTest.run_run hoffers hcount
    have hsame : SameOffer low high session.unlogged
        ({ session with kernel := kernel' } : Session).unlogged :=
      ⟨free, hoffers.congr rfl rfl fun _ _ => rfl, hoffers'.congr rfl rfl fun _ _ => rfl, rfl⟩
    exact ⟨kernel', Action.run_bind_ok (run_onKernel_ok htest), hlog, hoffers'.yields,
      Kernel.run_remainingFrames hoffers', fun _ => hsame.showing_eq, hwindow, hspared⟩
  · obtain ⟨kernel', htest, -⟩ := SelfTest.run_run_of_few hoffers hfew
    exact ⟨_, Action.run_bind_error (run_onKernel_error htest), rfl⟩

-- Three frames are taken and two of them returned, so that the five come from the stack and from the
-- frames that were never taken.
theorem selfTest_leaves_no_trace_across_stack : ∃ session history kernel',
    Run 1 8 session history ∧
    history.map Event.command = [.shared (.giveBack (.ofNat 2)), .shared (.giveBack (.ofNat 1)),
      .shared .take, .shared .take, .shared .take] ∧
    session.kernel.Offers 1 8 ([2, 1, 4, 5, 6, 7].map .ofNat) ∧
    (step (.shared .selfTest)).run session = .ok .done { session with kernel := kernel' } ∧
    kernel'.Yields ([2, 1, 4, 5, 6, 7].map .ofNat) := by
  obtain ⟨memory, hwindow⟩ : ∃ memory : Memory, 8 ≤ memory.frames := ⟨.filled 8 0, by decide⟩
  obtain ⟨kernel₀, hinit, -, hoffers₀⟩ := Kernel.run_initFrames_of_le memory
    (PhysAddr.ofNat (0x1000 : UInt64).toNat).pageCeil (PhysAddr.ofNat (0x8000 : UInt64).toNat).page
    rfl rfl hwindow (by decide)
  have hrun₀ : Run 1 8 { boot memory with kernel := kernel₀ } [] :=
    .start rfl rfl hwindow (step_init_of_ok hinit)
  have hoffers₀' : kernel₀.Offers 1 8 ([1, 2, 3, 4, 5, 6, 7].map .ofNat) := hoffers₀
  obtain ⟨session₁, hrun₁, hoffers₁⟩ := hrun₀.exists_take hoffers₀'
  obtain ⟨session₂, hrun₂, hoffers₂⟩ := hrun₁.exists_take hoffers₁
  obtain ⟨session₃, hrun₃, hoffers₃⟩ := hrun₂.exists_take hoffers₂
  obtain ⟨session₄, hrun₄, hoffers₄⟩ := hrun₃.exists_giveBack hoffers₃
    (show PhysPage.ofNat 1 ∈ [.ofNat 3, .ofNat 2, .ofNat 1] by decide)
  obtain ⟨session₅, hrun₅, hoffers₅⟩ := hrun₄.exists_giveBack hoffers₄
    (show PhysPage.ofNat 2 ∈ [.ofNat 3, .ofNat 2, .ofNat 1].erase (.ofNat 1) by decide)
  obtain ⟨-, -, hcompletes, -⟩ := selfTest_leaves_no_trace hoffers₅
  obtain ⟨kernel', htest, -, hyields, -⟩ := hcompletes (by decide)
  exact ⟨session₅, _, kernel', hrun₅, rfl, hoffers₅, htest, hyields⟩

end Session

end PagedMemory
