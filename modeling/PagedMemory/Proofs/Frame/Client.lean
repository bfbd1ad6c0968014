import PagedMemory.Proofs.Frame.FreeList

namespace PagedMemory.FramePool

variable {low high : PhysPage} {machine machine' : Machine} {pool pool' : FramePool}
  {free out : List PhysPage} {frame : PhysPage}

-- What clients may do with a pool for the frames from `low` up to `high`. Beside it runs an ideal
-- pool, the list `free`: the first frame of it is taken, and a frame that is returned becomes its
-- first. `out` collects the frames that were taken and not returned since. Between the calls a
-- client may write what it likes to memory, but not to a free frame. Questions to the pool change
-- nothing and do not occur.
inductive ClientRun (low high : PhysPage) :
    Machine → FramePool → List PhysPage → List PhysPage → Prop where
  | start {machine : Machine} {pool : FramePool} (hwindow : high.number ≤ machine.memory.frames)
      (hpool : between low high = .ok pool) :
      ClientRun low high machine pool (PhysPage.upTo low.number high.number) []
  | take {machine machine' : Machine} {pool pool' : FramePool} {free out : List PhysPage}
      {answer : Option PhysPage} (hrun : ClientRun low high machine pool free out)
      (htake : take.run (machine, pool) = .ok answer (machine', pool')) :
      ClientRun low high machine' pool' free.tail (answer.toList ++ out)
  | giveBack {machine machine' : Machine} {pool pool' : FramePool} {free out : List PhysPage}
      {frame : PhysPage} (hrun : ClientRun low high machine pool free out)
      (hgive : (giveBack frame).run (machine, pool) = .ok () (machine', pool')) :
      ClientRun low high machine' pool' (frame :: free) (out.erase frame)
  | write {machine : Machine} {pool : FramePool} {free out : List PhysPage} {memory : Memory}
      (hrun : ClientRun low high machine pool free out)
      (hframes : memory.frames = machine.memory.frames)
      (hspared : ∀ frame ∈ free, memory.frame frame = machine.memory.frame frame) :
      ClientRun low high ⟨memory, machine.log⟩ pool free out

namespace ClientRun

-- The ideal pool and the frames that are out share the range between them.
structure Invariant (low high : PhysPage) (memory : Memory) (pool : FramePool)
    (free out : List PhysPage) : Prop where
  handsOut : pool.HandsOut memory free
  low_eq : pool.low = low.number
  high_eq : pool.high = high.number
  shared : (free ++ out).Perm (PhysPage.upTo low.number high.number)

namespace Invariant

theorem mem_out_iff (h : Invariant low high machine.memory pool free out) :
    frame ∈ out ↔ low.number ≤ frame.number ∧ frame.number < high.number ∧ frame ∉ free := by
  have hpages := Nat.le_of_lt high.isLt
  have hmem := h.shared.mem_iff (a := frame)
  rw [List.mem_append, PhysPage.mem_upTo hpages] at hmem
  have hdisjoint := List.nodup_append'.mp (h.shared.nodup_iff.mpr (PhysPage.nodup_upTo hpages))
  constructor
  · intro hout
    have hrange := hmem.mp (Or.inr hout)
    exact ⟨hrange.1, hrange.2, fun hfree => hdisjoint.2.2 hfree hout⟩
  · rintro ⟨hlow, hhigh, hfree⟩
    exact (hmem.mpr ⟨hlow, hhigh⟩).resolve_left hfree

theorem take {answer : Option PhysPage} (h : Invariant low high machine.memory pool free out)
    (htake : FramePool.take.run (machine, pool) = .ok answer (machine', pool')) :
    Invariant low high machine'.memory pool' free.tail (answer.toList ++ out) := by
  obtain ⟨after, hrun, hhands, hlow, hhigh, -⟩ := run_take h.handsOut
  rw [hrun] at htake
  cases htake
  refine ⟨hhands, hlow.trans h.low_eq, hhigh.trans h.high_eq, ?_⟩
  cases free with
  | nil => exact h.shared
  | cons frame rest => exact List.perm_middle.trans h.shared

theorem giveBack (h : Invariant low high machine.memory pool free out)
    (hgive : (FramePool.giveBack frame).run (machine, pool) = .ok () (machine', pool')) :
    Invariant low high machine'.memory pool' (frame :: free) (out.erase frame) := by
  by_cases hout : pool.low ≤ frame.number ∧ frame.number < pool.high ∧ frame ∉ free
  · obtain ⟨after, hrun, hhands, hlow, hhigh⟩ := run_giveBack h.handsOut hout.1 hout.2.1 hout.2.2
    rw [hrun, EStateM.Result.ok.injEq, Prod.mk.injEq] at hgive
    obtain ⟨-, rfl, rfl⟩ := hgive
    refine ⟨hhands, hlow.trans h.low_eq, hhigh.trans h.high_eq, ?_⟩
    rw [h.low_eq, h.high_eq] at hout
    have herase := List.perm_cons_erase (h.mem_out_iff.mpr hout)
    exact (List.perm_middle.symm.trans (herase.symm.append_left free)).trans h.shared
  · rw [run_giveBack_refused h.handsOut hout] at hgive
    cases hgive

end Invariant

theorem invariant (hrun : ClientRun low high machine pool free out) :
    Invariant low high machine.memory pool free out := by
  induction hrun with
  | start hwindow hpool =>
      obtain ⟨hhands, hlow, hhigh⟩ := handsOut_of_between hpool hwindow
      exact ⟨hhands, hlow, hhigh, by rw [List.append_nil]⟩
  | take _ htake ih => exact ih.take htake
  | giveBack _ hgive ih => exact ih.giveBack hgive
  | write _ hframes hspared ih => exact { ih with handsOut := ih.handsOut.congr hframes hspared }

-- The pool answers as the ideal one. Taking a frame gives the first free one, or nothing if there
-- is none, and never finds a broken stack. Exactly the frames that are out can be returned, and
-- these are the frames of the range that are not free. A refusal leaves memory and the pool as they
-- were. Every frame of the range is either free or out, and is so once.
theorem refines_free_list (hrun : ClientRun low high machine pool free out) :
    (∃ pool', FramePool.take.run (machine, pool) = .ok free.head? (machine, pool')) ∧
    (∀ frame, frame ∈ out ↔
      low.number ≤ frame.number ∧ frame.number < high.number ∧ frame ∉ free) ∧
    (∀ frame ∈ out, ∃ machine' pool',
      (FramePool.giveBack frame).run (machine, pool) = .ok () (machine', pool')) ∧
    (∀ frame ∉ out,
      (FramePool.giveBack frame).run (machine, pool) = .error (.fault (.notAllocated frame))
        (⟨machine.memory, machine.log ++ (Fault.notAllocated frame).lines⟩, pool) ∧
      (Fault.notAllocated frame).message = "Dealloc of a frame that is not allocated") ∧
    (∀ frame, pool.isStacked frame machine.memory =
      .ok (decide (frame ∈ free ∧ frame.number < pool.next))) ∧
    pool.remaining = free.length ∧
    (free ++ out).Perm (PhysPage.upTo low.number high.number) := by
  have hinv := hrun.invariant
  have hout : ∀ frame, frame ∈ out ↔
      pool.low ≤ frame.number ∧ frame.number < pool.high ∧ frame ∉ free := fun frame => by
    rw [hinv.low_eq, hinv.high_eq]
    exact hinv.mem_out_iff
  refine ⟨?_, fun _ => hinv.mem_out_iff, fun frame hmem => ?_, fun frame hmem => ⟨?_, rfl⟩,
    isStacked_eq_of_handsOut hinv.handsOut, hinv.handsOut.remaining_eq, hinv.shared⟩
  · obtain ⟨after, htake, -⟩ := run_take hinv.handsOut
    exact ⟨after, htake⟩
  · obtain ⟨hlow, hhigh, hfree⟩ := (hout frame).mp hmem
    obtain ⟨after, hgive, -⟩ := run_giveBack hinv.handsOut hlow hhigh hfree
    exact ⟨_, after, hgive⟩
  · exact run_giveBack_refused hinv.handsOut (mt (hout frame).mpr hmem)

-- Two frames are taken and the first is returned: it is the next to be taken, and cannot be
-- returned again.
theorem refines_free_list_after_return : ∃ machine pool pool',
    ClientRun (.ofNat 1) (.ofNat 3) machine pool [.ofNat 1] [.ofNat 2] ∧
    FramePool.take.run (machine, pool) = .ok (some (.ofNat 1)) (machine, pool') ∧
    (FramePool.giveBack (.ofNat 1)).run (machine, pool) = .error (.fault (.notAllocated (.ofNat 1)))
      (⟨machine.memory, machine.log ++ (Fault.notAllocated (.ofNat 1)).lines⟩, pool) := by
  have h0 : ClientRun (.ofNat 1) (.ofNat 3) ⟨.filled 4 0xcd, []⟩ ⟨1, 1, 3, none, 0⟩
      [.ofNat 1, .ofNat 2] [] := .start (by decide) rfl
  obtain ⟨pool1, htake1⟩ := (refines_free_list h0).1
  have h1 := h0.take htake1
  obtain ⟨pool2, htake2⟩ := (refines_free_list h1).1
  have h2 := h1.take htake2
  obtain ⟨machine, pool, hgive⟩ := (refines_free_list h2).2.2.1 (.ofNat 1) (by decide)
  have h3 : ClientRun (.ofNat 1) (.ofNat 3) machine pool [.ofNat 1] [.ofNat 2] := h2.giveBack hgive
  obtain ⟨⟨pool', htake⟩, -, -, hrefused, -⟩ := refines_free_list h3
  exact ⟨machine, pool, pool', h3, htake, (hrefused (.ofNat 1) (by decide)).1⟩

end ClientRun

end PagedMemory.FramePool
