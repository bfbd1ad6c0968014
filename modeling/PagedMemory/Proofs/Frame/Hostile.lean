import PagedMemory.Proofs.Frame.FreeList
import PagedMemory.Proofs.Keeps
import PagedMemory.Proofs.Text.Reports

namespace PagedMemory.FramePool

variable {low high : PhysPage} {machine machine' : Machine} {pool pool' : FramePool}
  {memory : Memory} {frame : PhysPage} {answer : Option PhysPage} {steps count : Nat}

-- What a pool is worth when nothing is known about memory: its numbers are in order, and its top is
-- a frame that was taken, as long as frames are counted.
structure InBounds (pool : FramePool) (memory : Memory) : Prop where
  low_le_next : pool.low ≤ pool.next
  next_le_high : pool.next ≤ pool.high
  high_le_frames : pool.high ≤ memory.frames
  high_le_pages : pool.high ≤ 0x100000000000
  top_eq_none_iff : pool.top = none ↔ pool.stacked = 0
  top_range : ∀ frame, pool.top = some frame → pool.low ≤ frame.number ∧ frame.number < pool.next

namespace InBounds

theorem between {low high : PhysPage} (h : between low high = .ok pool)
    (hwindow : high.number ≤ memory.frames) : pool.InBounds memory := by
  obtain ⟨hle, rfl⟩ := between_eq_ok h
  exact ⟨Nat.le_refl _, hle, hwindow, Nat.le_of_lt high.isLt, by simp, by simp⟩

-- Only the number of frames matters: nothing is said of what memory holds.
theorem congr {memory' : Memory} (h : pool.InBounds memory)
    (hframes : memory'.frames = memory.frames) : pool.InBounds memory' :=
  { h with high_le_frames := hframes ▸ h.high_le_frames }

theorem stacked_pos (h : pool.InBounds memory) (htop : pool.top = some frame) :
    0 < pool.stacked := by
  apply Nat.pos_of_ne_zero
  intro hzero
  have hnone := h.top_eq_none_iff.mpr hzero
  rw [htop] at hnone
  cases hnone

theorem exists_top (h : pool.InBounds memory) (hpos : 0 < pool.stacked) :
    ∃ frame, pool.top = some frame := by
  apply Option.ne_none_iff_exists'.mp
  intro hnone
  have hzero := h.top_eq_none_iff.mp hnone
  omega

theorem top_lt_frames (h : pool.InBounds memory) (htop : pool.top = some frame) :
    frame.number < memory.frames := by
  have htaken := h.top_range frame htop
  have hnext := h.next_le_high
  have hframes := h.high_le_frames
  omega

end InBounds

-- A word that can stand below the top ends the stack, or it is a frame that was taken, and frames
-- are left.
theorem canStandBelow_iff {word : UInt64} (hnext : pool.next ≤ 0x100000000000) :
    pool.canStandBelow word = true ↔ word = endMark ∧ pool.stacked = 0 ∨
      0 < pool.stacked ∧ pool.low ≤ word.toNat ∧ word.toNat < pool.next := by
  unfold canStandBelow
  by_cases hmark : word = endMark
  · have hvalue : word.toNat = 0xffffffffffffffff := by rw [hmark]; rfl
    rw [if_pos hmark, hvalue, beq_iff_eq]
    simp only [hmark, true_and]
    omega
  · simp [hmark, and_assoc]

-- The same of the pool as it is when a link is looked at.
theorem canStandBelow_left_iff (word : UInt64) (hnext : pool.next ≤ 0x100000000000) :
    { pool with stacked := pool.stacked - 1 }.canStandBelow word = true ↔
      word = endMark ∧ pool.stacked - 1 = 0 ∨
      0 < pool.stacked - 1 ∧ pool.low ≤ word.toNat ∧ word.toNat < pool.next :=
  canStandBelow_iff hnext

theorem range_of_isOut (h : pool.isOut frame memory = .ok true) :
    pool.low ≤ frame.number ∧ frame.number < pool.next := by
  unfold isOut at h
  split at h
  · assumption
  · cases h

-- A frame that is returned was taken, and becomes the top. The search that comes before it ended.
theorem run_giveBack_eq_ok
    (hgive : (giveBack frame).run (machine, pool) = .ok () (machine', pool')) :
    pool.low ≤ frame.number ∧ frame.number < pool.next ∧
      machine'.memory.frames = machine.memory.frames ∧
      pool' = { pool with top := some frame, stacked := pool.stacked + 1 } := by
  obtain ⟨_, _, hget, hsearch⟩ := Action.run_bind_eq_ok hgive
  cases hget
  obtain ⟨out, _, hanswer, hpush⟩ := Action.run_bind_eq_ok hsearch
  obtain ⟨_, hconsult, rfl⟩ := Action.run_onFirst_eq_ok hanswer
  obtain ⟨hout, rfl⟩ := Machine.run_consult_eq_ok hconsult
  cases out with
  | false => cases hpush
  | true =>
      obtain ⟨hlow, hnext⟩ := range_of_isOut hout
      obtain ⟨_, _, hwrite, hset⟩ := Action.run_bind_eq_ok hpush
      obtain ⟨_, hlink, rfl⟩ := Action.run_onFirst_eq_ok hwrite
      obtain ⟨_, _, hreach, hchange⟩ := Action.run_bind_eq_ok hlink
      obtain ⟨-, rfl⟩ := Machine.run_inspect_eq_ok hreach
      rw [Machine.run_change, EStateM.Result.ok.injEq] at hchange
      obtain ⟨-, rfl⟩ := hchange
      rw [Action.run_onSecond, EStateM.run_set, EStateM.Result.ok.injEq, Prod.mk.injEq] at hset
      obtain ⟨-, rfl, rfl⟩ := hset
      exact ⟨hlow, hnext, Memory.frames_setWord _ _ _, rfl⟩

theorem ofLink_endMark : ofLink endMark = none := if_pos rfl

theorem ofLink_of_lt {word : UInt64} (h : word.toNat < 0x100000000000) :
    ∃ frame, ofLink word = some frame ∧ frame.number = word.toNat := by
  have hne : word ≠ endMark := by
    rintro rfl
    simp [endMark] at h
  exact ⟨.ofNat word.toNat, if_neg hne, PhysPage.number_ofNat h⟩

namespace InBounds

-- What can happen when a frame is taken from such a pool. Memory is only read.
theorem take_cases (h : pool.InBounds machine.memory)
    (htake : take.run (machine, pool) = .ok answer (machine', pool')) :
    machine' = machine ∧
      ((∃ frame, pool.top = some frame ∧ answer = some frame ∧
        { pool with stacked := pool.stacked - 1 }.canStandBelow
          (machine.memory.word frame.base) = true ∧
        pool' = { pool with
          top := ofLink (machine.memory.word frame.base), stacked := pool.stacked - 1 }) ∨
      (pool.top = none ∧ answer = none ∧ pool' = pool) ∨
      (pool.top = none ∧ pool.next < pool.high ∧ answer = some (.ofNat pool.next) ∧
        pool' = { pool with next := pool.next + 1 })) := by
  have hhigh := h.next_le_high
  cases htop : pool.top with
  | some frame =>
      rw [run_take_of_top htop (h.top_lt_frames htop)] at htake
      split at htake
      · rename_i hlink
        cases htake
        exact ⟨rfl, Or.inl ⟨frame, rfl, rfl, hlink, rfl⟩⟩
      · cases htake
  | none =>
      by_cases hfull : pool.next = pool.high
      · rw [run_take_of_full htop hfull] at htake
        cases htake
        exact ⟨rfl, Or.inr (Or.inl ⟨rfl, rfl, rfl⟩)⟩
      · rw [run_take_of_next htop hfull] at htake
        cases htake
        exact ⟨rfl, Or.inr (Or.inr ⟨rfl, by omega, rfl, by rw [htop]⟩)⟩

-- The link becomes the top only after it was found to be a frame that was taken, or the end of the
-- stack with nothing left. This is all that keeps the pool in bounds.
theorem pop {word : UInt64} (h : pool.InBounds memory)
    (hlink : { pool with stacked := pool.stacked - 1 }.canStandBelow word = true) :
    { pool with top := ofLink word, stacked := pool.stacked - 1 }.InBounds memory := by
  have hnext := Nat.le_trans h.next_le_high h.high_le_pages
  rcases (canStandBelow_left_iff word hnext).mp hlink with ⟨rfl, hzero⟩ | ⟨hpos, hlow, hlt⟩
  · exact { h with
      top_eq_none_iff := by simp [ofLink_endMark, hzero]
      top_range := by simp [ofLink_endMark] }
  · obtain ⟨below, hbelow, hnumber⟩ := ofLink_of_lt (Nat.lt_of_lt_of_le hlt hnext)
    refine { h with top_eq_none_iff := ?_, top_range := ?_ }
    · simp only [hbelow]
      simp
      omega
    · intro frame hframe
      simp only [hbelow, Option.some.injEq] at hframe
      subst hframe
      rw [hnumber]
      exact ⟨hlow, hlt⟩

theorem take (h : pool.InBounds machine.memory)
    (htake : FramePool.take.run (machine, pool) = .ok answer (machine', pool')) :
    pool'.InBounds machine'.memory := by
  obtain ⟨rfl, ⟨frame, -, -, hlink, rfl⟩ | ⟨-, -, rfl⟩ | ⟨htop, hlt, -, rfl⟩⟩ := h.take_cases htake
  · exact h.pop hlink
  · exact h
  · have hlow := h.low_le_next
    exact { h with
      low_le_next := by simp only; omega
      next_le_high := hlt
      top_range := by simp [htop] }

theorem giveBack (h : pool.InBounds machine.memory)
    (hgive : (FramePool.giveBack frame).run (machine, pool) = .ok () (machine', pool')) :
    pool'.InBounds machine'.memory := by
  obtain ⟨hlow, hnext, hframes, rfl⟩ := run_giveBack_eq_ok hgive
  refine { h.congr hframes with top_eq_none_iff := by simp, top_range := ?_ }
  intro other hother
  cases hother
  exact ⟨hlow, hnext⟩

-- A frame that was just taken is below the mark, whether it comes from the stack or not.
theorem taken_range (h : pool.InBounds machine.memory)
    (htake : FramePool.take.run (machine, pool) = .ok (some frame) (machine', pool')) :
    pool'.low ≤ frame.number ∧ frame.number < pool'.next := by
  have hlow := h.low_le_next
  have hpages := h.high_le_pages
  obtain ⟨-, ⟨top, htop, hanswer, -, rfl⟩ | ⟨-, hanswer, -⟩ | ⟨-, hlt, hanswer, rfl⟩⟩ :=
    h.take_cases htake
  · cases hanswer
    exact h.top_range frame htop
  · cases hanswer
  · cases hanswer
    rw [PhysPage.number_ofNat (by omega)]
    simp only
    omega

-- While frames are stacked, each one taken leaves one less, and the others stay where they are.
theorem stacked_take (h : pool.InBounds machine.memory) (hpos : 0 < pool.stacked)
    (htake : FramePool.take.run (machine, pool) = .ok answer (machine', pool')) :
    pool'.stacked + 1 = pool.stacked ∧ pool'.next = pool.next := by
  obtain ⟨top, htop⟩ := h.exists_top hpos
  obtain ⟨-, ⟨frame, -, -, -, rfl⟩ | ⟨hnone, -⟩ | ⟨hnone, -⟩⟩ := h.take_cases htake
  · exact ⟨Nat.sub_add_cancel hpos, rfl⟩
  · rw [htop] at hnone
    cases hnone
  · rw [htop] at hnone
    cases hnone

-- One frame is counted off before the link is looked at, and so also when it is found broken.
theorem stacked_left (h : pool.InBounds machine.memory) (htop : pool.top = some frame) :
    (FramePool.take.left (machine, pool)).2.stacked + 1 = pool.stacked := by
  have hpos := h.stacked_pos htop
  rw [Action.left, run_take_of_top htop (h.top_lt_frames htop)]
  split
  · rename_i hrun
    split at hrun <;> cases hrun
    exact Nat.sub_add_cancel hpos
  · rename_i hrun
    split at hrun <;> cases hrun
    exact Nat.sub_add_cancel hpos

-- When a stack is found to be corrupt.
theorem run_take_corrupt_iff (h : pool.InBounds machine.memory) (htop : pool.top = some frame) :
    (∃ cause after, FramePool.take.run (machine, pool) = .error (.fault cause) after ∧
      cause.message = "Recycled frame list is corrupt") ↔
    ¬(machine.memory.word frame.base = endMark ∧ pool.stacked = 1) ∧
      ¬(pool.low ≤ (machine.memory.word frame.base).toNat ∧
        (machine.memory.word frame.base).toNat < pool.next ∧ 1 < pool.stacked) := by
  have hpos := h.stacked_pos htop
  have hnext := Nat.le_trans h.next_le_high h.high_le_pages
  have hlink := canStandBelow_left_iff (machine.memory.word frame.base) hnext
  rw [run_take_of_top htop (h.top_lt_frames htop)]
  by_cases hgood : { pool with stacked := pool.stacked - 1 }.canStandBelow
      (machine.memory.word frame.base) = true
  · rw [if_pos hgood]
    constructor
    · rintro ⟨cause, after, hrun, -⟩
      cases hrun
    · intro hbad
      rcases hlink.mp hgood with ⟨hmark, hzero⟩ | ⟨hleft, hrange⟩
      · exact (hbad.1 ⟨hmark, by omega⟩).elim
      · exact (hbad.2 ⟨hrange.1, hrange.2, by omega⟩).elim
  · rw [if_neg hgood]
    rw [hlink] at hgood
    constructor
    · intro _
      refine ⟨fun hend => hgood (Or.inl ⟨hend.1, by omega⟩), fun hin => hgood (Or.inr ?_)⟩
      exact ⟨by omega, hin.1, hin.2.1⟩
    · intro _
      exact ⟨_, _, rfl, rfl⟩

end InBounds

-- Frames taken one after another, `count` of them, while memory changes at will in between.
inductive TakenOff : Nat → Machine → FramePool → Machine → FramePool → Prop where
  | none {machine : Machine} {pool : FramePool} : TakenOff 0 machine pool machine pool
  | write {count : Nat} {machine machine' : Machine} {pool pool' : FramePool} {memory : Memory}
      (h : TakenOff count machine pool machine' pool')
      (hframes : memory.frames = machine'.memory.frames) :
      TakenOff count machine pool ⟨memory, machine'.log⟩ pool'
  | take {count : Nat} {machine machine' machine'' : Machine} {pool pool' pool'' : FramePool}
      {answer : Option PhysPage} (h : TakenOff count machine pool machine' pool')
      (htake : take.run (machine', pool') = .ok answer (machine'', pool'')) :
      TakenOff (count + 1) machine pool machine'' pool''

-- As long as frames are stacked they are counted off, and nothing else is taken.
theorem TakenOff.counted (hoff : TakenOff count machine pool machine' pool')
    (h : pool.InBounds machine.memory) (hcount : count ≤ pool.stacked) :
    pool'.InBounds machine'.memory ∧ pool'.stacked + count = pool.stacked ∧
      pool'.next = pool.next := by
  induction hoff with
  | none => exact ⟨h, Nat.add_zero _, rfl⟩
  | write _ hframes ih =>
      obtain ⟨hbounds, hstacked, hnext⟩ := ih h hcount
      exact ⟨hbounds.congr hframes, hstacked, hnext⟩
  | take _ htake ih =>
      obtain ⟨hbounds, hstacked, hnext⟩ := ih h (by omega)
      obtain ⟨hless, hsame⟩ := hbounds.stacked_take (by omega) htake
      exact ⟨hbounds.take htake, by omega, hsame.trans hnext⟩

-- A pool for the frames from `low` up to `high` on a memory that anybody may write to, free frames
-- included. `steps` counts the calls. A frame can only be returned if the search for it came to an
-- end; calls that halt end the run.
inductive HostileRun (low high : PhysPage) : Nat → Machine → FramePool → Prop where
  | start {machine : Machine} {pool : FramePool} (hwindow : high.number ≤ machine.memory.frames)
      (hpool : between low high = .ok pool) : HostileRun low high 0 machine pool
  | take {steps : Nat} {machine machine' : Machine} {pool pool' : FramePool}
      {answer : Option PhysPage} (hrun : HostileRun low high steps machine pool)
      (htake : take.run (machine, pool) = .ok answer (machine', pool')) :
      HostileRun low high (steps + 1) machine' pool'
  | giveBack {steps : Nat} {machine machine' : Machine} {pool pool' : FramePool}
      {frame : PhysPage} (hrun : HostileRun low high steps machine pool)
      (hgive : (giveBack frame).run (machine, pool) = .ok () (machine', pool')) :
      HostileRun low high (steps + 1) machine' pool'
  | write {steps : Nat} {machine : Machine} {pool : FramePool} {memory : Memory}
      (hrun : HostileRun low high steps machine pool)
      (hframes : memory.frames = machine.memory.frames) :
      HostileRun low high steps ⟨memory, machine.log⟩ pool

namespace HostileRun

theorem inBounds (hrun : HostileRun low high steps machine pool) : pool.InBounds machine.memory := by
  induction hrun with
  | start hwindow hpool => exact .between hpool hwindow
  | take _ htake ih => exact ih.take htake
  | giveBack _ hgive ih => exact ih.giveBack hgive
  | write _ hframes ih => exact ih.congr hframes

-- No more frames are counted on the stack than there were calls.
theorem stacked_le (hrun : HostileRun low high steps machine pool) : pool.stacked ≤ steps := by
  induction hrun with
  | start _ hpool =>
      obtain ⟨-, rfl⟩ := between_eq_ok hpool
      exact Nat.le_refl 0
  | take hrun htake ih =>
      obtain ⟨-, ⟨frame, -, -, -, rfl⟩ | ⟨-, -, rfl⟩ | ⟨-, -, -, rfl⟩⟩ :=
        hrun.inBounds.take_cases htake
      · simp only
        omega
      · omega
      · simp only
        omega
  | giveBack _ hgive ih =>
      obtain ⟨-, -, -, rfl⟩ := run_giveBack_eq_ok hgive
      exact Nat.succ_le_succ ih
  | write _ _ ih => exact ih

-- What is logged of a corrupt stack: its top, the word that stands there, and the count of the others.
theorem log_of_corrupt (hrun : HostileRun low high steps machine pool)
    (hsteps : steps < 0x10000000000000000) (htop : pool.top = some frame) {stop : Stop}
    {after : Machine × FramePool} (hstop : FramePool.take.run (machine, pool) = .error stop after) :
    ∃ text, after.1.log = machine.log ++ [⟨.error, text⟩] ∧
      Format.print
        "Recycled frame ppn=%lx links to ppn=%lx with %lu frames left on the stack".toList
        [.wideWord (.ofNat frame.number), .wideWord (machine.memory.word frame.base),
          .wideWord (.ofNat (pool.stacked - 1))] = some text.toList := by
  have hcount := hrun.stacked_le
  have hfits : (Fault.brokenLink frame (machine.memory.word frame.base)
      (pool.stacked - 1)).CountFits := show pool.stacked - 1 < 0x10000000000000000 by omega
  rw [run_take_of_top htop (hrun.inBounds.top_lt_frames htop)] at hstop
  split at hstop
  · cases hstop
  · cases hstop
    exact ⟨_, rfl, Fault.print_format hfits⟩

-- The range is the one the pool was made for.
theorem range_eq (hrun : HostileRun low high steps machine pool) :
    pool.low = low.number ∧ pool.high = high.number := by
  induction hrun with
  | start _ hpool =>
      obtain ⟨-, rfl⟩ := between_eq_ok hpool
      exact ⟨rfl, rfl⟩
  | take hrun htake ih =>
      obtain ⟨-, ⟨frame, -, -, -, rfl⟩ | ⟨-, -, rfl⟩ | ⟨-, -, -, rfl⟩⟩ :=
        hrun.inBounds.take_cases htake
      · exact ih
      · exact ih
      · exact ih
  | giveBack _ hgive ih =>
      obtain ⟨-, -, -, rfl⟩ := run_giveBack_eq_ok hgive
      exact ih
  | write _ _ ih => exact ih

-- Whatever is written to memory, a pool stays in bounds: every link is looked at before it is
-- followed. The numbers stay in order, the top is a frame that was taken and is there exactly as long
-- as frames are counted, and each frame that is handed out was within the range at that time. The
-- count fits a machine word and never falls below zero. The stack is found to be corrupt exactly when
-- the word in the top frame is neither the end mark under the last frame nor a frame that was taken
-- under another. As many frames as are counted can be taken off, and then the stack is empty.
theorem stays_in_bounds (hrun : HostileRun low high steps machine pool)
    (hsteps : steps < 0x10000000000000000) :
    pool.low = low.number ∧ pool.low ≤ pool.next ∧ pool.next ≤ pool.high ∧
      pool.high = high.number ∧
    (linkTo pool.top = endMark ↔ pool.stacked = 0) ∧
    (linkTo pool.top ≠ endMark →
      pool.low ≤ (linkTo pool.top).toNat ∧ (linkTo pool.top).toNat < pool.next) ∧
    pool.stacked < 0x10000000000000000 ∧
    (∀ frame machine' pool', FramePool.take.run (machine, pool) = .ok (some frame) (machine', pool') →
      pool'.low ≤ frame.number ∧ frame.number < pool'.next) ∧
    (∀ frame, pool.top = some frame →
      (FramePool.take.left (machine, pool)).2.stacked + 1 = pool.stacked ∧
      ((∃ cause after, FramePool.take.run (machine, pool) = .error (.fault cause) after ∧
        cause.message = "Recycled frame list is corrupt") ↔
      ¬(machine.memory.word frame.base = endMark ∧ pool.stacked = 1) ∧
        ¬(pool.low ≤ (machine.memory.word frame.base).toNat ∧
          (machine.memory.word frame.base).toNat < pool.next ∧ 1 < pool.stacked))) ∧
    ∀ count machine' pool', TakenOff count machine pool machine' pool' → count ≤ pool.stacked →
      pool'.stacked = pool.stacked - count ∧ (pool'.top = none ↔ count = pool.stacked) ∧
        pool'.next = pool.next := by
  have hbounds := hrun.inBounds
  have hstacked := hrun.stacked_le
  obtain ⟨hlow, hhigh⟩ := hrun.range_eq
  refine ⟨hlow, hbounds.low_le_next, hbounds.next_le_high, hhigh, ?_, ?_, by omega, ?_, ?_, ?_⟩
  · rw [← hbounds.top_eq_none_iff]
    constructor
    · intro hmark
      rw [← ofLink_linkTo pool.top, hmark, ofLink_endMark]
    · intro hnone
      rw [hnone]
      rfl
  · intro hmark
    obtain ⟨frame, htop⟩ : ∃ frame, pool.top = some frame := by
      apply Option.ne_none_iff_exists'.mp
      intro hnone
      exact hmark (hnone ▸ rfl)
    rw [htop, toNat_linkTo_some]
    exact hbounds.top_range frame htop
  · intro frame machine' pool' htake
    exact hbounds.taken_range htake
  · intro frame htop
    exact ⟨hbounds.stacked_left htop, hbounds.run_take_corrupt_iff htop⟩
  · intro count machine' pool' hoff hcount
    obtain ⟨hbounds', hcounted, hnext⟩ := hoff.counted hbounds hcount
    refine ⟨by omega, ?_, hnext⟩
    rw [hbounds'.top_eq_none_iff]
    omega

-- A frame is returned, and then somebody writes its own number into it. The link is no longer one
-- that can stand under the last frame of a stack, and the pool notices.
theorem stays_in_bounds_after_overwrite : ∃ machine pool,
    HostileRun (.ofNat 1) (.ofNat 3) 2 machine pool ∧ 2 < 0x10000000000000000 ∧
    pool.top = some (.ofNat 1) ∧ pool.stacked = 1 ∧ machine.memory.word (PhysPage.ofNat 1).base = 1 ∧
    ∃ cause after, FramePool.take.run (machine, pool) = .error (.fault cause) after ∧
      cause.message = "Recycled frame list is corrupt" := by
  let memory : Memory := .filled 4 0xcd
  let fresh : FramePool := ⟨1, 1, 3, none, 0⟩
  have hfresh : between (.ofNat 1) (.ofNat 3) = .ok fresh := rfl
  have hwindow : (PhysPage.ofNat 3).number ≤ memory.frames := by decide
  have h0 : HostileRun (.ofNat 1) (.ofNat 3) 0 ⟨memory, []⟩ fresh := .start hwindow hfresh
  have hhands := (handsOut_of_between hfresh hwindow).1
  have htake : FramePool.take.run (⟨memory, []⟩, fresh) =
      .ok (some (.ofNat 1)) (⟨memory, []⟩, ⟨1, 2, 3, none, 0⟩) := run_take_of_next rfl (by decide)
  obtain ⟨taken, htake', hhands', -⟩ :=
    run_take (show HandsOut fresh (Machine.mk memory []).memory _ from hhands)
  rw [htake, EStateM.Result.ok.injEq, Prod.mk.injEq] at htake'
  obtain ⟨-, -, rfl⟩ := htake'
  obtain ⟨returned, hgive, -⟩ := run_giveBack hhands' (show 1 ≤ (PhysPage.ofNat 1).number by decide)
    (by decide) (by decide)
  have h2 := (h0.take htake).giveBack hgive
  obtain ⟨-, -, -, rfl⟩ := run_giveBack_eq_ok hgive
  let linked := memory.setWord (PhysPage.ofNat 1).base (linkTo none)
  have h3 := h2.write (Memory.frames_setWord linked (PhysPage.ofNat 1).base 1)
  have hword : (linked.setWord (PhysPage.ofNat 1).base 1).word (PhysPage.ofNat 1).base = 1 :=
    Memory.word_setWord_base_same 1 (by rw [Memory.frames_setWord]; decide)
  obtain ⟨-, -, -, -, -, -, -, -, hcorrupt, -⟩ := stays_in_bounds h3 (by decide)
  exact ⟨_, _, h3, by decide, rfl, rfl, hword,
    (hcorrupt (.ofNat 1) rfl).2.mpr (by rw [hword]; decide)⟩

end HostileRun

end PagedMemory.FramePool
