import PagedMemory.Kernel
import PagedMemory.Proofs.Frame.FreeList
import PagedMemory.Proofs.Text.Reports

namespace PagedMemory

-- Rounding to frame boundaries. Up to the start of the last frame, rounding up stays within the bits
-- of an address.

theorem PhysAddr.number_page_ofNat {n : Nat} (h : n < 0x100000000000000) :
    (PhysAddr.ofNat n).page.number = n / 4096 := by
  simp only [page, ofNat, pageSize_eq]
  omega

theorem PhysAddr.number_pageCeil_ofNat {n : Nat} (h : n ≤ 0xfffffffffff000) :
    (PhysAddr.ofNat n).pageCeil.number = (n + 4095) / 4096 := by
  simp only [pageCeil, ofNat, pageSize_eq]
  omega

-- Past the start of the last frame, rounding up comes back to the first.
theorem PhysAddr.number_pageCeil_ofNat_of_lt {n : Nat} (hpast : 0xfffffffffff000 < n)
    (h : n < 0x100000000000000) : (PhysAddr.ofNat n).pageCeil.number = 0 := by
  simp only [pageCeil, ofNat, pageSize_eq]
  omega

-- The whole frames between two bytes, the first rounded up and the second rounded down.
theorem PhysPage.mem_upTo_round {start stop : Nat} (hstop : stop < 0x100000000000000)
    {page : PhysPage} : page ∈ upTo ((start + 4095) / 4096) (stop / 4096) ↔
      start ≤ 4096 * page.number ∧ 4096 * (page.number + 1) ≤ stop := by
  rw [mem_upTo (by omega)]
  omega

theorem PhysPage.pairwise_upTo {low high : Nat} (hhigh : high ≤ 0x100000000000) :
    (upTo low high).Pairwise fun page other => page.number < other.number := by
  unfold upTo
  rw [List.pairwise_map]
  refine List.Pairwise.imp_of_mem ?_ List.pairwise_lt_range'
  intro m n hm hn hlt
  simp only [List.mem_range'_1] at hm hn
  rw [number_ofNat (by omega), number_ofNat (by omega)]
  exact hlt

namespace Kernel

variable {kernel kernel' : Kernel} {kernelEnd memoryEnd : UInt64} {pool : FramePool}
  {frames : List PhysPage} {low high : Nat}

-- Nobody has borrowed the pool. It may not even be built.
def Unheld (kernel : Kernel) : Prop :=
  ∀ cell, kernel.pool.value? = some cell → cell.borrowed = false

theorem unheld_boot (memory : Memory) : (boot memory).Unheld := by
  intro cell hcell
  cases hcell

-- The pool is built, unless it was there, before it is given its range.
theorem run_initFrames_of_unheld (hunheld : kernel.Unheld) :
    ∃ pool, (initFrames kernelEnd memoryEnd).run kernel =
      (do
        withPool do
          let pool ← Action.onFirst (Machine.check (FramePool.between
            (PhysAddr.ofNat kernelEnd.toNat).pageCeil (PhysAddr.ofNat memoryEnd.toNat).page))
          Action.onSecond (set pool)
        onMachine (Machine.report (rangeEntry (PhysAddr.ofNat kernelEnd.toNat).pageCeil
          (PhysAddr.ofNat memoryEnd.toNat).page))).run
            ⟨kernel.machine, ⟨some ⟨pool, false⟩⟩⟩ := by
  obtain ⟨machine, ⟨cell?⟩⟩ := kernel
  cases cell? with
  | none => exact ⟨{}, Action.run_bind_ok rfl⟩
  | some cell =>
      obtain ⟨pool, borrowed⟩ := cell
      have hborrowed : borrowed = false := hunheld _ rfl
      subst hborrowed
      exact ⟨pool, Action.run_bind_ok rfl⟩

-- Whatever was in the pool before is forgotten. The range that it has now is logged.
theorem run_initFrames_of_between (kernelEnd memoryEnd : UInt64) (hunheld : kernel.Unheld)
    (hpool : FramePool.between (PhysAddr.ofNat kernelEnd.toNat).pageCeil
      (PhysAddr.ofNat memoryEnd.toNat).page = .ok pool) :
    (initFrames kernelEnd memoryEnd).run kernel =
      .ok () ⟨⟨kernel.machine.memory, kernel.machine.log ++
        [rangeEntry (PhysAddr.ofNat kernelEnd.toNat).pageCeil (PhysAddr.ofNat memoryEnd.toNat).page]⟩,
        ⟨some ⟨pool, false⟩⟩⟩ := by
  obtain ⟨before, hrun⟩ := run_initFrames_of_unheld hunheld
  have hset : (withPool do
      let pool ← Action.onFirst (Machine.check (FramePool.between
        (PhysAddr.ofNat kernelEnd.toNat).pageCeil (PhysAddr.ofNat memoryEnd.toNat).page))
      Action.onSecond (set pool)).run ⟨kernel.machine, ⟨some ⟨before, false⟩⟩⟩ =
        .ok () ⟨kernel.machine, ⟨some ⟨pool, false⟩⟩⟩ := by
    refine run_withPool_ok rfl ?_
    rw [hpool]
    rfl
  exact hrun.trans (Action.run_bind_ok hset)

theorem run_initFrames_of_reversed (hunheld : kernel.Unheld)
    (hpool : FramePool.between (PhysAddr.ofNat kernelEnd.toNat).pageCeil
      (PhysAddr.ofNat memoryEnd.toNat).page = .error .framesReversed) :
    ∃ after, (initFrames kernelEnd memoryEnd).run kernel =
      .error (.fault .framesReversed) after := by
  obtain ⟨before, hrun⟩ := run_initFrames_of_unheld hunheld
  rw [hpool] at hrun
  exact ⟨_, hrun.trans (Action.run_bind_error rfl)⟩

-- What is logged of the range is its ends and the count of its frames.
theorem log_of_initFrames {low high : PhysPage} (hunheld : kernel.Unheld)
    (hlow : low = (PhysAddr.ofNat kernelEnd.toNat).pageCeil)
    (hhigh : high = (PhysAddr.ofNat memoryEnd.toNat).page)
    (hrun : (initFrames kernelEnd memoryEnd).run kernel = .ok () kernel') :
    ∃ text, kernel'.machine.log = kernel.machine.log ++ [⟨.info, text⟩] ∧
      Format.print "frame allocator: ppn %lx to %lx (%lu frames)".toList
        [.wideWord (.ofNat low.number), .wideWord (.ofNat high.number),
          .wideWord (.ofNat (high.number - low.number))] = some text.toList := by
  subst hlow hhigh
  by_cases hle : (PhysAddr.ofNat kernelEnd.toNat).pageCeil.number ≤
      (PhysAddr.ofNat memoryEnd.toNat).page.number
  · have hgiven := run_initFrames_of_between kernelEnd memoryEnd hunheld (FramePool.between_of_le hle)
    cases hgiven.symm.trans hrun
    exact ⟨_, rfl, print_rangeEntry _ _⟩
  · obtain ⟨after, hrefused⟩ := run_initFrames_of_reversed hunheld (if_neg hle)
    cases hrefused.symm.trans hrun

-- The frames that the kernel hands out one after another, until there is none.
inductive Supplies : Kernel → List PhysPage → Prop where
  | none {kernel after : Kernel} (htake : takeFrame.run kernel = .ok none after) :
      Supplies kernel []
  | next {kernel after : Kernel} {frame : PhysPage} {frames : List PhysPage}
      (htake : takeFrame.run kernel = .ok (some frame) after) (hrest : Supplies after frames) :
      Supplies kernel (frame :: frames)

-- Frames that were never taken come in order. Memory is not touched, and need not have them.
theorem supplies_upTo (pool : FramePool) (hpool : kernel.pool = ⟨some ⟨pool, false⟩⟩)
    (htop : pool.top = none) (hle : pool.next ≤ pool.high) :
    kernel.Supplies (PhysPage.upTo pool.next pool.high) := by
  obtain ⟨count, hcount⟩ : ∃ count, pool.high - pool.next = count := ⟨_, rfl⟩
  induction count generalizing kernel pool with
  | zero =>
      have hfull : pool.next = pool.high := by omega
      rw [hfull, PhysPage.upTo_self]
      exact .none (run_withPool_ok hpool (FramePool.run_take_of_full htop hfull))
  | succ count ih =>
      have htake : FramePool.take.run (kernel.machine, pool) = .ok (some (.ofNat pool.next))
          (kernel.machine, { pool with next := pool.next + 1 }) :=
        FramePool.run_take_of_next htop (by omega)
      have hrest : Supplies ⟨kernel.machine, ⟨some ⟨{ pool with next := pool.next + 1 }, false⟩⟩⟩
          (PhysPage.upTo (pool.next + 1) pool.high) :=
        ih { pool with next := pool.next + 1 } rfl htop (show pool.next + 1 ≤ pool.high by omega)
          (show pool.high - (pool.next + 1) = count by omega)
      rw [PhysPage.upTo_cons (by omega)]
      exact .next (run_withPool_ok hpool htake) hrest

-- A pool for the range between two bytes supplies all of it, unless the range is reversed.
theorem initFrames_cases (kernelEnd memoryEnd : UInt64) (hunheld : kernel.Unheld)
    (hlow : (PhysAddr.ofNat kernelEnd.toNat).pageCeil.number = low)
    (hhigh : (PhysAddr.ofNat memoryEnd.toNat).page.number = high) :
    (low ≤ high ∧ ∃ after, (initFrames kernelEnd memoryEnd).run kernel = .ok () after ∧
      after.Supplies (PhysPage.upTo low high)) ∨
    (high < low ∧ ∃ after, (initFrames kernelEnd memoryEnd).run kernel =
      .error (.fault .framesReversed) after) := by
  subst hlow hhigh
  by_cases hle : (PhysAddr.ofNat kernelEnd.toNat).pageCeil.number ≤
      (PhysAddr.ofNat memoryEnd.toNat).page.number
  · have hrun := run_initFrames_of_between kernelEnd memoryEnd hunheld (FramePool.between_of_le hle)
    exact Or.inl ⟨hle, _, hrun, supplies_upTo ⟨_, _, _, none, 0⟩ rfl rfl hle⟩
  · exact Or.inr ⟨by omega, run_initFrames_of_reversed hunheld (if_neg hle)⟩

-- A kernel that is given the bytes from one address up to another hands out the whole frames between
-- them, in order, and nothing that reaches over an end. It refuses a range whose ends, rounded to
-- whole frames, are reversed. This holds as long as the first address lies at or below the start of
-- the last frame. Past that it rounds up to frame zero, and nothing is refused.
theorem initFrames_supplies_whole_frames (hunheld : kernel.Unheld)
    (hkernel : kernelEnd.toNat < 0x100000000000000)
    (hmemory : memoryEnd.toNat < 0x100000000000000) :
    (kernelEnd.toNat ≤ 0xfffffffffff000 →
      (∀ after, (initFrames kernelEnd memoryEnd).run kernel = .ok () after → ∃ frames,
        after.Supplies frames ∧ frames.Pairwise (fun page other => page.number < other.number) ∧
        (∀ page, page ∈ frames ↔ kernelEnd.toNat ≤ 4096 * page.number ∧
          4096 * (page.number + 1) ≤ memoryEnd.toNat) ∧
        ∀ a : PhysAddr, a.page ∈ frames → kernelEnd.toNat ≤ a.value ∧ a.value < memoryEnd.toNat) ∧
      ((∃ cause after, (initFrames kernelEnd memoryEnd).run kernel = .error (.fault cause) after ∧
        cause.message = "Assertion failure: low <= high") ↔
        memoryEnd.toNat / 4096 * 4096 < (kernelEnd.toNat + 4095) / 4096 * 4096) ∧
      ∀ stop after, (initFrames kernelEnd memoryEnd).run kernel = .error stop after →
        stop = .fault .framesReversed) ∧
    (0xfffffffffff000 < kernelEnd.toNat →
      memoryEnd.toNat / 4096 * 4096 < (kernelEnd.toNat + 4095) / 4096 * 4096 ∧
      ∃ after frames, (initFrames kernelEnd memoryEnd).run kernel = .ok () after ∧
        after.Supplies frames ∧ frames.Pairwise (fun page other => page.number < other.number) ∧
        ∀ page, page ∈ frames ↔ 4096 * (page.number + 1) ≤ memoryEnd.toNat) := by
  have hfloor := PhysAddr.number_page_ofNat hmemory
  constructor
  · intro hlast
    have hceil := PhysAddr.number_pageCeil_ofNat hlast
    rcases initFrames_cases kernelEnd memoryEnd hunheld hceil hfloor with
      ⟨hle, after, hrun, hsupplies⟩ | ⟨hlt, after, hrun⟩
    · refine ⟨fun after' hrun' => ?_, ⟨?_, ?_⟩, fun stop after' hrun' => ?_⟩
      · cases hrun.symm.trans hrun'
        refine ⟨_, hsupplies, PhysPage.pairwise_upTo (by omega),
          fun page => PhysPage.mem_upTo_round hmemory, fun a ha => ?_⟩
        have hpage := (PhysPage.mem_upTo_round hmemory).mp ha
        simp only [PhysAddr.page, pageSize_eq] at hpage
        omega
      · rintro ⟨cause, after', hrun', -⟩
        cases hrun.symm.trans hrun'
      · intro hreversed
        omega
      · cases hrun.symm.trans hrun'
    · refine ⟨fun after' hrun' => ?_, ⟨fun _ => ?_, fun _ => ⟨_, after, hrun, rfl⟩⟩,
        fun stop after' hrun' => ?_⟩
      · cases hrun.symm.trans hrun'
      · omega
      · cases hrun.symm.trans hrun'
        rfl
  · intro hpast
    have hceil := PhysAddr.number_pageCeil_ofNat_of_lt hpast hkernel
    refine ⟨by omega, ?_⟩
    rcases initFrames_cases kernelEnd memoryEnd hunheld hceil hfloor with
      ⟨hle, after, hrun, hsupplies⟩ | ⟨hlt, -⟩
    · refine ⟨after, _, hrun, hsupplies, PhysPage.pairwise_upTo (by omega), fun page => ?_⟩
      rw [PhysPage.mem_upTo (by omega)]
      omega
    · omega

-- A range that starts in the middle of a frame, and one that is reversed.
theorem initFrames_supplies_seven_frames : ∃ after frames,
    (initFrames 0x100800 0x108000).run (boot (.filled 1024 0xcd)) = .ok () after ∧
    after.Supplies frames ∧ (∀ page, page ∈ frames ↔ 0x101 ≤ page.number ∧ page.number < 0x108) ∧
    ∃ cause after, (initFrames 0x100801 0x100fff).run (boot (.filled 1024 0xcd)) =
      .error (.fault cause) after ∧ cause.message = "Assertion failure: low <= high" := by
  have hunheld := unheld_boot (.filled 1024 0xcd)
  have hrun := run_initFrames_of_between 0x100800 0x108000 hunheld
    (FramePool.between_of_le (by decide))
  obtain ⟨frames, hsupplies, -, hmem, -⟩ := ((initFrames_supplies_whole_frames hunheld
    (by decide) (by decide)).1 (by decide)).1 _ hrun
  refine ⟨_, frames, hrun, hsupplies, fun page => ?_, ?_⟩
  · rw [hmem, show (0x100800 : UInt64).toNat = 0x100800 from rfl,
      show (0x108000 : UInt64).toNat = 0x108000 from rfl]
    omega
  · exact ((initFrames_supplies_whole_frames hunheld (by decide) (by decide)).1
      (by decide)).2.1.mpr (by decide)

-- Kernel code that ends within the last frame of all leaves nothing to hand out, but the pool gets
-- every whole frame below the other address, and the first one is frame zero.
theorem initFrames_wraps_in_last_frame : ∃ after frames,
    (initFrames 0xffffffffffffff 0x8000).run (boot (.filled 1024 0xcd)) = .ok () after ∧
    0x8000 / 4096 * 4096 < (0xffffffffffffff + 4095) / 4096 * 4096 ∧
    after.Supplies (.ofNat 0 :: frames) ∧ 4096 * (PhysPage.ofNat 0).number < 0xffffffffffffff := by
  rcases initFrames_cases 0xffffffffffffff 0x8000 (unheld_boot (.filled 1024 0xcd))
    (PhysAddr.number_pageCeil_ofNat_of_lt (by decide) (by decide))
    (PhysAddr.number_page_ofNat (by decide)) with ⟨-, after, hrun, hsupplies⟩ | ⟨hlt, -⟩
  · rw [PhysPage.upTo_cons (by decide)] at hsupplies
    exact ⟨after, _, hrun, by decide, hsupplies, by decide⟩
  · omega

end Kernel

end PagedMemory
