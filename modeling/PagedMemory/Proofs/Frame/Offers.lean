import PagedMemory.Proofs.Frame.FreeList
import PagedMemory.Table.Build

namespace PagedMemory

namespace Kernel

variable {kernel kernel' : Kernel} {low high : Nat} {free rest : List PhysPage} {frame : PhysPage}

-- The shared pool is built, nobody holds it, and it hands out these frames of a range, in this order.
def Offers (kernel : Kernel) (low high : Nat) (free : List PhysPage) : Prop :=
  ∃ pool, kernel.pool = ⟨some ⟨pool, false⟩⟩ ∧ pool.low = low ∧ pool.high = high ∧
    pool.HandsOut kernel.machine.memory free

-- The frames whose first words are the links of the pool's stack.
def linkFrames (kernel : Kernel) : List PhysPage :=
  match kernel.pool.value? with
  | some cell => FramePool.stackFrom kernel.machine.memory cell.value.stacked cell.value.top
  | none => []

namespace Offers

theorem range (h : kernel.Offers low high free) (hmem : frame ∈ free) :
    low ≤ frame.number ∧ frame.number < high := by
  obtain ⟨pool, -, rfl, rfl, hhands⟩ := h
  exact hhands.range hmem

theorem high_le_frames (h : kernel.Offers low high free) :
    high ≤ kernel.machine.memory.frames := by
  obtain ⟨pool, -, -, rfl, hhands⟩ := h
  exact hhands.high_le_frames

theorem high_le_pages (h : kernel.Offers low high free) : high ≤ 0x100000000000 := by
  obtain ⟨pool, -, -, rfl, hhands⟩ := h
  exact hhands.high_le_pages

theorem lt_frames (h : kernel.Offers low high free) (hmem : frame ∈ free) :
    frame.number < kernel.machine.memory.frames :=
  Nat.lt_of_lt_of_le (h.range hmem).2 h.high_le_frames

theorem nodup (h : kernel.Offers low high free) : free.Nodup := by
  obtain ⟨pool, -, -, -, hhands⟩ := h
  exact hhands.nodup

-- Changes to memory that spare the free frames do not concern the pool.
theorem congr (h : kernel.Offers low high free) (hpool : kernel'.pool = kernel.pool)
    (hframes : kernel'.machine.memory.frames = kernel.machine.memory.frames)
    (hsame : ∀ frame ∈ free,
      kernel'.machine.memory.frame frame = kernel.machine.memory.frame frame) :
    kernel'.Offers low high free := by
  obtain ⟨pool, heq, hlow, hhigh, hhands⟩ := h
  exact ⟨pool, hpool.trans heq, hlow, hhigh, hhands.congr hframes hsame⟩

theorem congr_links (h : kernel.Offers low high free) (hpool : kernel'.pool = kernel.pool)
    (hframes : kernel'.machine.memory.frames = kernel.machine.memory.frames)
    (hsame : ∀ frame ∈ kernel.linkFrames,
      kernel'.machine.memory.word frame.base = kernel.machine.memory.word frame.base) :
    kernel'.Offers low high free := by
  obtain ⟨pool, heq, hlow, hhigh, hhands⟩ := h
  rw [linkFrames, heq] at hsame
  exact ⟨pool, hpool.trans heq, hlow, hhigh, hhands.congr_links hframes hsame⟩

end Offers

theorem run_takeFrame (h : kernel.Offers low high free) :
    ∃ kernel', takeFrame.run kernel = .ok free.head? kernel' ∧ kernel'.machine = kernel.machine ∧
      kernel'.Offers low high free.tail ∧ (free = [] → kernel' = kernel) := by
  obtain ⟨machine, shared⟩ := kernel
  obtain ⟨pool, rfl, rfl, rfl, hhands⟩ := h
  obtain ⟨pool', htake, hhands', hlow, hhigh, hnil⟩ := FramePool.run_take hhands
  refine ⟨_, run_withPool_ok rfl htake, rfl, ⟨pool', rfl, hlow, hhigh, hhands'⟩, fun hfree => ?_⟩
  rw [hnil hfree]

theorem run_remainingFrames (h : kernel.Offers low high free) :
    remainingFrames.run kernel = .ok free.length kernel := by
  obtain ⟨machine, shared⟩ := kernel
  obtain ⟨pool, rfl, rfl, rfl, hhands⟩ := h
  rw [← hhands.remaining_eq]
  exact run_withPool_ok rfl rfl

theorem run_isStackedFrame (h : kernel.Offers low high free) (frame : PhysPage) :
    ∃ answer, (isStackedFrame frame).run kernel = .ok answer kernel := by
  obtain ⟨machine, shared⟩ := kernel
  obtain ⟨pool, rfl, rfl, rfl, hhands⟩ := h
  refine ⟨decide (frame ∈ free ∧ frame.number < pool.next), run_withPool_ok rfl ?_⟩
  have hstacked := FramePool.isStacked_eq_of_handsOut hhands frame
  simp only [EStateM.run_bind, EStateM.run_get, Action.run_onFirst, Machine.run_consult_ok hstacked]

-- Returning a frame that is out writes the first word of it and nothing else.
theorem run_giveBackFrame (h : kernel.Offers low high free) (hlow : low ≤ frame.number)
    (hhigh : frame.number < high) (hfree : frame ∉ free) :
    ∃ kernel' link, (giveBackFrame frame).run kernel = .ok () kernel' ∧
      kernel'.machine = ⟨kernel.machine.memory.setWord frame.base link, kernel.machine.log⟩ ∧
      kernel'.Offers low high (frame :: free) := by
  obtain ⟨machine, shared⟩ := kernel
  obtain ⟨pool, rfl, rfl, rfl, hhands⟩ := h
  obtain ⟨pool', hgive, hhands', hlow', hhigh'⟩ := FramePool.run_giveBack hhands hlow hhigh hfree
  exact ⟨_, _, run_withPool_ok rfl hgive, rfl, ⟨pool', rfl, hlow', hhigh', hhands'⟩⟩

-- A frame that is not out is refused, and the pool stays with whoever asked.
theorem run_giveBackFrame_refused (h : kernel.Offers low high free)
    (hout : ¬(low ≤ frame.number ∧ frame.number < high ∧ frame ∉ free)) :
    ∃ pool, (giveBackFrame frame).run kernel = .error (.fault (.notAllocated frame))
      ⟨⟨kernel.machine.memory, kernel.machine.log ++ (Fault.notAllocated frame).lines⟩,
        ⟨some ⟨pool, true⟩⟩⟩ := by
  obtain ⟨machine, shared⟩ := kernel
  obtain ⟨pool, rfl, rfl, rfl, hhands⟩ := h
  exact ⟨pool, run_withPool_error rfl (FramePool.run_giveBack_refused hhands hout)⟩

end Kernel

namespace OwnedFrame

variable {kernel : Kernel} {low high : Nat} {rest : List PhysPage} {page : PhysPage}

theorem run_claim {machine : Machine} (h : page.number < machine.memory.frames) :
    (claim page).run machine = .ok ⟨page, true⟩ ⟨machine.memory.fillFrame page 0, machine.log⟩ := by
  simp only [claim, EStateM.run_bind, EStateM.run_pure,
    Machine.run_inspect_reach h, Machine.run_change]

theorem run_take_nil (h : kernel.Offers low high []) : take.run kernel = .ok none kernel := by
  obtain ⟨kernel', htake, -, -, hnil⟩ := Kernel.run_takeFrame h
  rw [hnil rfl] at htake
  simp only [take, EStateM.run_bind, htake, List.head?_nil, EStateM.run_pure]

-- The first free frame is taken and filled with zeros.
theorem run_take_cons (h : kernel.Offers low high (page :: rest)) :
    ∃ kernel', take.run kernel = .ok (some ⟨page, true⟩) kernel' ∧
      kernel'.machine = ⟨kernel.machine.memory.fillFrame page 0, kernel.machine.log⟩ ∧
      kernel'.Offers low high rest := by
  obtain ⟨kernel', htake, hmachine, hoffers, -⟩ := Kernel.run_takeFrame h
  have hwindow : page.number < kernel'.machine.memory.frames := by
    rw [hmachine]
    exact h.lt_frames List.mem_cons_self
  refine ⟨{ kernel' with machine := ⟨kernel'.machine.memory.fillFrame page 0, kernel'.machine.log⟩ },
    ?_, by rw [hmachine], hoffers.congr rfl (Memory.frames_fillFrame _ _ _) ?_⟩
  · simp only [take, EStateM.run_bind, htake, List.head?_cons, Kernel.run_onMachine,
      run_claim hwindow, EStateM.run_pure]
  · intro other hmem
    have hne : other ≠ page := fun heq => (List.nodup_cons.mp h.nodup).1 (heq ▸ hmem)
    exact Memory.frame_fillFrame_other hne

end OwnedFrame

namespace Kernel

variable {kernel kernel' kernel'' : Kernel} {low high : Nat}
  {free rest frames others : List PhysPage} {frame : PhysPage}

theorem run_takeNode_nil (missing : Fault) (h : kernel.Offers low high []) :
    (takeNode missing).run kernel =
      .error (.fault missing)
        ⟨⟨kernel.machine.memory, kernel.machine.log ++ missing.lines⟩, kernel.pool⟩ := by
  simp only [takeNode, EStateM.run_bind, OwnedFrame.run_take_nil h, run_fail]

theorem run_takeNode_cons (missing : Fault) (h : kernel.Offers low high (frame :: rest)) :
    ∃ kernel', (takeNode missing).run kernel = .ok frame kernel' ∧
      kernel'.machine = ⟨kernel.machine.memory.fillFrame frame 0, kernel.machine.log⟩ ∧
      kernel'.Offers low high rest := by
  obtain ⟨kernel', htake, hmachine, hoffers⟩ := OwnedFrame.run_take_cons h
  refine ⟨kernel', ?_, hmachine, hoffers⟩
  simp only [takeNode, EStateM.run_bind, htake, OwnedFrame.release, if_true, run_onMachine,
    Machine.run_check_ok]

-- These frames are out of the pool, each once.
structure Out (low high : Nat) (frames free : List PhysPage) : Prop where
  nodup : frames.Nodup
  range : ∀ frame ∈ frames, low ≤ frame.number ∧ frame.number < high
  apart : ∀ frame ∈ frames, frame ∉ free

-- They went back, the first of them first. Nothing but their first words was written.
structure Returned (low high : Nat) (kernel kernel' : Kernel) (frames free : List PhysPage) :
    Prop where
  run : (frames.forM giveBackFrame).run kernel = .ok () kernel'
  offers : kernel'.Offers low high (frames.reverse ++ free)
  log : kernel'.machine.log = kernel.machine.log
  window : kernel'.machine.memory.frames = kernel.machine.memory.frames
  words : ∀ i, (∀ frame ∈ frames, i < frame.base.value ∨ frame.base.value + 8 ≤ i) →
    Bytes.byteAt kernel'.machine.memory.bytes i = Bytes.byteAt kernel.machine.memory.bytes i

theorem Returned.spared (h : Returned low high kernel kernel' frames free) (other : PhysPage)
    (hnot : other ∉ frames) :
    kernel'.machine.memory.frame other = kernel.machine.memory.frame other := by
  refine Memory.frame_eq_iff.mpr fun j hj => h.words _ fun frame hmem => ?_
  have hne : other.number ≠ frame.number := fun heq => hnot (PhysPage.ext_number heq ▸ hmem)
  rw [PhysPage.base_value]
  omega

theorem Out.append_left (h : Out low high (frames ++ others) free) : Out low high frames free :=
  ⟨(List.nodup_append'.mp h.nodup).1, fun _ hmem => h.range _ (List.mem_append_left _ hmem),
    fun _ hmem => h.apart _ (List.mem_append_left _ hmem)⟩

-- When the first of them are back, the others are still out.
theorem Out.append_right (h : Out low high (frames ++ others) free) :
    Out low high others (frames.reverse ++ free) := by
  have hnodup := List.nodup_append'.mp h.nodup
  refine ⟨hnodup.2.1, fun _ hmem => h.range _ (List.mem_append_right _ hmem), ?_⟩
  intro frame hmem hin
  rcases List.mem_append.mp hin with hin | hin
  · exact hnodup.2.2 (List.mem_reverse.mp hin) hmem
  · exact h.apart frame (List.mem_append_right _ hmem) hin

theorem Returned.refl (hoffers : kernel.Offers low high free) :
    Returned low high kernel kernel [] free := ⟨rfl, hoffers, rfl, rfl, fun _ _ => rfl⟩

theorem Returned.trans (h : Returned low high kernel kernel' frames free)
    (h' : Returned low high kernel' kernel'' others (frames.reverse ++ free)) :
    Returned low high kernel kernel'' (frames ++ others) free where
  run := by
    rw [List.forM_eq_forM, List.forM_append]
    exact (Action.run_bind_ok h.run).trans h'.run
  offers := by
    rw [List.reverse_append, List.append_assoc]
    exact h'.offers
  log := h'.log.trans h.log
  window := h'.window.trans h.window
  words := fun i hout =>
    (h'.words i fun frame hmem => hout frame (List.mem_append_right _ hmem)).trans
      (h.words i fun frame hmem => hout frame (List.mem_append_left _ hmem))

-- One frame is returned.
theorem run_giveBack (hoffers : kernel.Offers low high free)
    (hout : Out low high [frame] free) :
    ∃ kernel', (Kernel.giveBackFrame frame).run kernel = .ok () kernel' ∧
      Returned low high kernel kernel' [frame] free := by
  obtain ⟨hlow, hhigh⟩ := hout.range frame (List.mem_singleton_self frame)
  obtain ⟨kernel', link, hrun, hmachine, hoffers'⟩ := Kernel.run_giveBackFrame hoffers hlow hhigh
    (hout.apart frame (List.mem_singleton_self frame))
  have hmemory := congrArg Machine.memory hmachine
  refine ⟨kernel', hrun, Action.run_bind_ok hrun, hoffers', by rw [hmachine], ?_, fun i hout => ?_⟩
  · rw [hmemory]
    exact Memory.frames_setWord _ _ _
  · rw [hmemory]
    exact Memory.byteAt_setWord_outside (hout frame (List.mem_singleton_self frame))

-- Frames that are taken one after the other come in the order in which they are offered.
theorem run_takeFrames (h : kernel.Offers low high (frames ++ free)) :
    ∃ kernel', ((List.replicate frames.length ()).mapM fun _ => takeFrame).run kernel =
        .ok (frames.map some) kernel' ∧ kernel'.machine = kernel.machine ∧
      kernel'.Offers low high free := by
  induction frames generalizing kernel with
  | nil => exact ⟨kernel, rfl, rfl, h⟩
  | cons frame frames ih =>
      obtain ⟨kernel₁, htake, hmachine₁, hoffers₁, -⟩ := run_takeFrame h
      obtain ⟨kernel', hrest, hmachine', hoffers'⟩ := ih hoffers₁
      refine ⟨kernel', ?_, hmachine'.trans hmachine₁, hoffers'⟩
      rw [List.length_cons, List.replicate_succ, List.mapM_cons]
      exact (Action.run_bind_ok htake).trans (Action.run_bind_ok hrest)

end Kernel

end PagedMemory
