import PagedMemory.Proofs.Frame.Offers

namespace PagedMemory

namespace FramePool

variable {pool : FramePool} {memory memory' : Memory} {free free' rest : List PhysPage}
  {top frame : PhysPage}

-- The links of a stack name the frames below its top, in order, and the end.
theorem Linked.links_eq (h : Linked memory (top :: rest)) :
    ((top :: rest).map fun frame => (memory.word frame.base).toNat) =
      rest.map PhysPage.number ++ [endMark.toNat] := by
  induction rest generalizing top with
  | nil =>
      rw [List.map_singleton, h.1]
      rfl
  | cons below rest ih =>
      rw [List.map_cons, ih h.2, h.1, List.head?_cons, toNat_linkTo_some, List.map_cons,
        List.cons_append]

-- Which frames are free says what each link is, given all others: a pool has no use for a frame whose
-- link was overwritten.
theorem HandsOut.link_determined (h : pool.HandsOut memory free) (h' : pool.HandsOut memory' free')
    (hperm : free'.Perm free) (hmem : frame ∈ stackFrom memory pool.stacked pool.top)
    (hothers : ∀ other ≠ frame, memory'.word other.base = memory.word other.base) :
    memory'.word frame.base = memory.word frame.base := by
  obtain ⟨stack, hs, rfl⟩ := h
  obtain ⟨stack', hs', rfl⟩ := h'
  rw [hs.stacked_eq, hs.top_eq, stackFrom_eq hs.linked] at hmem
  have hstacks := (List.perm_append_right_iff _).mp hperm
  have hhead : stack'.head? = stack.head? := hs'.top_eq.symm.trans hs.top_eq
  obtain ⟨top, rest, rfl⟩ := List.exists_cons_of_ne_nil (List.ne_nil_of_mem hmem)
  obtain ⟨rest', rfl⟩ := List.head?_eq_some_iff.mp hhead
  let link (memory : Memory) (frame : PhysPage) : Nat := (memory.word frame.base).toNat
  -- All links taken together are the same in both memories, and so is each link but one.
  have hlinks : ((top :: rest).map (link memory')).Perm ((top :: rest).map (link memory)) :=
    calc (top :: rest).map (link memory')
      _ |>.Perm ((top :: rest').map (link memory')) := hstacks.symm.map _
      _ = rest'.map PhysPage.number ++ [endMark.toNat] := hs'.linked.links_eq
      _ |>.Perm (rest.map PhysPage.number ++ [endMark.toNat]) :=
        (((List.perm_cons top).mp hstacks).map PhysPage.number).append_right _
      _ = (top :: rest).map (link memory) := hs.linked.links_eq.symm
  have herase := List.perm_cons_erase hmem
  have hrest : ((top :: rest).erase frame).map (link memory') =
      ((top :: rest).erase frame).map (link memory) := by
    refine List.map_congr_left fun other hother => ?_
    exact congrArg UInt64.toNat (hothers other ((List.Nodup.mem_erase_iff hs.nodup).mp hother).1)
  have hcons := ((herase.map (link memory')).symm.trans hlinks).trans (herase.map (link memory))
  rw [List.map_cons, List.map_cons, hrest] at hcons
  have hsingle : [link memory' frame].Perm [link memory frame] :=
    (List.perm_append_right_iff _).mp hcons
  exact UInt64.toNat_inj.mp (List.singleton_perm_singleton.mp hsingle)

end FramePool

namespace Kernel.Offers

variable {kernel kernel' : Kernel} {low high : Nat} {free free' : List PhysPage} {frame : PhysPage}

-- The pool and memory say which frames are offered.
theorem unique (h : kernel.Offers low high free) (h' : kernel.Offers low high free') :
    free' = free := by
  obtain ⟨pool, heq, -, -, hhands⟩ := h
  obtain ⟨pool', heq', -, -, hhands'⟩ := h'
  have hpool := heq.symm.trans heq'
  cases hpool
  rw [← hhands.freeFrames_eq, ← hhands'.freeFrames_eq]

theorem link_determined (h : kernel.Offers low high free) (h' : kernel'.Offers low high free')
    (hpool : kernel'.pool = kernel.pool) (hperm : free'.Perm free)
    (hmem : frame ∈ kernel.linkFrames)
    (hothers : ∀ other ≠ frame,
      kernel'.machine.memory.word other.base = kernel.machine.memory.word other.base) :
    kernel'.machine.memory.word frame.base = kernel.machine.memory.word frame.base := by
  obtain ⟨pool, heq, -, -, hhands⟩ := h
  obtain ⟨pool', heq', -, -, hhands'⟩ := h'
  rw [linkFrames, heq] at hmem
  have hpools := heq.symm.trans (hpool.symm.trans heq')
  cases hpools
  exact hhands.link_determined hhands' hperm hmem hothers

-- Frames with links are free.
theorem mem_of_linkFrames (h : kernel.Offers low high free) (hmem : frame ∈ kernel.linkFrames) :
    frame ∈ free := by
  obtain ⟨pool, heq, -, -, hhands⟩ := h
  rw [linkFrames, heq] at hmem
  rw [← hhands.freeFrames_eq]
  exact List.mem_append_left _ hmem

end Kernel.Offers

end PagedMemory
