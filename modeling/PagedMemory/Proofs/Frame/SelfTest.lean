import PagedMemory.Frame.SelfTest
import PagedMemory.Proofs.Frame.Offers

namespace PagedMemory.SelfTest

open Kernel (Out Returned run_giveBack)

-- Contents of memory are compared here and never computed.
attribute [local irreducible] Memory.fillFrame

variable {kernel : Kernel} {low high : Nat} {free taken rest : List PhysPage}

-- What the taking of these frames does: they are owned now and their contents are gone, and each is
-- logged.
structure Taken (low high : Nat) (kernel kernel' : Kernel) (taken rest : List PhysPage) : Prop where
  offers : kernel'.Offers low high rest
  log : kernel'.machine.log =
    kernel.machine.log ++ taken.map fun page => ⟨.info, OwnedFrame.text ⟨page, true⟩⟩
  window : kernel'.machine.memory.frames = kernel.machine.memory.frames
  spared : ∀ other ∉ taken,
    kernel'.machine.memory.frame other = kernel.machine.memory.frame other

-- One frame is taken and logged, and then the others.
theorem Taken.cons {kernel kernel₁ kernel' : Kernel} {page : PhysPage}
    (hmachine : kernel₁.machine = ⟨kernel.machine.memory.fillFrame page 0,
      kernel.machine.log ++ [⟨.info, OwnedFrame.text ⟨page, true⟩⟩]⟩)
    (h : Taken low high kernel₁ kernel' taken rest) :
    Taken low high kernel kernel' (page :: taken) rest where
  offers := h.offers
  log := by
    rw [h.log, hmachine, List.map_cons, List.append_assoc, List.singleton_append]
  window := by
    rw [h.window, hmachine]
    exact Memory.frames_fillFrame _ _ _
  spared := fun other hnot => by
    rw [List.mem_cons, not_or] at hnot
    rw [h.spared other hnot.2, hmachine]
    exact Memory.frame_fillFrame_other hnot.1

theorem run_takeAll_succ {page : PhysPage} (hoffers : kernel.Offers low high (page :: rest))
    (count : Nat) :
    ∃ kernel₁ : Kernel, kernel₁.Offers low high rest ∧
      kernel₁.machine = ⟨kernel.machine.memory.fillFrame page 0,
        kernel.machine.log ++ [⟨.info, OwnedFrame.text ⟨page, true⟩⟩]⟩ ∧
      (takeAll (count + 1)).run kernel =
        ((do return ⟨page, true⟩ :: (← takeAll count)) : Action Kernel (List OwnedFrame)).run
          kernel₁ := by
  obtain ⟨kernel₀, htake, hmachine, hoffers₀⟩ := OwnedFrame.run_take_cons hoffers
  let kernel₁ : Kernel :=
    ⟨⟨kernel₀.machine.memory, kernel₀.machine.log ++ [⟨.info, OwnedFrame.text ⟨page, true⟩⟩]⟩,
      kernel₀.pool⟩
  have hreport : (Kernel.onMachine (Machine.report
      ⟨.info, OwnedFrame.text ⟨page, true⟩⟩)).run kernel₀ = .ok () kernel₁ := rfl
  refine ⟨kernel₁, hoffers₀.congr rfl rfl fun _ _ => rfl, ?_, ?_⟩
  · change (⟨kernel₀.machine.memory, _⟩ : Machine) = _
    rw [hmachine]
  · rw [takeAll, Action.run_bind_ok htake]
    exact Action.run_bind_ok hreport

theorem run_takeAll (hoffers : kernel.Offers low high (taken ++ rest)) :
    ∃ kernel', (takeAll taken.length).run kernel = .ok (taken.map (⟨·, true⟩)) kernel' ∧
      Taken low high kernel kernel' taken rest := by
  induction taken generalizing kernel with
  | nil => exact ⟨kernel, rfl, hoffers, (List.append_nil _).symm, rfl, fun _ _ => rfl⟩
  | cons page taken ih =>
      obtain ⟨kernel₁, hoffers₁, hmachine, htake⟩ := run_takeAll_succ hoffers taken.length
      obtain ⟨kernel', hrest, htaken⟩ := ih hoffers₁
      exact ⟨kernel', htake.trans (Action.run_bind_ok hrest), htaken.cons hmachine⟩

-- If there are too few, all of them are taken before the test fails.
theorem run_takeAll_of_few {count : Nat} (hoffers : kernel.Offers low high free)
    (hfew : free.length < count) :
    ∃ kernel', (takeAll count).run kernel = .error (.fault .selfTestOutOfFrames) kernel' ∧
      kernel'.Offers low high [] ∧
      kernel'.machine.log =
        kernel.machine.log ++ free.map fun page => ⟨.info, OwnedFrame.text ⟨page, true⟩⟩ := by
  obtain ⟨count, rfl⟩ := Nat.exists_eq_add_one_of_ne_zero (Nat.ne_of_gt (Nat.zero_lt_of_lt hfew))
  induction free generalizing kernel count with
  | nil =>
      have hfail : (Kernel.fail .selfTestOutOfFrames : Action Kernel (List OwnedFrame)).run kernel =
          .error (.fault .selfTestOutOfFrames) kernel := by
        rw [Kernel.run_fail, Fault.lines_eq_nil rfl, List.append_nil]
      refine ⟨kernel, ?_, hoffers, (List.append_nil _).symm⟩
      rw [takeAll, Action.run_bind_ok (OwnedFrame.run_take_nil hoffers)]
      exact hfail
  | cons page free ih =>
      rw [List.length_cons, Nat.add_lt_add_iff_right] at hfew
      obtain ⟨count, rfl⟩ := Nat.exists_eq_add_one_of_ne_zero (Nat.ne_of_gt (Nat.zero_lt_of_lt hfew))
      obtain ⟨kernel₁, hoffers₁, hmachine, htake⟩ := run_takeAll_succ hoffers (count + 1)
      obtain ⟨kernel', hfail, hoffers', hlog⟩ := ih hoffers₁ count hfew
      refine ⟨kernel', htake.trans (Action.run_bind_error hfail), hoffers', ?_⟩
      rw [hlog, hmachine, List.map_cons, List.append_assoc, List.singleton_append]

theorem run_dropAll (hoffers : kernel.Offers low high free) (hout : Out low high taken free) :
    ∃ kernel', (dropAll (taken.map (⟨·, true⟩))).run kernel = .ok () kernel' ∧
      Returned low high kernel kernel' taken free := by
  induction taken generalizing kernel free with
  | nil => exact ⟨kernel, rfl, .refl hoffers⟩
  | cons page taken ih =>
      rw [← List.singleton_append] at hout
      obtain ⟨kernel₁, hgive, hreturned⟩ := run_giveBack hoffers hout.append_left
      obtain ⟨kernel', hrest, hreturned'⟩ := ih hreturned.offers hout.append_right
      exact ⟨kernel', (Action.run_bind_ok hgive).trans hrest, hreturned.trans hreturned'⟩

-- A round turns around the order of the frames it takes.
theorem run_round (hoffers : kernel.Offers low high (taken ++ rest))
    (hcount : taken.length = frameCount) :
    ∃ kernel', round.run kernel = .ok () kernel' ∧
      kernel'.Offers low high (taken.reverse ++ rest) ∧
      kernel'.machine.log =
        kernel.machine.log ++ taken.map (fun page => ⟨.info, OwnedFrame.text ⟨page, true⟩⟩) ∧
      kernel'.machine.memory.frames = kernel.machine.memory.frames ∧
      ∀ other ∉ taken,
        kernel'.machine.memory.frame other = kernel.machine.memory.frame other := by
  have hnodup := List.nodup_append'.mp hoffers.nodup
  have hout : Out low high taken rest :=
    ⟨hnodup.1, fun _ hmem => hoffers.range (List.mem_append_left _ hmem),
      fun _ hmem hrest => hnodup.2.2 hmem hrest⟩
  obtain ⟨kernel₁, htake, htaken⟩ := run_takeAll hoffers
  obtain ⟨kernel', hdrop, hreturned⟩ := run_dropAll htaken.offers hout
  rw [hcount] at htake
  refine ⟨kernel', (Action.run_bind_ok htake).trans hdrop, hreturned.offers,
    hreturned.log.trans htaken.log, hreturned.window.trans htaken.window, fun other hnot => ?_⟩
  exact (hreturned.spared other hnot).trans (htaken.spared other hnot)

-- With enough free frames the test leaves the pool as it was. It logs the frames it took, in the
-- order of each round.
theorem run_run (hoffers : kernel.Offers low high free) (hcount : frameCount ≤ free.length) :
    ∃ kernel', run.run kernel = .ok () kernel' ∧ kernel'.Offers low high free ∧
      kernel'.machine.log =
        kernel.machine.log ++
          (free.take frameCount ++ (free.take frameCount).reverse).map
            (fun page => ⟨.info, OwnedFrame.text ⟨page, true⟩⟩) ++
          [⟨.info, "frame allocator self test passed"⟩] ∧
      kernel'.machine.memory.frames = kernel.machine.memory.frames ∧
      ∀ other ∉ free.take frameCount,
        kernel'.machine.memory.frame other = kernel.machine.memory.frame other := by
  have hsplit := List.take_append_drop frameCount free
  have hlength := List.length_take_of_le hcount
  rw [← hsplit] at hoffers
  obtain ⟨kernel₁, hfirst, hoffers₁, hlog₁, hwindow₁, hspared₁⟩ := run_round hoffers hlength
  obtain ⟨kernel₂, hsecond, hoffers₂, hlog₂, hwindow₂, hspared₂⟩ :=
    run_round hoffers₁ (by rw [List.length_reverse, hlength])
  rw [List.reverse_reverse, hsplit] at hoffers₂
  let kernel' : Kernel :=
    ⟨⟨kernel₂.machine.memory,
      kernel₂.machine.log ++ [⟨.info, "frame allocator self test passed"⟩]⟩, kernel₂.pool⟩
  refine ⟨kernel', ?_, hoffers₂.congr rfl rfl fun _ _ => rfl, ?_, hwindow₂.trans hwindow₁, ?_⟩
  · exact (Action.run_bind_ok hfirst).trans (Action.run_bind_ok hsecond)
  · change kernel₂.machine.log ++ _ = _
    rw [hlog₂, hlog₁, List.map_append, List.append_assoc kernel.machine.log]
  · intro other hnot
    exact (hspared₂ other (mt List.mem_reverse.mp hnot)).trans (hspared₁ other hnot)

theorem run_run_of_few (hoffers : kernel.Offers low high free) (hfew : free.length < frameCount) :
    ∃ kernel', run.run kernel = .error (.fault .selfTestOutOfFrames) kernel' ∧
      kernel'.Offers low high [] ∧
      kernel'.machine.log =
        kernel.machine.log ++ free.map fun page => ⟨.info, OwnedFrame.text ⟨page, true⟩⟩ := by
  obtain ⟨kernel', hfail, hleft⟩ := run_takeAll_of_few hoffers hfew
  exact ⟨kernel', Action.run_bind_error (Action.run_bind_error hfail), hleft⟩

end PagedMemory.SelfTest
