import PagedMemory.Proofs.Frame.FreeList

namespace PagedMemory.FramePool

variable {low high frame other : PhysPage} {machine machine' : Machine} {pool pool' : FramePool}
  {memory memory' : Memory} {word : UInt64} {stack frames : List PhysPage}

-- A word names the first of these frames, the first word of each frame names the next one, and that
-- of the last one is the end mark. Every frame can be read.
def LeadsThrough (memory : Memory) : UInt64 → List PhysPage → Prop
  | word, [] => word = endMark
  | word, frame :: rest =>
      word = linkTo (some frame) ∧ ∃ below, link frame memory = .ok below ∧
        LeadsThrough memory below rest

-- There is one way only to follow the words.
theorem LeadsThrough.unique {frames' : List PhysPage} (h : LeadsThrough memory word frames)
    (h' : LeadsThrough memory word frames') : frames' = frames := by
  induction frames generalizing word frames' with
  | nil =>
      cases frames' with
      | nil => rfl
      | cons frame rest => exact (linkTo_some_ne_endMark frame (h'.1.symm.trans h)).elim
  | cons frame rest ih =>
      obtain ⟨hword, below, hbelow, hrest⟩ := h
      cases frames' with
      | nil => exact (linkTo_some_ne_endMark frame (hword.symm.trans h')).elim
      | cons frame' rest' =>
          obtain ⟨hword', below', hbelow', hrest'⟩ := h'
          have hsame := congrArg ofLink (hword'.symm.trans hword)
          rw [ofLink_linkTo, ofLink_linkTo, Option.some.injEq] at hsame
          subst hsame
          rw [hbelow, Except.ok.injEq] at hbelow'
          subst hbelow'
          rw [ih hrest hrest']

theorem Linked.leadsThrough (h : Linked memory stack)
    (hframes : ∀ frame ∈ stack, frame.number < memory.frames) :
    LeadsThrough memory (linkTo stack.head?) stack := by
  induction stack with
  | nil => rfl
  | cons frame rest ih =>
      refine ⟨rfl, memory.word frame.base, link_eq (hframes frame (by simp)), ?_⟩
      rw [h.1]
      exact ih h.2 fun other hother => hframes other (List.mem_cons_of_mem _ hother)

-- What happens to a pool.
inductive PoolEvent where
  | start
  | taken (frame : PhysPage)
  | returned (frame : PhysPage)
deriving DecidableEq

-- Whether an event is one of a frame. A start is one of every frame: the pool forgets whatever was
-- taken from it.
def PoolEvent.concerns (frame : PhysPage) : PoolEvent → Bool
  | .start => true
  | .taken other => other = frame
  | .returned other => other = frame

@[simp]
theorem PoolEvent.concerns_taken :
    (PoolEvent.taken frame).concerns other = decide (frame = other) := rfl

@[simp]
theorem PoolEvent.concerns_returned :
    (PoolEvent.returned frame).concerns other = decide (frame = other) := rfl

-- The history of a pool begins with its newest event.
variable {history : List PoolEvent} {event : PoolEvent}

def latest? (history : List PoolEvent) (frame : PhysPage) : Option PoolEvent :=
  history.find? (·.concerns frame)

-- How many events are newer than the latest one of a frame.
def age (history : List PoolEvent) (frame : PhysPage) : Nat :=
  history.findIdx (·.concerns frame)

def sinceStart (history : List PoolEvent) : List PoolEvent := history.takeWhile (· ≠ .start)

theorem latest?_cons_same (h : event.concerns frame = true) :
    latest? (event :: history) frame = some event := List.find?_cons_of_pos h

theorem latest?_cons_other (h : event.concerns frame = false) :
    latest? (event :: history) frame = latest? history frame :=
  List.find?_cons_of_neg (by simp [h])

theorem age_cons_same (h : event.concerns frame = true) : age (event :: history) frame = 0 := by
  simp [age, List.findIdx_cons, h]

theorem age_cons_other (h : event.concerns frame = false) :
    age (event :: history) frame = age history frame + 1 := by
  simp [age, List.findIdx_cons, h]

-- A stack as the history has it: of the frames that were returned and not taken since, the one that
-- was returned last is on top.
structure LatestReturns (history : List PoolEvent) (stack : List PhysPage) : Prop where
  mem_iff : ∀ frame, frame ∈ stack ↔ latest? history frame = some (.returned frame)
  newest_first : stack.Pairwise fun upper lower => age history upper < age history lower

namespace LatestReturns

theorem nil : LatestReturns [] [] := ⟨by simp [latest?], .nil⟩

theorem start : LatestReturns (.start :: history) [] := by
  refine ⟨fun frame => ?_, .nil⟩
  rw [latest?_cons_same rfl]
  simp

theorem nodup (h : LatestReturns history stack) : stack.Nodup := by
  refine List.Pairwise.imp (fun {upper lower} hlt => ?_) h.newest_first
  rintro rfl
  exact Nat.lt_irrefl _ hlt

-- An event of other frames makes all frames of a stack older by one.
theorem newest_first_cons (h : LatestReturns history stack)
    (hothers : ∀ frame ∈ frames, event.concerns frame = false) (hsublist : frames.Sublist stack) :
    frames.Pairwise fun upper lower => age (event :: history) upper < age (event :: history) lower := by
  refine (h.newest_first.sublist hsublist).imp_of_mem fun {upper lower} hupper hlower hlt => ?_
  rw [age_cons_other (hothers upper hupper), age_cons_other (hothers lower hlower)]
  exact Nat.succ_lt_succ hlt

theorem taken (h : LatestReturns history stack) (frame : PhysPage) :
    LatestReturns (.taken frame :: history) (stack.erase frame) := by
  have hmem : ∀ other, other ∈ stack.erase frame ↔ other ≠ frame ∧ other ∈ stack :=
    fun other => h.nodup.mem_erase_iff
  refine ⟨fun other => ?_, h.newest_first_cons (fun other hother => ?_) List.erase_sublist⟩
  · rw [hmem]
    by_cases heq : frame = other
    · rw [latest?_cons_same (by simp [heq])]
      simp [heq]
    · rw [latest?_cons_other (by simp [heq]), h.mem_iff]
      simp [Ne.symm heq]
  · have hne := ((hmem other).mp hother).1
    simp [hne.symm]

theorem returned (h : LatestReturns history stack) (hfresh : frame ∉ stack) :
    LatestReturns (.returned frame :: history) (frame :: stack) := by
  have hself : (PoolEvent.returned frame).concerns frame = true := by simp
  have hothers : ∀ other ∈ stack, (PoolEvent.returned frame).concerns other = false := by
    intro other hother
    exact decide_eq_false fun heq => hfresh (heq ▸ hother)
  refine ⟨fun other => ?_, List.pairwise_cons.mpr
    ⟨fun other hother => ?_, h.newest_first_cons hothers (.refl stack)⟩⟩
  · by_cases heq : frame = other
    · subst heq
      simp [latest?_cons_same hself]
    · rw [latest?_cons_other (by simp [heq]), ← h.mem_iff]
      simp [Ne.symm heq]
  · rw [age_cons_same hself, age_cons_other (hothers other hother)]
    exact Nat.succ_pos _

end LatestReturns

-- Calls of a pool, with the history they make. It can be started again at any time, for any frames
-- that memory has. Between the calls memory may change, but not in the frames that were returned and
-- not taken since. Calls that halt end the run.
inductive RecordedRun : Machine → FramePool → List PoolEvent → Prop where
  | unstarted {machine : Machine} : RecordedRun machine {} []
  | start {machine : Machine} {pool pool' : FramePool} {history : List PoolEvent}
      {low high : PhysPage} (hrun : RecordedRun machine pool history)
      (hwindow : high.number ≤ machine.memory.frames) (hpool : between low high = .ok pool') :
      RecordedRun machine pool' (.start :: history)
  | take {machine machine' : Machine} {pool pool' : FramePool} {history : List PoolEvent}
      {answer : Option PhysPage} (hrun : RecordedRun machine pool history)
      (htake : take.run (machine, pool) = .ok answer (machine', pool')) :
      RecordedRun machine' pool' ((answer.map .taken).toList ++ history)
  | giveBack {machine machine' : Machine} {pool pool' : FramePool} {history : List PoolEvent}
      {frame : PhysPage} (hrun : RecordedRun machine pool history)
      (hgive : (giveBack frame).run (machine, pool) = .ok () (machine', pool')) :
      RecordedRun machine' pool' (.returned frame :: history)
  | write {machine machine' : Machine} {pool : FramePool} {history : List PoolEvent}
      (hrun : RecordedRun machine pool history)
      (hframes : machine'.memory.frames = machine.memory.frames)
      (hspared : ∀ frame, latest? history frame = some (.returned frame) →
        machine'.memory.frame frame = machine.memory.frame frame) :
      RecordedRun machine' pool history

namespace RecordedRun

-- What clients write to frames that are out is allowed.
theorem writeTaken (hrun : RecordedRun machine pool history)
    (hframes : machine'.memory.frames = machine.memory.frames)
    (htaken : ∀ frame, machine'.memory.frame frame ≠ machine.memory.frame frame →
      latest? history frame = some (.taken frame)) : RecordedRun machine' pool history := by
  refine hrun.write hframes fun frame hreturned => ?_
  by_contra hne
  rw [htaken frame hne] at hreturned
  cases hreturned

-- So a frame may be filled once it was taken.
theorem fillTaken (hrun : RecordedRun machine pool history) (frame : PhysPage) (value : UInt8)
    (htaken : latest? history frame = some (.taken frame)) :
    RecordedRun ⟨machine.memory.fillFrame frame value, machine.log⟩ pool history := by
  refine hrun.writeTaken (Memory.frames_fillFrame _ _ _) fun other hwritten => ?_
  have heq : other = frame := by
    by_contra hne
    exact hwritten (Memory.frame_fillFrame_other hne)
  rw [heq, htaken]

-- The stack in memory is the stack of the history, and all frames below the mark were taken since
-- the pool was started.
structure Invariant (memory : Memory) (pool : FramePool) (history : List PoolEvent)
    (stack : List PhysPage) : Prop where
  inMemory : pool.Stacks memory stack
  inHistory : LatestReturns history stack
  issued : ∀ frame, pool.low ≤ frame.number → frame.number < pool.next →
    .taken frame ∈ sinceStart history

namespace Invariant

theorem start (hwindow : high.number ≤ memory.frames) (hpool : between low high = .ok pool) :
    Invariant memory pool (.start :: history) [] := by
  refine ⟨stacks_of_between hpool hwindow, .start, fun frame hlow hnext => ?_⟩
  obtain ⟨-, rfl⟩ := between_eq_ok hpool
  exact (Nat.not_lt.mpr hlow hnext).elim

theorem take {answer : Option PhysPage} (h : Invariant machine.memory pool history stack)
    (htake : FramePool.take.run (machine, pool) = .ok answer (machine', pool')) :
    ∃ stack', Invariant machine'.memory pool' ((answer.map .taken).toList ++ history) stack' := by
  cases stack with
  | cons top rest =>
      rw [h.inMemory.run_take] at htake
      cases htake
      refine ⟨rest, h.inMemory.tail, ?_, fun frame hlow hnext => ?_⟩
      · simpa using h.inHistory.taken top
      · exact List.mem_cons_of_mem _ (h.issued frame hlow hnext)
  | nil =>
      have htop : pool.top = none := h.inMemory.top_eq
      by_cases hfull : pool.next = pool.high
      · rw [run_take_of_full htop hfull] at htake
        cases htake
        exact ⟨[], h⟩
      · rw [run_take_of_next htop hfull] at htake
        cases htake
        refine ⟨[], h.inMemory.advance hfull, h.inHistory.taken _, fun frame hlow hnext => ?_⟩
        rcases Nat.lt_succ_iff_lt_or_eq.mp hnext with hnext | hnext
        · exact List.mem_cons_of_mem _ (h.issued frame hlow hnext)
        · rw [← hnext, PhysPage.ofNat_number]
          exact List.mem_cons_self

theorem giveBack (h : Invariant machine.memory pool history stack)
    (hgive : (FramePool.giveBack frame).run (machine, pool) = .ok () (machine', pool')) :
    Invariant machine'.memory pool' (.returned frame :: history) (frame :: stack) := by
  by_cases hout : pool.low ≤ frame.number ∧ frame.number < pool.next ∧ frame ∉ stack
  · have hisOut : pool.isOut frame machine.memory = .ok true := by
      rw [h.inMemory.isOut_eq, decide_eq_true hout]
    obtain ⟨hlow, hnext, hstack⟩ := hout
    rw [run_giveBack_of_out (h.inMemory.lt_frames_of_lt hnext) hisOut, EStateM.Result.ok.injEq,
      Prod.mk.injEq] at hgive
    obtain ⟨-, rfl, rfl⟩ := hgive
    exact ⟨h.inMemory.push hlow hnext hstack, h.inHistory.returned hstack, fun other hlow' hnext' =>
      List.mem_cons_of_mem _ (h.issued other hlow' hnext')⟩
  · have hisOut : pool.isOut frame machine.memory = .ok false := by
      rw [h.inMemory.isOut_eq, decide_eq_false hout]
    rw [run_giveBack_of_not_out hisOut] at hgive
    cases hgive

theorem write (h : Invariant memory pool history stack) (hframes : memory'.frames = memory.frames)
    (hspared : ∀ frame, latest? history frame = some (.returned frame) →
      memory'.frame frame = memory.frame frame) : Invariant memory' pool history stack :=
  { h with
    inMemory := h.inMemory.congr hframes fun frame hmem =>
      Memory.word_base_eq_of_frame_eq (hspared frame ((h.inHistory.mem_iff frame).mp hmem)) }

end Invariant

theorem invariant (hrun : RecordedRun machine pool history) :
    ∃ stack, Invariant machine.memory pool history stack := by
  induction hrun with
  | unstarted =>
      exact ⟨[], ⟨Nat.le_refl _, Nat.le_refl _, Nat.zero_le _, Nat.zero_le _, rfl, rfl, trivial,
        .nil, by simp⟩, .nil, fun _ _ hnext => (Nat.not_lt_zero _ hnext).elim⟩
  | start _ hwindow hpool => exact ⟨[], .start hwindow hpool⟩
  | take _ htake ih =>
      obtain ⟨stack, h⟩ := ih
      exact h.take htake
  | giveBack _ hgive ih =>
      obtain ⟨stack, h⟩ := ih
      exact ⟨_, h.giveBack hgive⟩
  | write _ hframes hspared ih =>
      obtain ⟨stack, h⟩ := ih
      exact ⟨stack, h.write hframes hspared⟩

-- A frame below the mark can be returned as long as its latest event is not a return.
theorem exists_giveBack (hrun : RecordedRun machine pool history) (frame : PhysPage)
    (hlow : pool.low ≤ frame.number) (hnext : frame.number < pool.next)
    (hlatest : latest? history frame ≠ some (.returned frame)) :
    ∃ machine', machine'.memory.frames = machine.memory.frames ∧
      RecordedRun machine' { pool with top := some frame, stacked := pool.stacked + 1 }
        (.returned frame :: history) := by
  obtain ⟨stack, h⟩ := hrun.invariant
  have hstack : frame ∉ stack := mt (h.inHistory.mem_iff frame).mp hlatest
  have hout : pool.isOut frame machine.memory = .ok true := by
    rw [h.inMemory.isOut_eq, decide_eq_true ⟨hlow, hnext, hstack⟩]
  refine ⟨_, ?_, hrun.giveBack (run_giveBack_of_out (h.inMemory.lt_frames_of_lt hnext) hout)⟩
  exact Memory.frames_setWord _ _ _

-- The words from the top of the stack on lead through as many frames as are counted, each of them
-- once and taken at some time, and then to the end mark; they lead nowhere else. These are the frames
-- whose latest event is a return, and the later one was returned the higher it is. So the search for
-- any frame comes to an end after no more steps than frames are counted, and it finds the frames that
-- were taken since the start and whose latest event is a return.
theorem stack_lists_latest_returns (hrun : RecordedRun machine pool history) :
    ∃ frames, LeadsThrough machine.memory (linkTo pool.top) frames ∧
      (∀ frames', LeadsThrough machine.memory (linkTo pool.top) frames' → frames' = frames) ∧
      frames.length = pool.stacked ∧ frames.Nodup ∧
      (∀ frame ∈ frames, pool.low ≤ frame.number ∧ frame.number < pool.next) ∧
      (∀ frame, frame ∈ frames ↔ latest? history frame = some (.returned frame)) ∧
      (frames.Pairwise fun upper lower => age history upper < age history lower) ∧
      (∀ frame steps, pool.stacked ≤ steps →
        searchBelow frame machine.memory steps (linkTo pool.top) = .ok (decide (frame ∈ frames))) ∧
      ∀ frame, pool.isStacked frame machine.memory =
        .ok (decide (.taken frame ∈ sinceStart history ∧
          latest? history frame = some (.returned frame))) := by
  obtain ⟨stack, hstacks, hlatest, hissued⟩ := hrun.invariant
  have hwindow : ∀ frame ∈ stack, frame.number < machine.memory.frames :=
    fun frame hmem => hstacks.lt_frames hmem
  have hleads : LeadsThrough machine.memory (linkTo pool.top) stack := by
    rw [hstacks.top_eq]
    exact hstacks.linked.leadsThrough hwindow
  have hissuedToo : ∀ frame, frame ∈ stack ↔ .taken frame ∈ sinceStart history ∧
      latest? history frame = some (.returned frame) := by
    intro frame
    rw [← hlatest.mem_iff]
    constructor
    · intro hmem
      have htaken := hstacks.taken frame hmem
      exact ⟨hissued frame htaken.1 htaken.2, hmem⟩
    · exact And.right
  refine ⟨stack, hleads, fun _ => hleads.unique, hstacks.stacked_eq.symm, hstacks.nodup,
    hstacks.taken, hlatest.mem_iff, hlatest.newest_first, fun frame steps hsteps => ?_,
    fun frame => ?_⟩
  · rw [hstacks.top_eq]
    exact searchBelow_eq hstacks.linked hwindow (hstacks.stacked_eq ▸ hsteps)
  · rw [isStacked_eq hstacks]
    congr 2
    exact propext (hissuedToo frame)

-- A frame is taken and returned, and then the pool is started again for two others. These are taken,
-- one of them is cleared, and both are returned. The first frame is forgotten.
theorem stack_lists_latest_returns_after_restart : ∃ machine pool,
    RecordedRun machine pool [.returned (.ofNat 2), .returned (.ofNat 1), .taken (.ofNat 2),
      .taken (.ofNat 1), .start, .returned (.ofNat 3), .taken (.ofNat 3), .start] ∧
    LeadsThrough machine.memory (linkTo pool.top) [.ofNat 2, .ofNat 1] ∧
    pool.isStacked (.ofNat 1) machine.memory = .ok true ∧
    pool.isStacked (.ofNat 3) machine.memory = .ok false := by
  have hstart : RecordedRun ⟨.filled 4 0xcd, []⟩ ⟨3, 3, 4, none, 0⟩ [.start] :=
    unstarted.start (by decide) (rfl : between (.ofNat 3) (.ofNat 4) = .ok ⟨3, 3, 4, none, 0⟩)
  have htake : RecordedRun ⟨.filled 4 0xcd, []⟩ ⟨3, 4, 4, none, 0⟩ [.taken (.ofNat 3), .start] :=
    hstart.take (run_take_of_next rfl (by decide))
  obtain ⟨machine, hframes, hreturn⟩ :=
    htake.exists_giveBack (.ofNat 3) (by decide) (by decide) (by decide)
  have hagain : RecordedRun machine ⟨1, 1, 3, none, 0⟩
      [.start, .returned (.ofNat 3), .taken (.ofNat 3), .start] :=
    hreturn.start (by rw [hframes]; decide)
      (rfl : between (.ofNat 1) (.ofNat 3) = .ok ⟨1, 1, 3, none, 0⟩)
  have htakes : RecordedRun machine ⟨1, 3, 3, none, 0⟩ [.taken (.ofNat 2), .taken (.ofNat 1),
      .start, .returned (.ofNat 3), .taken (.ofNat 3), .start] :=
    (hagain.take (run_take_of_next rfl (by decide))).take (run_take_of_next rfl (by decide))
  have hfill := htakes.fillTaken (.ofNat 2) 0 (by decide)
  obtain ⟨machine', -, hlower⟩ :=
    hfill.exists_giveBack (.ofNat 1) (by decide) (by decide) (by decide)
  obtain ⟨machine'', -, hupper⟩ :=
    hlower.exists_giveBack (.ofNat 2) (by decide) (by decide) (by decide)
  obtain ⟨frames, hleads, -, hlength, -, -, hmem, hnewest, -, hstacked⟩ :=
    stack_lists_latest_returns hupper
  obtain ⟨upper, lower, rfl⟩ := List.length_eq_two.mp hlength
  have hone : .ofNat 1 ∈ [upper, lower] := (hmem (.ofNat 1)).mpr (by decide)
  have htwo : .ofNat 2 ∈ [upper, lower] := (hmem (.ofNat 2)).mpr (by decide)
  rw [List.pairwise_pair] at hnewest
  simp only [List.mem_cons, List.not_mem_nil, or_false] at hone htwo
  refine ⟨machine'', _, hupper, ?_, (hstacked _).trans (by decide), (hstacked _).trans (by decide)⟩
  rcases hone with rfl | rfl
  · rcases htwo with htwo | rfl
    · exact absurd htwo (by decide)
    · exact absurd hnewest (by decide)
  · rcases htwo with rfl | htwo
    · exact hleads
    · exact absurd htwo (by decide)

end RecordedRun

end PagedMemory.FramePool
