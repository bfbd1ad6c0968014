import Mathlib.Data.List.Nodup
import Mathlib.Data.List.Perm.Subperm
import PagedMemory.Frame.Pool
import PagedMemory.Proofs.Action
import PagedMemory.Proofs.Frame.Contents

namespace PagedMemory

namespace PhysPage

-- The frames with the numbers from `low` up to `high`, in order.
def upTo (low high : Nat) : List PhysPage := (List.range' low (high - low)).map .ofNat

@[simp]
theorem length_upTo (low high : Nat) : (upTo low high).length = high - low := by simp [upTo]

@[simp]
theorem upTo_self (n : Nat) : upTo n n = [] := by simp [upTo]

theorem upTo_cons {low high : Nat} (h : low < high) :
    upTo low high = .ofNat low :: upTo (low + 1) high := by
  obtain ⟨count, hcount⟩ : ∃ count, high - low = count + 1 := ⟨high - low - 1, by omega⟩
  simp only [upTo, hcount, show high - (low + 1) = count by omega, List.range'_succ, List.map_cons]

theorem mem_upTo {low high : Nat} (hhigh : high ≤ 0x100000000000) {page : PhysPage} :
    page ∈ upTo low high ↔ low ≤ page.number ∧ page.number < high := by
  simp only [upTo, List.mem_map, List.mem_range'_1]
  constructor
  · rintro ⟨n, hn, rfl⟩
    rw [number_ofNat (by omega)]
    omega
  · intro h
    exact ⟨page.number, by omega, ofNat_number page⟩

theorem nodup_upTo {low high : Nat} (hhigh : high ≤ 0x100000000000) : (upTo low high).Nodup := by
  refine List.Nodup.map_on ?_ List.nodup_range'
  intro m hm n hn h
  simp only [List.mem_range'_1] at hm hn
  have hnumber := congrArg PhysPage.number h
  rwa [number_ofNat (by omega), number_ofNat (by omega)] at hnumber

end PhysPage

namespace FramePool

variable {pool : FramePool} {memory memory' : Memory} {machine : Machine}
  {stack free : List PhysPage} {frame : PhysPage}

theorem toNat_linkTo_some (frame : PhysPage) : (linkTo (some frame)).toNat = frame.number :=
  frame.toNat_word

theorem linkTo_some_ne_endMark (frame : PhysPage) : linkTo (some frame) ≠ endMark := by
  intro h
  have hn := congrArg UInt64.toNat h
  have hlt := frame.isLt
  rw [toNat_linkTo_some] at hn
  simp only [endMark, UInt64.reduceToNat] at hn
  omega

-- A link names what it was made from.
theorem ofLink_linkTo (top : Option PhysPage) : ofLink (linkTo top) = top := by
  cases top with
  | none => rfl
  | some frame =>
      simp only [ofLink, if_neg (linkTo_some_ne_endMark frame), toNat_linkTo_some,
        PhysPage.ofNat_number]

-- Each frame of the stack holds the link to the one below it.
def Linked (memory : Memory) : List PhysPage → Prop
  | [] => True
  | frame :: rest => memory.word frame.base = linkTo rest.head? ∧ Linked memory rest

-- Only the first words of the frames matter.
theorem Linked.congr (h : Linked memory stack)
    (hframes : ∀ frame ∈ stack, memory'.word frame.base = memory.word frame.base) :
    Linked memory' stack := by
  induction stack with
  | nil => trivial
  | cons frame rest ih =>
      exact ⟨(hframes frame (by simp)).trans h.1,
        ih h.2 fun other hother => hframes other (List.mem_cons_of_mem _ hother)⟩

-- What a pool, and the memory it threads its stack through, look like when the frames of the stack
-- are known.
structure Stacks (pool : FramePool) (memory : Memory) (stack : List PhysPage) : Prop where
  low_le_next : pool.low ≤ pool.next
  next_le_high : pool.next ≤ pool.high
  high_le_frames : pool.high ≤ memory.frames
  high_le_pages : pool.high ≤ 0x100000000000
  top_eq : pool.top = stack.head?
  stacked_eq : pool.stacked = stack.length
  linked : Linked memory stack
  nodup : stack.Nodup
  taken : ∀ frame ∈ stack, pool.low ≤ frame.number ∧ frame.number < pool.next

-- Of memory only the first words of the frames on the stack matter.
theorem Stacks.congr (h : pool.Stacks memory stack) (hframes : memory'.frames = memory.frames)
    (hsame : ∀ frame ∈ stack, memory'.word frame.base = memory.word frame.base) :
    pool.Stacks memory' stack :=
  { h with
    high_le_frames := hframes ▸ h.high_le_frames
    linked := h.linked.congr hsame }

-- The pool hands out these frames, in this order: the stack from its top, then the frames that were
-- never taken.
def HandsOut (pool : FramePool) (memory : Memory) (free : List PhysPage) : Prop :=
  ∃ stack, pool.Stacks memory stack ∧ free = stack ++ PhysPage.upTo pool.next pool.high

namespace HandsOut

theorem range (h : pool.HandsOut memory free) (hmem : frame ∈ free) :
    pool.low ≤ frame.number ∧ frame.number < pool.high := by
  obtain ⟨stack, hs, rfl⟩ := h
  have hlow := hs.low_le_next
  have hnext := hs.next_le_high
  rcases List.mem_append.mp hmem with hmem | hmem
  · have := hs.taken frame hmem
    omega
  · have := (PhysPage.mem_upTo hs.high_le_pages).mp hmem
    omega

theorem high_le_frames (h : pool.HandsOut memory free) : pool.high ≤ memory.frames := by
  obtain ⟨stack, hs, -⟩ := h
  exact hs.high_le_frames

theorem high_le_pages (h : pool.HandsOut memory free) : pool.high ≤ 0x100000000000 := by
  obtain ⟨stack, hs, -⟩ := h
  exact hs.high_le_pages

theorem nodup (h : pool.HandsOut memory free) : free.Nodup := by
  obtain ⟨stack, hs, rfl⟩ := h
  refine List.nodup_append'.mpr ⟨hs.nodup, PhysPage.nodup_upTo hs.high_le_pages, ?_⟩
  intro frame hstack hupTo
  have ht := hs.taken frame hstack
  have hu := (PhysPage.mem_upTo hs.high_le_pages).mp hupTo
  omega

theorem remaining_eq (h : pool.HandsOut memory free) : pool.remaining = free.length := by
  obtain ⟨stack, hs, rfl⟩ := h
  rw [remaining, List.length_append, PhysPage.length_upTo, hs.stacked_eq]
  omega

-- Changes to memory that spare the free frames do not concern the pool.
theorem congr (h : pool.HandsOut memory free) (hframes : memory'.frames = memory.frames)
    (hsame : ∀ frame ∈ free, memory'.frame frame = memory.frame frame) :
    pool.HandsOut memory' free := by
  obtain ⟨stack, hs, rfl⟩ := h
  refine ⟨stack, hs.congr hframes fun frame hmem => ?_, rfl⟩
  exact Memory.word_base_eq_of_frame_eq (hsame frame (List.mem_append_left _ hmem))

end HandsOut

theorem between_eq_ok {low high : PhysPage} (h : between low high = .ok pool) :
    low.number ≤ high.number ∧
      pool = { low := low.number, next := low.number, high := high.number } := by
  simp only [between] at h
  split at h
  · rename_i hle
    cases h
    exact ⟨hle, rfl⟩
  · cases h

theorem stacks_of_between {low high : PhysPage} (h : between low high = .ok pool)
    (hwindow : high.number ≤ memory.frames) : pool.Stacks memory [] := by
  obtain ⟨hle, rfl⟩ := between_eq_ok h
  exact ⟨Nat.le_refl _, hle, hwindow, Nat.le_of_lt high.isLt, rfl, rfl, trivial, List.nodup_nil,
    by simp⟩

-- A pool that was made for a range hands out all of it, from its low end up.
theorem handsOut_of_between {low high : PhysPage} (h : between low high = .ok pool)
    (hwindow : high.number ≤ memory.frames) :
    pool.HandsOut memory (PhysPage.upTo low.number high.number) ∧ pool.low = low.number ∧
      pool.high = high.number := by
  have hstacks := stacks_of_between h hwindow
  obtain ⟨-, rfl⟩ := between_eq_ok h
  exact ⟨⟨[], hstacks, rfl⟩, rfl, rfl⟩

theorem between_of_le {low high : PhysPage} (h : low.number ≤ high.number) :
    between low high = .ok { low := low.number, next := low.number, high := high.number } :=
  if_pos h

theorem link_eq (h : frame.number < memory.frames) :
    link frame memory = .ok (memory.word frame.base) := by
  simp only [link, Memory.reach_base h]
  rfl

-- The word under the top of the stack is one that can stand there.
theorem canStandBelow_linkTo {rest : List PhysPage} (hstacked : pool.stacked = rest.length)
    (htaken : ∀ frame ∈ rest, pool.low ≤ frame.number ∧ frame.number < pool.next) :
    pool.canStandBelow (linkTo rest.head?) = true := by
  cases rest with
  | nil => simp [canStandBelow, linkTo, hstacked]
  | cons below rest =>
      have ht := htaken below (by simp)
      simp only [canStandBelow, List.head?_cons, if_neg (linkTo_some_ne_endMark below),
        toNat_linkTo_some, hstacked, List.length_cons]
      simp [ht]

theorem Stacks.tail {rest : List PhysPage} (h : pool.Stacks memory (frame :: rest)) :
    { pool with top := rest.head?, stacked := rest.length }.Stacks memory rest :=
  { h with
    top_eq := rfl
    stacked_eq := rfl
    linked := h.linked.2
    nodup := (List.nodup_cons.mp h.nodup).2
    taken := fun other hother => h.taken other (List.mem_cons_of_mem _ hother) }

theorem Stacks.lt_frames_of_lt (h : pool.Stacks memory stack) (hnext : frame.number < pool.next) :
    frame.number < memory.frames := by
  have hhigh := h.next_le_high
  have hframes := h.high_le_frames
  omega

theorem Stacks.lt_frames (h : pool.Stacks memory stack) (hmem : frame ∈ stack) :
    frame.number < memory.frames :=
  h.lt_frames_of_lt (h.taken frame hmem).2

-- The three ways to take a frame.

theorem run_take_of_full (htop : pool.top = none) (hfull : pool.next = pool.high) :
    take.run (machine, pool) = .ok none (machine, pool) := by
  simp only [take, EStateM.run_bind, EStateM.run_get, htop, if_pos hfull, EStateM.run_pure]

theorem run_take_of_next (htop : pool.top = none) (hnext : pool.next ≠ pool.high) :
    take.run (machine, pool) =
      .ok (some (.ofNat pool.next)) (machine, { pool with next := pool.next + 1 }) := by
  simp only [take, EStateM.run_bind, EStateM.run_get, htop, if_neg hnext, Action.run_onSecond,
    EStateM.run_set, EStateM.run_pure]

theorem run_take_of_top (htop : pool.top = some frame)
    (hwindow : frame.number < machine.memory.frames) :
    take.run (machine, pool) =
      if { pool with stacked := pool.stacked - 1 }.canStandBelow
          (machine.memory.word frame.base) = true then
        .ok (some frame) (machine, { pool with
          top := ofLink (machine.memory.word frame.base), stacked := pool.stacked - 1 })
      else
        .error (.fault (.brokenLink frame (machine.memory.word frame.base) (pool.stacked - 1)))
          (⟨machine.memory, machine.log ++ (Fault.brokenLink frame
            (machine.memory.word frame.base) (pool.stacked - 1)).lines⟩,
            { pool with stacked := pool.stacked - 1 }) := by
  simp only [take, EStateM.run_bind, EStateM.run_get, htop, Action.run_onFirst,
    Machine.run_inspect_ok (link_eq hwindow), Action.run_onSecond, EStateM.run_set]
  split <;> rfl

-- The top of a stack is taken, and the frame below it becomes the top.
theorem Stacks.run_take {rest : List PhysPage} (h : pool.Stacks machine.memory (frame :: rest)) :
    take.run (machine, pool) =
      .ok (some frame) (machine, { pool with top := rest.head?, stacked := rest.length }) := by
  have hbelow : { pool with stacked := rest.length }.canStandBelow (linkTo rest.head?) = true :=
    canStandBelow_linkTo rfl fun other hother => h.taken other (List.mem_cons_of_mem _ hother)
  rw [run_take_of_top h.top_eq (h.lt_frames (by simp)), h.linked.1, h.stacked_eq, List.length_cons,
    Nat.add_sub_cancel, if_pos hbelow, ofLink_linkTo]

-- Without a stack the next frame is taken, as long as there is one.
theorem Stacks.advance (h : pool.Stacks memory []) (hnext : pool.next ≠ pool.high) :
    { pool with next := pool.next + 1 }.Stacks memory [] :=
  { h with
    low_le_next := Nat.le_succ_of_le h.low_le_next
    next_le_high := Nat.lt_of_le_of_ne h.next_le_high hnext
    taken := by simp }

-- Taking a frame takes the first of the free ones, and leaves memory alone.
theorem run_take (h : pool.HandsOut machine.memory free) :
    ∃ pool', take.run (machine, pool) = .ok free.head? (machine, pool') ∧
      pool'.HandsOut machine.memory free.tail ∧ pool'.low = pool.low ∧ pool'.high = pool.high ∧
      (free = [] → pool' = pool) := by
  obtain ⟨stack, hs, rfl⟩ := h
  cases stack with
  | cons top rest => exact ⟨_, hs.run_take, ⟨rest, hs.tail, rfl⟩, rfl, rfl, by simp⟩
  | nil =>
      have htop : pool.top = none := hs.top_eq
      by_cases hfull : pool.next = pool.high
      · refine ⟨pool, ?_, ⟨[], hs, by simp [hfull]⟩, rfl, rfl, fun _ => rfl⟩
        rw [run_take_of_full htop hfull, List.nil_append, hfull, PhysPage.upTo_self, List.head?_nil]
      · have hlt : pool.next < pool.high := Nat.lt_of_le_of_ne hs.next_le_high hfull
        refine ⟨{ pool with next := pool.next + 1 }, ?_, ⟨[], hs.advance hfull, ?_⟩, rfl, rfl, ?_⟩
        · rw [run_take_of_next htop hfull, List.nil_append, PhysPage.upTo_cons hlt, List.head?_cons]
        · simp [PhysPage.upTo_cons hlt]
        · simp [PhysPage.upTo_cons hlt]

-- The search goes down the whole stack, and no further.
theorem searchBelow_eq {steps : Nat} (hlinked : Linked memory stack)
    (hframes : ∀ other ∈ stack, other.number < memory.frames) (hsteps : stack.length ≤ steps) :
    searchBelow frame memory steps (linkTo stack.head?) = .ok (decide (frame ∈ stack)) := by
  induction stack generalizing steps with
  | nil => cases steps <;> simp [searchBelow, linkTo]
  | cons top rest ih =>
      obtain ⟨steps, rfl⟩ : ∃ n, steps = n + 1 := ⟨steps - 1, by simp at hsteps; omega⟩
      simp only [List.head?_cons, searchBelow, if_neg (linkTo_some_ne_endMark top),
        toNat_linkTo_some, PhysPage.ofNat_number]
      by_cases heq : top = frame
      · simp [heq]
      · have hne : top.number ≠ frame.number := fun h => heq (PhysPage.ext_number h)
        have hrest : searchBelow frame memory steps (linkTo rest.head?) =
            .ok (decide (frame ∈ rest)) :=
          ih hlinked.2 (fun other hother => hframes other (List.mem_cons_of_mem _ hother))
            (by simpa using hsteps)
        rw [if_neg hne, link_eq (hframes top (by simp)), hlinked.1]
        simpa [Except.mapError, bind, Except.bind, Ne.symm heq] using hrest

theorem Stacks.length_le_frames (h : pool.Stacks memory stack) : stack.length ≤ memory.frames := by
  have hsubset : stack ⊆ PhysPage.upTo 0 pool.high := fun frame hmem => by
    have ht := h.taken frame hmem
    have hnext := h.next_le_high
    exact (PhysPage.mem_upTo h.high_le_pages).mpr (by omega)
  have hlength := (h.nodup.subperm hsubset).length_le
  have hhigh := h.high_le_frames
  rw [PhysPage.length_upTo] at hlength
  omega

theorem isStacked_eq (h : pool.Stacks memory stack) :
    pool.isStacked frame memory = .ok (decide (frame ∈ stack)) := by
  rw [isStacked, h.top_eq]
  exact searchBelow_eq h.linked (fun _ hmem => h.lt_frames hmem)
    (Nat.le_add_right_of_le h.length_le_frames)

-- The free frames on the stack are those that were taken before.
theorem isStacked_eq_of_handsOut (h : pool.HandsOut memory free) (frame : PhysPage) :
    pool.isStacked frame memory = .ok (decide (frame ∈ free ∧ frame.number < pool.next)) := by
  obtain ⟨stack, hs, rfl⟩ := h
  rw [isStacked_eq hs]
  congr 2
  rw [List.mem_append, PhysPage.mem_upTo hs.high_le_pages]
  apply propext
  constructor
  · intro hmem
    exact ⟨Or.inl hmem, (hs.taken frame hmem).2⟩
  · rintro ⟨hmem | hmem, hlt⟩
    · exact hmem
    · omega

-- The frames that were taken and are not on the stack are out.
theorem Stacks.isOut_eq (h : pool.Stacks memory stack) :
    pool.isOut frame memory =
      .ok (decide (pool.low ≤ frame.number ∧ frame.number < pool.next ∧ frame ∉ stack)) := by
  by_cases htaken : pool.low ≤ frame.number ∧ frame.number < pool.next
  · rw [isOut, if_pos htaken, isStacked_eq h]
    simp [bind, Except.bind, pure, Except.pure, htaken]
  · rw [isOut, if_neg htaken, decide_eq_false fun hout => htaken ⟨hout.1, hout.2.1⟩]

-- The frames of the range that are not free are out.
theorem isOut_eq (h : pool.HandsOut memory free) :
    pool.isOut frame memory =
      .ok (decide (pool.low ≤ frame.number ∧ frame.number < pool.high ∧ frame ∉ free)) := by
  obtain ⟨stack, hs, rfl⟩ := h
  have hnext := hs.next_le_high
  rw [hs.isOut_eq]
  congr 2
  rw [List.mem_append, not_or, PhysPage.mem_upTo hs.high_le_pages]
  apply propext
  constructor
  · rintro ⟨hlow, hlt, hstack⟩
    exact ⟨hlow, by omega, hstack, by omega⟩
  · rintro ⟨hlow, hhigh, hstack, hleft⟩
    exact ⟨hlow, by omega, hstack⟩

-- A frame that is out is put on top. Its first word is all that is written.
theorem run_giveBack_of_out (hwindow : frame.number < machine.memory.frames)
    (hout : pool.isOut frame machine.memory = .ok true) :
    (giveBack frame).run (machine, pool) =
      .ok () (⟨machine.memory.setWord frame.base (linkTo pool.top), machine.log⟩,
        { pool with top := some frame, stacked := pool.stacked + 1 }) := by
  simp only [giveBack, EStateM.run_bind, EStateM.run_get, Action.run_onFirst,
    Machine.run_consult_ok hout, if_true, Machine.run_inspect_reach hwindow, Machine.run_change,
    Action.run_onSecond, EStateM.run_set]

theorem run_giveBack_of_not_out (hout : pool.isOut frame machine.memory = .ok false) :
    (giveBack frame).run (machine, pool) = .error (.fault (.notAllocated frame))
      (⟨machine.memory, machine.log ++ (Fault.notAllocated frame).lines⟩, pool) := by
  simp only [giveBack, EStateM.run_bind, EStateM.run_get, Action.run_onFirst,
    Machine.run_consult_ok hout, Bool.false_eq_true, if_false, Machine.run_fail]

theorem Stacks.push (h : pool.Stacks memory stack) (hlow : pool.low ≤ frame.number)
    (hnext : frame.number < pool.next) (hstack : frame ∉ stack) :
    { pool with top := some frame, stacked := pool.stacked + 1 }.Stacks
      (memory.setWord frame.base (linkTo pool.top)) (frame :: stack) := by
  have hwindow := h.lt_frames_of_lt hnext
  have hspared : pool.Stacks (memory.setWord frame.base (linkTo pool.top)) stack := by
    refine h.congr (Memory.frames_setWord _ _ _) fun other hother => ?_
    refine Memory.word_base_eq_of_frame_eq (Memory.frame_setWord_base_other ?_)
    exact fun heq => hstack (heq ▸ hother)
  exact { hspared with
    top_eq := rfl
    stacked_eq := by rw [List.length_cons, ← h.stacked_eq]
    linked := ⟨by rw [Memory.word_setWord_base_same _ hwindow, h.top_eq], hspared.linked⟩
    nodup := List.nodup_cons.mpr ⟨hstack, h.nodup⟩
    taken := List.forall_mem_cons.mpr ⟨⟨hlow, hnext⟩, h.taken⟩ }

-- A frame that is out becomes the first of the free ones.
theorem run_giveBack (h : pool.HandsOut machine.memory free) (hlow : pool.low ≤ frame.number)
    (hhigh : frame.number < pool.high) (hfree : frame ∉ free) :
    ∃ pool', (giveBack frame).run (machine, pool) =
        .ok () (⟨machine.memory.setWord frame.base (linkTo pool.top), machine.log⟩, pool') ∧
      pool'.HandsOut (machine.memory.setWord frame.base (linkTo pool.top)) (frame :: free) ∧
      pool'.low = pool.low ∧ pool'.high = pool.high := by
  have hwindow : frame.number < machine.memory.frames :=
    Nat.lt_of_lt_of_le hhigh h.high_le_frames
  have hout : pool.isOut frame machine.memory = .ok true := by
    rw [isOut_eq h]
    simp [hlow, hhigh, hfree]
  obtain ⟨stack, hs, rfl⟩ := h
  have hnext : frame.number < pool.next := by
    by_contra hn
    exact hfree (List.mem_append_right _
      ((PhysPage.mem_upTo hs.high_le_pages).mpr ⟨by omega, hhigh⟩))
  have hstack : frame ∉ stack := fun hmem => hfree (List.mem_append_left _ hmem)
  exact ⟨_, run_giveBack_of_out hwindow hout, ⟨frame :: stack, hs.push hlow hnext hstack, rfl⟩,
    rfl, rfl⟩

-- Any other frame is refused, and nothing but the log changes.
theorem run_giveBack_refused (h : pool.HandsOut machine.memory free)
    (hnot : ¬(pool.low ≤ frame.number ∧ frame.number < pool.high ∧ frame ∉ free)) :
    (giveBack frame).run (machine, pool) = .error (.fault (.notAllocated frame))
      (⟨machine.memory, machine.log ++ (Fault.notAllocated frame).lines⟩, pool) := by
  apply run_giveBack_of_not_out
  rw [isOut_eq h, decide_eq_false hnot]

-- The frames that lie on the stack, read off its links.
def stackFrom (memory : Memory) : Nat → Option PhysPage → List PhysPage
  | count + 1, some frame => frame :: stackFrom memory count (ofLink (memory.word frame.base))
  | _, _ => []

-- The frames that a pool has not handed out, in the order in which it would.
def freeFrames (pool : FramePool) (memory : Memory) : List PhysPage :=
  stackFrom memory pool.stacked pool.top ++ PhysPage.upTo pool.next pool.high

theorem stackFrom_eq (h : Linked memory stack) :
    stackFrom memory stack.length stack.head? = stack := by
  induction stack with
  | nil => rfl
  | cons frame rest ih =>
      rw [List.length_cons, List.head?_cons, stackFrom, h.1, ofLink_linkTo, ih h.2]

-- Of the free frames only the first words of those on the stack matter.
theorem HandsOut.congr_links (h : pool.HandsOut memory free)
    (hframes : memory'.frames = memory.frames)
    (hsame : ∀ frame ∈ stackFrom memory pool.stacked pool.top,
      memory'.word frame.base = memory.word frame.base) : pool.HandsOut memory' free := by
  obtain ⟨stack, hs, rfl⟩ := h
  rw [hs.stacked_eq, hs.top_eq, stackFrom_eq hs.linked] at hsame
  exact ⟨stack, hs.congr hframes hsame, rfl⟩

theorem HandsOut.freeFrames_eq (h : pool.HandsOut memory free) : pool.freeFrames memory = free := by
  obtain ⟨stack, hs, rfl⟩ := h
  rw [freeFrames, hs.stacked_eq, hs.top_eq, stackFrom_eq hs.linked]

end FramePool

end PagedMemory
