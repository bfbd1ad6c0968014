import PagedMemory.Proofs.Frame.Links
import PagedMemory.Proofs.Session.Invariant
import PagedMemory.Proofs.Session.Proper

namespace PagedMemory.Session

open Machine (SameLog Stored)

variable {session twin after : Session} {low high slot : Nat}
  {loose free free' returned : List PhysPage} {frame : PhysPage} {table : PageTable} {command : Command}
  {reply : Reply} {α : Type}

-- Contents of memory are compared here and never computed.
attribute [local irreducible] Memory.entry Memory.frame

-- The frames of a range that are out of the pool.
def Settled (low high : Nat) (free : List PhysPage) (frame : PhysPage) : Prop :=
  low ≤ frame.number ∧ frame.number < high ∧ frame ∉ free

theorem Settled.of_append {first : List PhysPage} (h : Settled low high free frame)
    (hnot : frame ∉ first) : Settled low high (first ++ free) frame :=
  ⟨h.1, h.2.1, fun hmem => (List.mem_append.mp hmem).elim hnot h.2.2⟩

namespace Accounts

theorem settled_of_node (h : Accounts low high session loose free)
    (hmem : frame ∈ session.nodeFrames) : Settled low high free frame :=
  ⟨(h.range (List.mem_append_right _ hmem)).1, (h.range (List.mem_append_right _ hmem)).2,
    (h.node_apart hmem).1⟩

theorem settled_of_held (h : Accounts low high session loose free)
    (hmem : frame ∈ session.heldFrames) : Settled low high free frame := by
  have hrange := h.range
    (List.mem_append_left _ (List.mem_append_left _ (List.mem_append_right _ hmem)))
  exact ⟨hrange.1, hrange.2, (h.held_apart hmem).1⟩

-- Lookups that start at the root of an owner visit nodes, and nobody else has these.
theorem walksIn (h : Accounts low high session loose free) (hlive : session.Live table.root) :
    table.WalksIn (fun node => Settled low high free node ∧ node ∉ session.heldFrames)
      session.kernel.machine.memory := by
  intro page node hmem
  obtain ⟨slot, owner, hget, howned, hroot⟩ := hlive
  have hnode := node_mem hget howned (hroot ▸ PageTable.walkFrom_subset hmem)
  exact ⟨h.settled_of_node hnode, (h.node_apart hnode).2.1⟩

-- What a command leaves, once it is known which frames are free then.
theorem after_of_sound (hsound : Sound low high loose session command)
    (hrun : (step command).run session = .ok reply after)
    (hoffers : after.kernel.Offers low high free') :
    Accounts low high after (Event.looseAfter ⟨session, command, reply⟩ loose) free' := by
  rw [Sound, hrun] at hsound
  obtain ⟨other, haccounts, -⟩ := hsound
  rwa [← haccounts.offers.unique hoffers] at haccounts

end Accounts

-- Two sessions that differ in nothing but what the frames hold that are not out of the pool.
structure Similar (low high : Nat) (free : List PhysPage) (session twin : Session) : Prop where
  offers : session.kernel.Offers low high free
  offers_twin : twin.kernel.Offers low high free
  machines : Machine.Alike (Settled low high free) session.kernel.machine twin.kernel.machine
  frames : twin.frames = session.frames
  tables : twin.tables = session.tables
  ranges : twin.ranges = session.ranges

-- Moreover, no frame has two owners.
structure Twins (low high : Nat) (loose free : List PhysPage) (session twin : Session) : Prop
    extends Similar low high free session twin where
  accounts : Accounts low high session loose free

-- Two sessions in which nothing differs that a client gets to see.
def Alike (low high : Nat) (session twin : Session) : Prop :=
  ∃ loose free, Twins low high loose free session twin

def SameEnd (session twin : Session) : Prop :=
  twin.kernel.machine.log = session.kernel.machine.log ∧ twin.free? = session.free?

-- A command has the same reply in both, or stops for the same reason in both.
def Mirrors (low high : Nat) (command : Command) (session twin : Session) : Prop :=
  Mirrored (Alike low high) SameEnd ((step command).run session) ((step command).run twin)

theorem free?_of_offers (h : session.kernel.Offers low high free) :
    session.free? = some free.length := by
  obtain ⟨pool, hpool, -, -, hhands⟩ := h
  rw [free?, hpool, ← hhands.remaining_eq]
  rfl

theorem sameEnd_of_offers (h : session.kernel.Offers low high free)
    (h' : twin.kernel.Offers low high free)
    (hlog : twin.kernel.machine.log = session.kernel.machine.log) : SameEnd session twin :=
  ⟨hlog, (free?_of_offers h').trans (free?_of_offers h).symm⟩

-- Nobody gets a frame that another has, so it remains to compare the two.
theorem mirrors_of_sound (hsound : Sound low high loose session command)
    (h : Mirrored (fun after after' => ∃ free, Similar low high free after after') SameEnd
      ((step command).run session) ((step command).run twin)) :
    Mirrors low high command session twin := by
  refine h.mono fun reply after after' hrun _ hafter => ?_
  obtain ⟨free, hsimilar⟩ := hafter
  exact ⟨_, free, hsimilar, Accounts.after_of_sound hsound hrun hsimilar.offers⟩

namespace Twins

theorem alike (h : Twins low high loose free session twin) : Alike low high session twin :=
  ⟨loose, free, h⟩

theorem sameEnd (h : Twins low high loose free session twin) : SameEnd session twin :=
  sameEnd_of_offers h.offers h.offers_twin h.machines.log

-- Trees are the same in both, so that all frames have the same owners.
theorem accounts_twin (h : Twins low high loose free session twin) :
    Accounts low high twin loose free := by
  refine h.accounts.change h.tables h.offers_twin (fun other hmem => ?_)
    (h.frames ▸ h.accounts.frameSlots) ?_
  · exact h.machines.memory.same _ (h.accounts.settled_of_node (interiorFrames_subset hmem))
  · rw [heldFrames, h.frames]
    exact List.Perm.refl _

theorem sameTranslations (h : Twins low high loose free session twin)
    (hlive : session.Live table.root) :
    table.SameTranslations session.kernel.machine.memory twin.kernel.machine.memory :=
  PageTable.sameTranslations_of_alike h.machines.memory fun page node hmem =>
    (h.accounts.walksIn hlive page node hmem).1

-- What is written to frames that go back is not seen: they are free then.
theorem machines_of_returned {kernel kernel' : Kernel} (h : Twins low high loose free session twin)
    (hreturned : Kernel.Returned low high session.kernel kernel returned free)
    (hreturned' : Kernel.Returned low high twin.kernel kernel' returned free) :
    Machine.Alike (Settled low high (returned.reverse ++ free)) kernel.machine kernel'.machine := by
  refine ⟨by rw [hreturned.log, hreturned'.log, h.machines.log],
    h.machines.memory.of_spared hreturned.window hreturned'.window fun page hsettled => ?_⟩
  obtain ⟨hlow, hhigh, hnot⟩ := hsettled
  rw [List.mem_append, List.mem_reverse, not_or] at hnot
  exact ⟨⟨hlow, hhigh, hnot.2⟩, hreturned.spared page hnot.1, hreturned'.spared page hnot.1⟩

-- A frame that is taken is filled in both.
theorem machines_of_filled (h : Twins low high loose (frame :: free) session twin) :
    Machine.Alike (Settled low high free)
      ⟨session.kernel.machine.memory.fillFrame frame 0, session.kernel.machine.log⟩
      ⟨twin.kernel.machine.memory.fillFrame frame 0, twin.kernel.machine.log⟩ := by
  have hfilled := h.machines.memory.fillFrame (h.offers.lt_frames List.mem_cons_self) 0
  refine ⟨h.machines.log, hfilled.mono fun other hsettled => ?_⟩
  by_cases heq : other = frame
  · exact Or.inr heq
  · exact Or.inl (hsettled.of_append (mt List.mem_singleton.mp heq))

-- Looking up an object, and asking something about memory.

theorem mirrored_required {object? object?' : Option α} (h : Twins low high loose free session twin)
    (heq : object?' = object?) :
    Mirrored (Still session twin) SameEnd ((required object?).run session)
      ((required object?').run twin) := by
  subst heq
  cases object?' with
  | some object => exact .of_ok rfl rfl ⟨rfl, rfl⟩
  | none => exact .of_error rfl rfl h.sameEnd

theorem mirrored_frame (h : Twins low high loose free session twin) (slot : Nat) :
    Mirrored (Still session twin) SameEnd ((Session.frame slot).run session)
      ((Session.frame slot).run twin) := h.mirrored_required (congrArg (·.get? slot) h.frames)

theorem mirrored_table (h : Twins low high loose free session twin) (slot : Nat) :
    Mirrored (Still session twin) SameEnd ((Session.table slot).run session)
      ((Session.table slot).run twin) := h.mirrored_required (congrArg (·.get? slot) h.tables)

theorem mirrored_range (h : Twins low high loose free session twin) (slot : Nat) :
    Mirrored (Still session twin) SameEnd ((Session.range slot).run session)
      ((Session.range slot).run twin) := h.mirrored_required (congrArg (·.get? slot) h.ranges)

theorem mirrored_tokenNamed (h : Twins low high loose free session twin) (space : SpaceName) :
    Mirrored (Still session twin) SameEnd ((tokenNamed space).run session)
      ((tokenNamed space).run twin) := by
  cases space with
  | token token => exact .of_ok rfl rfl ⟨rfl, rfl⟩
  | tableIn slot =>
      refine (h.mirrored_table slot).bind ?_
      rintro table _ _ - - ⟨rfl, rfl⟩
      exact .of_ok rfl rfl ⟨rfl, rfl⟩

-- Actions on the machine leave the pool as it is.
theorem mirrored_onMachine {action : Action Machine α} {related : Machine → Machine → Prop}
    (h : Twins low high loose free session twin)
    (haction : Mirrored related SameLog (action.run session.kernel.machine)
      (action.run twin.kernel.machine)) :
    Mirrored (fun after after' => ∃ machine machine', related machine machine' ∧
        { session with kernel := ⟨machine, session.kernel.pool⟩ } = after ∧
        { twin with kernel := ⟨machine', twin.kernel.pool⟩ } = after') SameEnd
      ((onMachine action).run session) ((onMachine action).run twin) := by
  cases hrun : action.run session.kernel.machine with
  | ok a machine =>
      cases hrun' : action.run twin.kernel.machine with
      | ok b machine' =>
          rw [hrun, hrun'] at haction
          obtain ⟨rfl, hrelated⟩ := haction
          exact .of_ok (run_onMachine_ok hrun) (run_onMachine_ok hrun')
            ⟨machine, machine', hrelated, rfl, rfl⟩
      | error stop machine' =>
          rw [hrun, hrun'] at haction
          exact haction.elim
  | error stop machine =>
      cases hrun' : action.run twin.kernel.machine with
      | ok b machine' =>
          rw [hrun, hrun'] at haction
          exact haction.elim
      | error stop' machine' =>
          rw [hrun, hrun'] at haction
          obtain ⟨rfl, hlog⟩ := haction
          exact .of_error (run_onMachine_error hrun) (run_onMachine_error hrun')
            ⟨hlog, h.sameEnd.2⟩

theorem mirrored_still {action : Action Machine α} (h : Twins low high loose free session twin)
    (haction : Mirrored (Still session.kernel.machine twin.kernel.machine) SameLog
      (action.run session.kernel.machine) (action.run twin.kernel.machine)) :
    Mirrored (Still session twin) SameEnd ((onMachine action).run session)
      ((onMachine action).run twin) := by
  refine (h.mirrored_onMachine haction).mono fun _ after after' _ _ hafter => ?_
  obtain ⟨machine, machine', ⟨rfl, rfl⟩, rfl, rfl⟩ := hafter
  exact ⟨rfl, rfl⟩

theorem mirrored_inspect {question : Memory → Except Fault α}
    (h : Twins low high loose free session twin)
    (hquestion : question twin.kernel.machine.memory = question session.kernel.machine.memory) :
    Mirrored (Still session twin) SameEnd ((onMachine (Machine.inspect question)).run session)
      ((onMachine (Machine.inspect question)).run twin) :=
  h.mirrored_still (Machine.mirrored_inspect h.machines.log hquestion)

-- Bytes may be stored in frames that are not free.
theorem similar_of_stored {given : PhysPage → Prop} {machine machine' : Machine}
    (h : Twins low high loose free session twin)
    (hstored : Stored (Settled low high free) given session.kernel.machine twin.kernel.machine
      machine machine') (hgiven : ∀ frame ∈ free, ¬given frame) :
    Similar low high free { session with kernel := ⟨machine, session.kernel.pool⟩ }
      { twin with kernel := ⟨machine', twin.kernel.pool⟩ } where
  offers := h.offers.congr rfl hstored.spared.frames fun frame hmem =>
    hstored.spared.same frame (hgiven frame hmem)
  offers_twin := h.offers_twin.congr rfl hstored.spared'.frames fun frame hmem =>
    hstored.spared'.same frame (hgiven frame hmem)
  machines := hstored.alike
  frames := h.frames
  tables := h.tables
  ranges := h.ranges

-- In frames that owners have they concern nobody else.
theorem mirrored_stored {action : Action Machine α} (h : Twins low high loose free session twin)
    (haction : Mirrored (Stored (Settled low high free) (· ∈ session.heldFrames)
        session.kernel.machine twin.kernel.machine) SameLog
      (action.run session.kernel.machine) (action.run twin.kernel.machine)) :
    Mirrored (Twins low high loose free) SameEnd ((onMachine action).run session)
      ((onMachine action).run twin) := by
  refine (h.mirrored_onMachine haction).mono fun _ after after' _ _ hafter => ?_
  obtain ⟨machine, machine', hstored, rfl, rfl⟩ := hafter
  have hsimilar := h.similar_of_stored hstored fun frame hmem hheld =>
    (h.accounts.held_apart hheld).1 hmem
  refine ⟨hsimilar, h.accounts.change rfl hsimilar.offers (fun other hmem => ?_)
    h.accounts.frameSlots (List.Perm.refl _)⟩
  exact hstored.spared.same other (h.accounts.node_apart (interiorFrames_subset hmem)).2.1

end Twins

end PagedMemory.Session
