import PagedMemory.Proofs.Session.TableSteps
import PagedMemory.Proofs.User.Faults

namespace PagedMemory.Session

variable {session after : Session} {low high slot : Nat} {loose free : List PhysPage} {α β : Type}

open Machine (SameWindow sameWindow_trans sameWindow_change sameWindow_consult sameWindow_inspect
  sameWindow_pure)

-- A session of which at most the contents of memory, the log and the kept ranges are other ones.
structure Beside (session after : Session) : Prop where
  pool : after.kernel.pool = session.kernel.pool
  window : after.kernel.machine.memory.frames = session.kernel.machine.memory.frames
  frames : after.frames = session.frames
  tables : after.tables = session.tables

theorem Beside.refl (session : Session) : Beside session session := ⟨rfl, rfl, rfl, rfl⟩

theorem Beside.trans {session session' after : Session} (h : Beside session session')
    (h' : Beside session' after) : Beside session after :=
  ⟨h'.pool.trans h.pool, h'.window.trans h.window, h'.frames.trans h.frames,
    h'.tables.trans h.tables⟩

theorem quiet_pure (a : α) : Quiet Beside (pure a : Action Session α) := .pure Beside.refl a

theorem quiet_of_eq {action : Action Session α} (h : Quiet Eq action) : Quiet Beside action :=
  h.mono fun heq => heq ▸ Beside.refl _

theorem quiet_onMachine_beside {action : Action Machine α} (h : Quiet SameWindow action) :
    Quiet Beside (onMachine action) :=
  (quiet_onMachine h).mono fun {session after} hrelated => by
    rw [hrelated.2]
    exact ⟨rfl, hrelated.1, rfl, rfl⟩

theorem quiet_keepRange (slot : Nat) (range : UserRange) : Quiet Beside (keepRange slot range) :=
  fun _ => ⟨rfl, rfl, rfl, rfl⟩

-- Commands to memory, to address spaces and to ranges do not concern the pool and the tables.

theorem quiet_stepMemory (command : MemoryCommand) : Quiet Beside (stepMemory command) := by
  apply quiet_onMachine_beside
  cases command with
  | fill page value =>
      refine (sameWindow_inspect fun memory => memory.spares_reach _).bind sameWindow_trans
        fun _ => ?_
      exact (sameWindow_change fun memory => memory.frames_fillFrame _ _).bind sameWindow_trans
        fun _ => sameWindow_pure _
  | frame page =>
      exact sameWindow_inspect fun memory => (memory.spares_reach _).bind fun _ => .ok _
  | read address count =>
      exact sameWindow_inspect fun memory => (memory.spares_reach _).bind fun _ => .ok _
  | write address bytes =>
      refine (sameWindow_inspect fun memory => memory.spares_reach _).bind sameWindow_trans
        fun _ => ?_
      exact (sameWindow_change fun memory => memory.frames_write _ _).bind sameWindow_trans
        fun _ => sameWindow_pure _
  | word address =>
      exact sameWindow_inspect fun memory => (memory.spares_reach _).bind fun _ => .ok _
  | setWord address word =>
      refine (sameWindow_inspect fun memory => memory.spares_reach _).bind sameWindow_trans
        fun _ => ?_
      exact (sameWindow_change fun memory => memory.frames_setWord _ _).bind sameWindow_trans
        fun _ => sameWindow_pure _

theorem sameWindow_viewRange (range : UserRange) :
    Quiet SameWindow (Machine.inspect (viewRange range)) :=
  sameWindow_inspect fun _ => UserRange.spares_slices.bind fun _ => .ok _

theorem quiet_stepSpace (space : SpaceName) (command : SpaceCommand) :
    Quiet Beside (stepSpace space command) := by
  refine (quiet_of_eq (Accounts.quiet_tokenNamed space)).bind Beside.trans fun token => ?_
  cases command with
  | describeRange start length =>
      apply quiet_onMachine_beside
      refine (sameWindow_consult fun _ => UserRange.spares_ofMapped).bind sameWindow_trans
        fun range => ?_
      exact (sameWindow_viewRange range).bind sameWindow_trans fun _ => sameWindow_pure _
  | keepRange slot start length =>
      refine (quiet_onMachine_beside (sameWindow_consult fun _ => UserRange.spares_ofMapped)).bind
        Beside.trans fun range => ?_
      exact (quiet_keepRange slot range).bind Beside.trans fun _ => quiet_pure _
  | copyTo start bytes =>
      exact (quiet_onMachine_beside (PageTable.quiet_copyToUser bytes)).bind Beside.trans
        fun _ => quiet_pure _
  | copyFrom start length =>
      exact (quiet_onMachine_beside PageTable.quiet_copyFromUser).bind Beside.trans
        fun _ => quiet_pure _
  | locate address size =>
      exact (quiet_onMachine_beside (sameWindow_inspect fun _ =>
        PageTable.spares_locateObject size)).bind Beside.trans fun _ => quiet_pure _
  | write address object =>
      exact (quiet_onMachine_beside (PageTable.quiet_writeObject _)).bind Beside.trans
        fun _ => quiet_pure _
  | read address kind =>
      refine (quiet_onMachine_beside (PageTable.quiet_readObject _)).bind Beside.trans
        fun bytes => ?_
      cases kind with
      | number width => exact quiet_pure _
      | status => exact quiet_pure _
      | block size => exact quiet_pure _

theorem quiet_range (slot : Nat) : Quiet Beside (Session.range slot) :=
  quiet_of_eq fun session => quiet_required (session.ranges.get? slot) session

theorem quiet_stepRange (slot : Nat) (command : RangeCommand) :
    Quiet Beside (stepRange slot command) := by
  refine (quiet_range slot).bind Beside.trans fun range => ?_
  cases command with
  | describe =>
      exact (quiet_onMachine_beside (sameWindow_viewRange range)).bind Beside.trans
        fun _ => quiet_pure _
  | sliceAtEnd =>
      exact (quiet_onMachine_beside (sameWindow_inspect fun _ =>
        UserRange.spares_sliceAt)).bind Beside.trans fun _ => quiet_pure _
  | sliceAfter count =>
      simp only
      split
      · exact quiet_pure _
      · exact (quiet_onMachine_beside (sameWindow_inspect fun _ =>
          UserRange.spares_sliceAt)).bind Beside.trans fun _ => quiet_pure _
  | copyOut bytes =>
      exact (quiet_onMachine_beside (UserRange.quiet_copyInto _ _ _)).bind Beside.trans
        fun _ => quiet_pure _
  | copyIn count =>
      exact (quiet_onMachine_beside (sameWindow_inspect fun _ =>
        UserRange.spares_copyFrom _ _)).bind Beside.trans fun _ => quiet_pure _

-- Writes to frames that somebody was given disturb neither the pool nor a table.
theorem Accounts.sound_of_confined {command : Command} (h : Accounts low high session loose free)
    (haccess : command.IsAccess) (hquiet : Quiet Beside (step command))
    (hconfined : session.Confined loose command)
    (hloose : ∀ reply, Event.looseAfter ⟨session, command, reply⟩ loose = loose)
    (hrecord : ∀ reply record, Event.recordAfter ⟨session, command, reply⟩ record = record) :
    Sound low high loose session command := by
  cases hrun : (step command).run session with
  | error stop after => exact .of_error hrun (hquiet.not_blamesPool hrun)
  | ok reply after =>
      have hbeside := hquiet.ok hrun
      have hspared := hconfined reply after hrun
      have hoffers : after.kernel.Offers low high free :=
        h.offers.congr hbeside.pool hbeside.window fun frame hfree =>
          hspared frame (fun hin => (h.held_apart hin).1 hfree) fun hin => h.loose_apart hin hfree
      refine .of_ok _ _ hrun (h.carries hbeside.tables hoffers ?_ ?_ ?_ (hrecord reply))
      · intro other _ _ hgiven
        exact hspared other (hgiven haccess).1 (hgiven haccess).2
      · rw [hbeside.frames]
        exact h.frameSlots
      · rw [hloose, heldFrames, heldFrames, hbeside.frames]

end PagedMemory.Session
