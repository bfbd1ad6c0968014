import PagedMemory.Proofs.Guarded
import PagedMemory.Proofs.Session.Showing
import PagedMemory.Proofs.Session.TwinAccess
import PagedMemory.Proofs.Session.TwinFrames
import PagedMemory.Proofs.Session.TwinTables

namespace PagedMemory

-- The kernel with other contents of memory.
def Kernel.withMemory (memory : Memory) (kernel : Kernel) : Kernel :=
  ⟨⟨memory, kernel.machine.log⟩, kernel.pool⟩

-- The pool is built without a look at memory.
theorem Kernel.commutes_initFrames (memory : Memory) (kernelEnd memoryEnd : UInt64) :
    Commutes (withMemory memory) (initFrames kernelEnd memoryEnd) := by
  have hset (between : Except Fault FramePool) : Commutes (withMemory memory) (withPool do
      let pool ← Action.onFirst (Machine.check between)
      Action.onSecond (set pool)) := by
    rintro ⟨machine, ⟨_ | ⟨pool, _ | _⟩⟩⟩ <;> cases between <;> rfl
  exact Commutes.bind (fun _ => rfl) fun _ => (hset _).bind fun _ _ => rfl

namespace Session

variable {session twin after : Session} {low high : Nat} {memory memory' : Memory}
  {loose free : List PhysPage} {kernelEnd memoryEnd : UInt64} {command : Command}
  {commands : List Command} {reply : Reply} {table : PageTable}

-- A command of a client that behaves goes the same way in both sessions.
theorem Alike.mirrors (h : Alike low high session twin) (hproper : session.Proper command) :
    Mirrors low high command session twin := by
  obtain ⟨loose, free, h⟩ := h
  cases command with
  | shared command =>
      cases command with
      | remaining => exact h.mirrors_remaining
      | selfTest => exact h.mirrors_selfTest
      | giveBack frame => exact h.mirrors_giveBack hproper
      | init kernelEnd memoryEnd => exact hproper.elim
      | initRange low high => exact hproper.elim
      | take => exact hproper.elim
      | isStacked frame => exact hproper.elim
      | hold => exact hproper.elim
      | letGo => exact hproper.elim
      | remainingHeld => exact hproper.elim
  | pool slot command => exact hproper.elim
  | frame slot command =>
      cases command with
      | take => exact h.mirrors_frame_take hproper
      | claim page => exact hproper.elim
      | drop => exact h.mirrors_frame_drop
      | move target => exact h.mirrors_frame_move hproper
      | release => exact h.mirrors_frame_release
      | page => exact h.mirrors_frame_page
      | text => exact h.mirrors_frame_text
  | table slot command =>
      cases command with
      | create => exact h.mirrors_create hproper
      | view space => exact h.mirrors_view hproper
      | drop => exact h.mirrors_drop
      | move target => exact h.mirrors_move hproper
      | describe => exact h.mirrors_describe
      | map page frame flags => exact h.mirrors_map hproper
      | unmap page => exact h.mirrors_unmap hproper
      | translate page => exact h.mirrors_translate hproper
      | translateAddr address => exact h.mirrors_translateAddr hproper
      | find page => exact h.mirrors_find hproper
      | findOrBuild page => exact h.mirrors_findOrBuild hproper
      | poke page entry => exact hproper.elim
  | memory command => exact hproper.elim
  | space space command => exact h.mirrors_space hproper
  | range slot command => exact h.mirrors_range hproper

theorem Accounts.unlogged (h : Accounts low high session loose free) :
    Accounts low high session.unlogged loose free :=
  h.change rfl (h.offers.congr rfl rfl fun _ _ => rfl) (fun _ _ => rfl) h.frameSlots (List.Perm.refl _)

theorem Alike.unlogged (h : Alike low high session twin) :
    Alike low high session.unlogged twin.unlogged := by
  obtain ⟨loose, free, h⟩ := h
  exact ⟨loose, free, ⟨h.accounts.unlogged.offers, h.accounts_twin.unlogged.offers,
    ⟨rfl, h.machines.memory⟩, h.frames, h.tables, h.ranges⟩, h.accounts.unlogged⟩

-- The client behaves as long as its commands have replies.
def Behaves (session : Session) : List Command → Prop
  | [] => True
  | command :: rest => session.Proper command ∧ ∀ reply after,
      (step command).run session = .ok reply after → after.unlogged.Behaves rest

-- What shows of one command, and what is left to do after it.
theorem showing_eq_of_mirrors (h : Mirrors low high command session twin)
    (hrest : ∀ reply after after', (step command).run session = .ok reply after →
      Alike low high after after' →
        after'.unlogged.showing commands = after.unlogged.showing commands) :
    twin.showing (command :: commands) = session.showing (command :: commands) :=
  showing_eq_of_mirrored (fun _ _ ⟨_, _, htwins⟩ => htwins.sameEnd) h hrest

theorem Alike.showing_eq (h : Alike low high session twin) (hbehaves : session.Behaves commands) :
    twin.showing commands = session.showing commands := by
  induction commands generalizing session twin with
  | nil => rfl
  | cons command rest ih =>
      obtain ⟨hproper, hrest⟩ := hbehaves
      exact showing_eq_of_mirrors (h.mirrors hproper) fun reply after after' hrun halike =>
        ih halike.unlogged (hrest reply after hrun)

-- The session with other contents of memory.
def withMemory (memory : Memory) (session : Session) : Session :=
  { session with kernel := session.kernel.withMemory memory }

theorem step_init_withMemory (memory : Memory) (kernelEnd memoryEnd : UInt64) (session : Session) :
    (step (.shared (.init kernelEnd memoryEnd))).run (session.withMemory memory) =
      Action.mapState (withMemory memory)
        ((step (.shared (.init kernelEnd memoryEnd))).run session) := by
  refine Action.run_bind_mapState ?_ fun _ _ _ => rfl
  rw [run_onKernel, run_onKernel, show (session.withMemory memory).kernel =
    session.kernel.withMemory memory from rfl, Kernel.commutes_initFrames memory kernelEnd memoryEnd]
  cases (Kernel.initFrames kernelEnd memoryEnd).run session.kernel <;> rfl

-- The first command leaves every frame of the range free.
theorem mirrors_init (hlow : low = (PhysAddr.ofNat kernelEnd.toNat).pageCeil.number)
    (hhigh : high = (PhysAddr.ofNat memoryEnd.toNat).page.number) (hwindow : high ≤ memory.frames)
    (hframes : memory'.frames = memory.frames) :
    Mirrors low high (.shared (.init kernelEnd memoryEnd)) (boot memory) (boot memory') := by
  have hother := step_init_withMemory memory' kernelEnd memoryEnd (boot memory)
  have hsame := step_init_withMemory memory kernelEnd memoryEnd (boot memory)
  rw [show (boot memory).withMemory memory' = boot memory' from rfl] at hother
  rw [show (boot memory).withMemory memory = boot memory from rfl] at hsame
  cases hrun : (step (.shared (.init kernelEnd memoryEnd))).run (boot memory) with
  | ok reply after =>
      rw [hrun] at hother hsame
      obtain ⟨haccounts, -⟩ := accounts_init hlow hhigh hwindow hrun
      obtain ⟨haccounts', -⟩ := accounts_init hlow hhigh (hframes ▸ hwindow) hother
      have hmemory : after = after.withMemory memory := (EStateM.Result.ok.inj hsame).2
      refine .of_ok hrun hother ⟨[], _, ⟨haccounts.offers, haccounts'.offers, ⟨rfl, ?_, ?_⟩, rfl, rfl,
        rfl⟩, haccounts⟩
      · rw [hmemory]
        exact hframes
      · rintro page ⟨hlow, hhigh, hnot⟩
        exact absurd ((PhysPage.mem_upTo haccounts.offers.high_le_pages).mpr ⟨hlow, hhigh⟩) hnot
  | error stop after =>
      rw [hrun] at hother
      exact .of_error hrun hother ⟨rfl, rfl⟩

-- What memory held before the pool was built never shows, as long as the client behaves: whatever the
-- contents, all commands have the same replies and log the same lines, the same number of frames is
-- free after each, and if one of them stops it is the same one, and for the same reason.
theorem junk_never_shows (hframes : memory'.frames = memory.frames)
    (hwindow : (PhysAddr.ofNat memoryEnd.toNat).page.number ≤ memory.frames)
    (hbehaves : ∀ reply after, (step (.shared (.init kernelEnd memoryEnd))).run (boot memory) =
      .ok reply after → after.unlogged.Behaves commands) :
    (boot memory').showing (.shared (.init kernelEnd memoryEnd) :: commands) =
      (boot memory).showing (.shared (.init kernelEnd memoryEnd) :: commands) :=
  showing_eq_of_mirrors (mirrors_init rfl rfl hwindow hframes) fun reply after _ hrun halike =>
    halike.unlogged.showing_eq (hbehaves reply after hrun)

-- The client behaves up to its last command, which no other keeps it from.
def Completes (session : Session) (commands : List Command) : Prop :=
  session.Behaves commands ∧ (session.showing commands).length = commands.length

theorem completes_singleton (hproper : session.Proper command) :
    session.Completes [command] := by
  refine ⟨⟨hproper, fun _ _ _ => trivial⟩, ?_⟩
  cases hrun : (step command).run session with
  | ok reply after =>
      rw [showing_of_ok hrun]
      rfl
  | error stop after =>
      rw [showing_of_error hrun]
      rfl

theorem completes_cons (hproper : session.Proper command)
    (hrun : (step command).run session = .ok reply after)
    (h : after.unlogged.Completes commands) : session.Completes (command :: commands) := by
  refine ⟨⟨hproper, fun other after' hrun' => ?_⟩, ?_⟩
  · cases hrun.symm.trans hrun'
    exact h.1
  · rw [showing_of_ok hrun, List.length_cons, h.2, List.length_cons]

-- A frame is taken and mapped behind a page of a new table, and then bytes are loaded from the page.
def loadsMappedFrame : List Command :=
  [.frame 0 .take, .table 0 .create, .table 0 (.map (.ofNat 5) (.ownedBy 0) ⟨2⟩),
    .space (.tableIn 0) (.copyFrom 0x5000 8)]

namespace Accounts

theorem completes_load {frame : OwnedFrame} (h : Accounts low high session loose free)
    (hget : session.tables.get? 0 = some table) (howned : table.owned = true)
    (hframe : session.frames.get? 0 = some frame) (hheld : frame.owned = true)
    (hmapped : PageTable.mappedFrom session.kernel.machine.memory (.ofNat 5) PageTable.rootHeight
      table.root = some (.leaf frame.page ⟨2⟩)) :
    session.Completes [.space (.tableIn 0) (.copyFrom 0x5000 8)] := by
  refine completes_singleton fun token after htoken => ?_
  have hspace : (tokenNamed (.tableIn 0)).run session = .ok table.token session :=
    Action.run_bind_ok (run_table_some hget)
  cases htoken.symm.trans hspace
  refine ⟨⟨0, table, hget, howned, (PageTable.root_ofToken_token table).symm⟩, fun range hmade => ?_⟩
  obtain ⟨rfl, -⟩ := UserRange.ofMapped_eq_ok hmade
  have hstarts : UserRange.starts ⟨.ofToken table.token, 0x5000, 0x5000 + 8⟩ = [0x5000] := by
    rw [UserRange.starts, show UserRange.pageCount 0x5000 (0x5000 + 8) = 1 by decide,
      UserRange.startsFrom, if_pos (show (0x5000 : UInt64) < 0x5000 + 8 by decide),
      UserRange.startsFrom]
  refine UserRange.CopiesIn.of_translate? _ fun a hmem entry htranslate => ?_
  cases List.mem_singleton.mp (hstarts ▸ hmem)
  rw [PageTable.translate?_ofToken_token, PageTable.translate?_eq (h.standing hget howned).window,
    show UserRange.pageOf 0x5000 = .ofNat 5 from rfl, hmapped] at htranslate
  cases htranslate
  rw [Entry.page_leaf]
  exact held_mem hframe hheld

theorem completes_map {frame : OwnedFrame} (h : Accounts low high session loose free)
    (hget : session.tables.get? 0 = some table) (howned : table.owned = true)
    (hunmapped : PageTable.mappedFrom session.kernel.machine.memory (.ofNat 5) PageTable.rootHeight
      table.root = none)
    (hframe : session.frames.get? 0 = some frame) (hheld : frame.owned = true)
    (hroom : PageTable.rootHeight ≤ free.length) :
    session.Completes [.table 0 (.map (.ofNat 5) (.ownedBy 0) ⟨2⟩),
      .space (.tableIn 0) (.copyFrom 0x5000 8)] := by
  have hname : session.frameNamed? (.ownedBy 0) = some frame.page := by
    rw [frameNamed?, hframe, Option.map_some]
  have hproper : session.Proper (.table 0 (.map (.ofNat 5) (.ownedBy 0) ⟨2⟩)) := fun other hother => by
    cases hget.symm.trans hother
    exact howned
  have hmissing := PageTable.missingFrom_le session.kernel.machine.memory (.ofNat 5)
    PageTable.rootHeight table.root
  rcases h.step_map_cases hget howned hname (.ofNat 5) ⟨2⟩ with ⟨entry, hmapped, -⟩ |
    ⟨-, fresh, rest, kernel', rfl, hoffers, -, ⟨hstep, -, hremapped, -⟩ | ⟨rfl, hfew, -⟩⟩
  · cases hunmapped.symm.trans hmapped
  · exact completes_cons hproper hstep ((h.remapped_withTable hget howned hoffers
      hremapped).unlogged.completes_load (Slots.get?_set_same _ _ _) howned hframe hheld
      hremapped.same)
  · rw [List.append_nil] at hroom
    omega

theorem completes_create {root : PhysPage} {rest : List PhysPage} {frame : OwnedFrame}
    (h : Accounts low high session loose (root :: rest)) (hempty : session.tables.get? 0 = none)
    (hframe : session.frames.get? 0 = some frame) (hheld : frame.owned = true)
    (hroom : PageTable.rootHeight ≤ rest.length) :
    session.Completes [.table 0 .create, .table 0 (.map (.ofNat 5) (.ownedBy 0) ⟨2⟩),
      .space (.tableIn 0) (.copyFrom 0x5000 8)] := by
  obtain ⟨kernel', hrun, hoffers, -, -, hspared, hnodes, hunmapped⟩ :=
    PageTable.run_create_cons h.offers
  exact completes_cons hempty (Action.run_bind_ok (run_onKernel_ok hrun))
    ((h.created hempty hoffers hspared hnodes).unlogged.completes_map (Slots.get?_set_same _ _ _) rfl
      (hunmapped _) hframe hheld hroom)

theorem completes_loadsMappedFrame {page root : PhysPage} {rest : List PhysPage}
    (h : Accounts low high session loose (page :: root :: rest))
    (hframes : session.frames.get? 0 = none) (htables : session.tables.get? 0 = none)
    (hroom : PageTable.rootHeight ≤ rest.length) : session.Completes loadsMappedFrame := by
  obtain ⟨kernel', hstep, -, hoffers⟩ := h.step_frame_take_cons 0
  exact completes_cons hframes hstep ((after_of_sound (h.sound_frame_take hframes) hstep
    hoffers).unlogged.completes_create htables (Slots.get?_set_same _ _ _) rfl hroom)

end Accounts

-- Memory that is full of one value or of another: what the client loads at last is the same.
theorem junk_never_shows_of_filled :
    (Memory.filled 1024 0).frames = (Memory.filled 1024 0xcd).frames ∧
    (PhysAddr.ofNat (0x8000 : UInt64).toNat).page.number ≤ (Memory.filled 1024 0xcd).frames ∧
    (∀ reply after, (step (.shared (.init 0x1000 0x8000))).run (boot (.filled 1024 0xcd)) =
      .ok reply after → after.unlogged.Behaves loadsMappedFrame) ∧
    (boot (.filled 1024 0)).showing (.shared (.init 0x1000 0x8000) :: loadsMappedFrame) =
      (boot (.filled 1024 0xcd)).showing (.shared (.init 0x1000 0x8000) :: loadsMappedFrame) ∧
    ((boot (.filled 1024 0xcd)).showing
      (.shared (.init 0x1000 0x8000) :: loadsMappedFrame)).length = 5 := by
  have hwindow : (PhysAddr.ofNat (0x8000 : UInt64).toNat).page.number ≤
      (Memory.filled 1024 0xcd).frames := by decide
  obtain ⟨kernel', hrun, -⟩ := Kernel.run_initFrames_of_le (.filled 1024 0xcd)
    (PhysAddr.ofNat (0x1000 : UInt64).toNat).pageCeil (PhysAddr.ofNat (0x8000 : UInt64).toNat).page
    rfl rfl hwindow (by decide)
  have hinit := step_init_of_ok hrun
  obtain ⟨haccounts, -⟩ := accounts_init rfl rfl hwindow hinit
  have hcompletes := haccounts.unlogged.completes_loadsMappedFrame rfl rfl (by decide)
  have hbehaves : ∀ reply after, (step (.shared (.init 0x1000 0x8000))).run
      (boot (.filled 1024 0xcd)) = .ok reply after → after.unlogged.Behaves loadsMappedFrame := by
    intro reply after hstep
    cases hinit.symm.trans hstep
    exact hcompletes.1
  refine ⟨rfl, hwindow, hbehaves, junk_never_shows rfl hwindow hbehaves, ?_⟩
  rw [showing_of_ok hinit, List.length_cons, hcompletes.2]
  rfl

end Session

end PagedMemory
