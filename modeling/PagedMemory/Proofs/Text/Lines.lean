import Mathlib.Data.List.Induction
import PagedMemory.Proofs.Slots
import PagedMemory.Proofs.Text.Ways

namespace PagedMemory

namespace Sink

theorem keep_nil (sink : Sink) : sink.keep [] = [] := by cases sink <;> rfl

theorem keep_append (sink : Sink) (text rest : List Char) :
    sink.keep (text ++ rest) = sink.keep text ++ sink.keep rest := by
  cases sink <;> rfl

end Sink

namespace LineCommand

def printed : LineCommand → List Char
  | .print _ text => text
  | _ => []

-- A move makes no new line.
def starts : LineCommand → Bool
  | .create _ _ => true
  | _ => false

end LineCommand

-- Lines are numbered in the order in which they are made, and each owes a newline. A ledger says how
-- many were made, whose newline each slot owes, and whose were written, in order.
structure Ledger where
  started : Nat := 0
  debts : Slots (Option Nat) := {}
  ended : List Nat := []

namespace Ledger

-- A move takes the debt along and leaves a slot that owes nothing.
def enter (ledger : Ledger) : LineCommand → Ledger
  | .create slot _ =>
      { ledger with
        started := ledger.started + 1
        debts := ledger.debts.set slot (some ledger.started) }
  | .move source target =>
      { ledger with
        debts := (ledger.debts.set source none).set target (ledger.debts.get? source).join }
  | .print _ _ => ledger
  | .finish slot =>
      { ledger with
        debts := ledger.debts.erase slot
        ended := ledger.ended ++ (ledger.debts.get? slot).join.toList }

-- What is owed and what was written.
def accounted (ledger : Ledger) : List Nat := ledger.ended ++ ledger.debts.total Option.toList

variable {ledger : Ledger} {slot source target : Nat} {debt : Option Nat}

theorem accounted_create (onto : LineTarget) (hfree : ledger.debts.get? slot = none) :
    (ledger.enter (.create slot onto)).accounted.Perm (ledger.accounted ++ [ledger.started]) := by
  have haccounted : (ledger.enter (.create slot onto)).accounted =
      ledger.ended ++ ledger.started :: ledger.debts.total Option.toList := by
    rw [accounted, enter, Slots.total_set, Slots.erase_of_get?_none hfree]
    rfl
  rw [haccounted]
  exact List.perm_middle.trans (List.perm_append_singleton _ _).symm

-- Whatever a slot owes is what it owed, or what was written.
theorem accounted_perm (hdistinct : ledger.debts.Distinct) (hdebt : ledger.debts.get? slot = some debt) :
    (ledger.ended ++ (debt.toList ++ (ledger.debts.erase slot).total Option.toList)).Perm
      ledger.accounted := by
  have htotal := Slots.total_perm (f := Option.toList) slot hdistinct hdebt
  exact htotal.symm.append_left _

theorem accounted_move (hdistinct : ledger.debts.Distinct) (hne : target ≠ source)
    (hdebt : ledger.debts.get? source = some debt) (hfree : ledger.debts.get? target = none) :
    (ledger.enter (.move source target)).accounted.Perm ledger.accounted := by
  rw [accounted, enter, Slots.total_move hne hfree rfl, hdebt]
  exact accounted_perm hdistinct hdebt

theorem accounted_finish (hdistinct : ledger.debts.Distinct)
    (hdebt : ledger.debts.get? slot = some debt) :
    (ledger.enter (.finish slot)).accounted.Perm ledger.accounted := by
  rw [accounted, enter, hdebt, List.append_assoc]
  exact accounted_perm hdistinct hdebt

end Ledger

-- A command and the lines that it was given to.
structure LineEvent where
  lines : Lines
  command : LineCommand

namespace LineEvent

-- A newline is written where an armed line goes away, and nowhere else.
def newline (event : LineEvent) : List Char :=
  match event.command with
  | .finish slot => if (event.lines.live.get? slot).any LineStream.armed then ['\n'] else []
  | _ => []

def output (event : LineEvent) : List Char := event.command.printed ++ event.newline

theorem newline_finish {lines : Lines} {slot : Nat} {line : LineStream}
    (hget : lines.live.get? slot = some line) :
    newline ⟨lines, .finish slot⟩ = if line.armed then ['\n'] else [] := by
  simp only [newline, hget, Option.any_some]

end LineEvent

-- The ledger after a history, which begins with its first event.
def Ledger.after (history : List LineEvent) : Ledger :=
  history.foldl (fun ledger event => ledger.enter event.command) {}

namespace Ledger

theorem after_concat (history : List LineEvent) (event : LineEvent) :
    after (history ++ [event]) = (after history).enter event.command :=
  List.foldl_concat ..

theorem started_enter (ledger : Ledger) (command : LineCommand) :
    (ledger.enter command).started = ledger.started + command.starts.toNat := by
  cases command <;> rfl

theorem started_after (history : List LineEvent) :
    (after history).started = history.countP fun event => event.command.starts := by
  induction history using List.reverseRecOn with
  | nil => rfl
  | append_singleton history event ih =>
      rw [after_concat, started_enter, ih, List.countP_append, List.countP_singleton]
      cases event.command.starts <;> rfl

end Ledger

namespace Lines

variable {lines after : Lines} {ledger : Ledger} {sink : Sink} {before : List Char}
  {history : List LineEvent} {command : LineCommand} {slot : Nat} {line : LineStream}

-- What users of lines with one end may do. They make lines in free slots, onto the end or onto a line
-- that is there, and move them to free slots; they print to lines that are there, moved or not; and
-- they let go of a line that no other line writes to.
def Permits (sink : Sink) (lines : Lines) : LineCommand → Prop
  | .create slot target => lines.live.get? slot = none ∧
      (target = .sink sink ∨ ∃ outer line, target = .line outer ∧ lines.live.get? outer = some line)
  | .move source target =>
      (∃ line, lines.live.get? source = some line) ∧ lines.live.get? target = none
  | .print slot _ => ∃ line, lines.live.get? slot = some line
  | .finish slot => (∃ line, lines.live.get? slot = some line) ∧
      ∀ other line, lines.live.get? other = some line → line.target ≠ .line slot

inductive Run (sink : Sink) (before : List Char) : Lines → List LineEvent → Prop where
  | start : Run sink before ⟨before, {}⟩ []
  | step {lines after : Lines} {history : List LineEvent} {command : LineCommand}
      (hrun : Run sink before lines history) (hpermits : lines.Permits sink command)
      (hstep : lines.step command = some after) :
      Run sink before after (history ++ [⟨lines, command⟩])

-- How many lines owe a newline.
def armed (lines : Lines) : Nat := lines.live.count fun line => line.armed.toNat

theorem armed_of_none (h : ∀ slot, lines.live.get? slot = none) : lines.armed = 0 := by
  rw [armed, Slots.count, Slots.entries_eq_nil h]
  rfl

theorem send_eq {target : LineTarget} {n : Nat} (h : target.Leads lines.live sink n)
    (text : List Char) :
    lines.send target text = some ⟨lines.written ++ sink.keep text, lines.live⟩ := by
  rw [send, h.sink?_eq]
  rfl

theorem step_create {target : LineTarget}
    (hpermits : lines.Permits sink (.create slot target)) :
    lines.step (.create slot target) =
      some ⟨lines.written, lines.live.set slot (.onto target)⟩ := by
  refine if_pos ?_
  obtain ⟨-, rfl | ⟨outer, line, rfl, hget⟩⟩ := hpermits
  · rfl
  · exact Option.isSome_iff_exists.mpr ⟨line, hget⟩

theorem step_move {source target : Nat} (hget : lines.live.get? source = some line) :
    lines.step (.move source target) =
      some ⟨lines.written, (lines.live.set source line.disarmed).set target line⟩ := by
  rw [step, hget]
  rfl

-- Every line leads to the end, a line is armed if and only if its slot owes a newline, and every line
-- that was made is accounted for.
structure Sound (sink : Sink) (lines : Lines) (ledger : Ledger) : Prop where
  grounded : LineTarget.Grounded lines.live sink
  distinct : ledger.debts.Distinct
  armed_eq : lines.live.map LineStream.armed = ledger.debts.map Option.isSome
  accounts : ledger.accounted.Perm (List.range ledger.started)

namespace Sound

theorem start (sink : Sink) (before : List Char) : Sound sink ⟨before, {}⟩ {} where
  grounded _ _ h := by cases h
  distinct := Slots.distinct_empty
  armed_eq := rfl
  accounts := List.Perm.refl []

theorem debts_get? (h : Sound sink lines ledger) (slot : Nat) :
    (ledger.debts.get? slot).map Option.isSome = (lines.live.get? slot).map LineStream.armed := by
  rw [← Slots.get?_map, ← Slots.get?_map, h.armed_eq]

theorem exists_debt (h : Sound sink lines ledger) (hget : lines.live.get? slot = some line) :
    ∃ debt, ledger.debts.get? slot = some debt ∧ debt.isSome = line.armed := by
  have hdebt := h.debts_get? slot
  rw [hget] at hdebt
  exact Option.map_eq_some_iff.mp hdebt

theorem debts_get?_none (h : Sound sink lines ledger) (hget : lines.live.get? slot = none) :
    ledger.debts.get? slot = none := by
  have hdebt := h.debts_get? slot
  rw [hget] at hdebt
  exact Option.map_eq_none_iff.mp hdebt

theorem create (h : Sound sink lines ledger) {target : LineTarget}
    (hpermits : lines.Permits sink (.create slot target)) (written : List Char) :
    Sound sink ⟨written, lines.live.set slot (.onto target)⟩
      (ledger.enter (.create slot target)) := by
  obtain ⟨hfree, htarget⟩ := hpermits
  have hnone := h.debts_get?_none hfree
  have hway : ∃ n, target.Leads lines.live sink n := by
    obtain rfl | ⟨outer, line, rfl, hget⟩ := htarget
    · exact ⟨0, .sink⟩
    · exact h.grounded.leads hget
  refine ⟨h.grounded.set (fun old hold => ?_) hway, h.distinct.set slot _, ?_, ?_⟩
  · cases hfree.symm.trans hold
  · rw [Slots.map_set, h.armed_eq, Ledger.enter, Slots.map_set]
    rfl
  · refine (Ledger.accounted_create target hnone).trans ?_
    rw [Ledger.enter, List.range_succ]
    exact h.accounts.append_right _

theorem move (h : Sound sink lines ledger) {source target : Nat}
    (hget : lines.live.get? source = some line) (hfree : lines.live.get? target = none)
    (written : List Char) :
    Sound sink ⟨written, (lines.live.set source line.disarmed).set target line⟩
      (ledger.enter (.move source target)) := by
  obtain ⟨debt, hdebt, hsome⟩ := h.exists_debt hget
  have hne : target ≠ source := by
    rintro rfl
    cases hfree.symm.trans hget
  -- what is left in the source writes to where it wrote, and so does the line in its new slot
  have hleft : LineTarget.Grounded (lines.live.set source line.disarmed) sink := by
    refine h.grounded.set (fun old hold => ?_) (h.grounded source line hget)
    cases hget.symm.trans hold
    rfl
  refine ⟨hleft.set (fun old hold => ?_) (hleft source line.disarmed (Slots.get?_set_same ..)),
    (h.distinct.set source _).set target _, ?_, ?_⟩
  · rw [Slots.get?_set_other _ _ _ _ hne, hfree] at hold
    cases hold
  · rw [Slots.map_set, Slots.map_set, h.armed_eq, Ledger.enter, Slots.map_set, Slots.map_set, hdebt,
      Option.join_some, ← hsome]
    rfl
  · exact (Ledger.accounted_move h.distinct hne hdebt (h.debts_get?_none hfree)).trans h.accounts

theorem step_print (h : Sound sink lines ledger) (hget : lines.live.get? slot = some line)
    (text : List Char) :
    lines.step (.print slot text) = some ⟨lines.written ++ sink.keep text, lines.live⟩ := by
  obtain ⟨n, hway⟩ := h.grounded.leads hget
  exact send_eq hway text

-- The newline of a line that goes away is the one that its slot owes.
theorem newline_eq (h : Sound sink lines ledger) (hget : lines.live.get? slot = some line) :
    LineEvent.newline ⟨lines, .finish slot⟩ =
      (ledger.debts.get? slot).join.toList.map fun _ => '\n' := by
  obtain ⟨debt, hdebt, hsome⟩ := h.exists_debt hget
  rw [LineEvent.newline_finish hget, hdebt, ← hsome]
  cases debt <;> rfl

theorem step_finish (h : Sound sink lines ledger) (hget : lines.live.get? slot = some line) :
    lines.step (.finish slot) =
      some ⟨lines.written ++ sink.keep (LineEvent.newline ⟨lines, .finish slot⟩),
        lines.live.erase slot⟩ := by
  obtain ⟨n, hway⟩ := h.grounded slot line hget
  rw [LineEvent.newline_finish hget]
  simp only [Lines.step, hget, Option.bind_eq_bind, Option.bind_some]
  split
  · rw [send_eq hway]
    rfl
  · rw [sink.keep_nil, List.append_nil]

theorem finish (h : Sound sink lines ledger) (hpermits : lines.Permits sink (.finish slot))
    (written : List Char) :
    Sound sink ⟨written, lines.live.erase slot⟩ (ledger.enter (.finish slot)) := by
  obtain ⟨⟨line, hget⟩, hfree⟩ := hpermits
  obtain ⟨debt, hdebt, -⟩ := h.exists_debt hget
  refine ⟨h.grounded.erase hfree, h.distinct.erase slot, ?_,
    (Ledger.accounted_finish h.distinct hdebt).trans h.accounts⟩
  rw [Slots.map_erase, h.armed_eq, Ledger.enter, Slots.map_erase]

-- What one command does.
theorem step (h : Sound sink lines ledger) (hpermits : lines.Permits sink command) :
    ∃ after, lines.step command = some after ∧
      after.written = lines.written ++ sink.keep (LineEvent.output ⟨lines, command⟩) ∧
      Sound sink after (ledger.enter command) := by
  have hquiet : lines.written = lines.written ++ sink.keep [] := by
    rw [sink.keep_nil, List.append_nil]
  cases command with
  | create slot target => exact ⟨_, step_create hpermits, hquiet, h.create hpermits _⟩
  | move source target =>
      obtain ⟨⟨line, hget⟩, hfree⟩ := hpermits
      exact ⟨_, step_move hget, hquiet, h.move hget hfree _⟩
  | print slot text =>
      obtain ⟨line, hget⟩ := hpermits
      refine ⟨_, h.step_print hget text, ?_, h.grounded, h.distinct, h.armed_eq, h.accounts⟩
      exact congrArg (lines.written ++ sink.keep ·) (List.append_nil text).symm
  | finish slot =>
      obtain ⟨line, hget⟩ := hpermits.1
      exact ⟨_, h.step_finish hget, rfl, h.finish hpermits _⟩

theorem ended_enter (h : Sound sink lines ledger) (hpermits : lines.Permits sink command) :
    (ledger.enter command).ended.map (fun _ => '\n') =
      ledger.ended.map (fun _ => '\n') ++ LineEvent.newline ⟨lines, command⟩ := by
  cases command with
  | create slot target => exact (List.append_nil _).symm
  | move source target => exact (List.append_nil _).symm
  | print slot text => exact (List.append_nil _).symm
  | finish slot =>
      obtain ⟨line, hget⟩ := hpermits.1
      rw [h.newline_eq hget, Ledger.enter, List.map_append]

-- Every line that was made has had its newline, or there is a line that owes it.
theorem length_ended_add_armed (h : Sound sink lines ledger) :
    ledger.ended.length + lines.armed = ledger.started := by
  have hdebts : (ledger.debts.total Option.toList).length =
      ledger.debts.count fun debt => debt.isSome.toNat :=
    Slots.length_total fun entry _ => by cases entry.2 <;> rfl
  have harmed : lines.armed = ledger.debts.count fun debt => debt.isSome.toNat := by
    have hcount := congrArg (Slots.count Bool.toNat) h.armed_eq
    rw [Slots.count_map, Slots.count_map] at hcount
    exact hcount
  have hlength := h.accounts.length_eq
  rw [Ledger.accounted, List.length_append, hdebts, List.length_range] at hlength
  rw [harmed, hlength]

-- When no line is left, all have had their newlines.
theorem ended_perm (h : Sound sink lines ledger) (hnone : ∀ slot, lines.live.get? slot = none) :
    ledger.ended.Perm (List.range ledger.started) := by
  have hdebts := Slots.entries_eq_nil fun slot => h.debts_get?_none (hnone slot)
  have haccounted : ledger.accounted = ledger.ended := by
    rw [Ledger.accounted, Slots.total, hdebts]
    exact List.append_nil _
  exact haccounted ▸ h.accounts

end Sound

namespace Run

theorem sound (hrun : Run sink before lines history) : Sound sink lines (Ledger.after history) := by
  induction hrun with
  | start => exact .start sink before
  | step _ hpermits hstep ih =>
      obtain ⟨after, hafter, -, hsound⟩ := ih.step hpermits
      cases hstep.symm.trans hafter
      rw [Ledger.after_concat]
      exact hsound

theorem written (hrun : Run sink before lines history) :
    lines.written = before ++ sink.keep (history.flatMap LineEvent.output) := by
  induction hrun with
  | start => exact (List.append_nil before).symm.trans (congrArg _ sink.keep_nil.symm)
  | step hrun hpermits hstep ih =>
      obtain ⟨after, hafter, hwritten, -⟩ := hrun.sound.step hpermits
      cases hstep.symm.trans hafter
      rw [hwritten, ih, List.flatMap_append, List.flatMap_singleton, sink.keep_append,
        List.append_assoc]

theorem run_eq (hrun : Run sink before lines history) :
    Lines.run ⟨before, {}⟩ (history.map LineEvent.command) = some lines := by
  induction hrun with
  | start => rfl
  | step _ _ hstep ih =>
      rw [Lines.run, List.map_append, List.foldlM_append]
      exact (congrArg (Option.bind · _) ih).trans
        ((congrArg (Option.bind · some) hstep).trans (Option.bind_some ..))

-- Every newline is that of the line whose turn it is.
theorem newlines (hrun : Run sink before lines history) :
    history.flatMap LineEvent.newline = (Ledger.after history).ended.map fun _ => '\n' := by
  induction hrun with
  | start => rfl
  | step hrun hpermits _ ih =>
      rw [Ledger.after_concat, hrun.sound.ended_enter hpermits, List.flatMap_append,
        List.flatMap_singleton, ih]

theorem length_newline_add_armed (hrun : Run sink before lines history) :
    (history.flatMap LineEvent.newline).length + lines.armed =
      history.countP fun event => event.command.starts := by
  rw [hrun.newlines, List.length_map, hrun.sound.length_ended_add_armed, Ledger.started_after]

-- How runs go on.

theorem create (hrun : Run sink before lines history) {target : LineTarget}
    (hfree : lines.live.get? slot = none) (htarget : target = .sink sink ∨
      ∃ outer line, target = .line outer ∧ lines.live.get? outer = some line) :
    Run sink before ⟨lines.written, lines.live.set slot (.onto target)⟩
      (history ++ [⟨lines, .create slot target⟩]) :=
  hrun.step ⟨hfree, htarget⟩ (step_create ⟨hfree, htarget⟩)

theorem move (hrun : Run sink before lines history) {source target : Nat}
    (hget : lines.live.get? source = some line) (hfree : lines.live.get? target = none) :
    Run sink before ⟨lines.written, (lines.live.set source line.disarmed).set target line⟩
      (history ++ [⟨lines, .move source target⟩]) :=
  hrun.step ⟨⟨line, hget⟩, hfree⟩ (step_move hget)

theorem print (hrun : Run sink before lines history) (slot : Nat)
    (hget : lines.live.get? slot = some line) (text : List Char) :
    Run sink before ⟨lines.written ++ sink.keep text, lines.live⟩
      (history ++ [⟨lines, .print slot text⟩]) :=
  hrun.step ⟨line, hget⟩ (hrun.sound.step_print hget text)

theorem finish (hrun : Run sink before lines history) (slot : Nat)
    (hget : lines.live.get? slot = some line)
    (hfree : ∀ entry ∈ lines.live.entries, entry.2.target ≠ .line slot) :
    Run sink before ⟨lines.written ++ sink.keep (LineEvent.newline ⟨lines, .finish slot⟩),
      lines.live.erase slot⟩ (history ++ [⟨lines, .finish slot⟩]) :=
  hrun.step ⟨⟨line, hget⟩, fun _ _ hother => hfree _ (Slots.entry_mem_of_get? hother)⟩
    (hrun.sound.step_finish hget)

end Run

end Lines

end PagedMemory
