import PagedMemory.Log
import PagedMemory.Proofs.Text.Digits
import PagedMemory.Proofs.Text.Lines

namespace PagedMemory

namespace LineEvent

variable {event : LineEvent} {history : List LineEvent}

-- Only the end of a line is a newline.
theorem exists_finish (h : event.newline ≠ []) :
    ∃ slot, event.command = .finish slot ∧ event.newline = ['\n'] := by
  obtain ⟨lines, command⟩ := event
  cases command with
  | create slot target => exact (h rfl).elim
  | move source target => exact (h rfl).elim
  | print slot text => exact (h rfl).elim
  | finish slot =>
      refine ⟨slot, rfl, ?_⟩
      simp only [newline] at h ⊢
      split
      · rfl
      · exact (h (if_neg ‹_›)).elim

-- The only newline of a history has a place in it.
theorem exists_split (h : (history.flatMap newline).length = 1) :
    ∃ early event late, history = early ++ event :: late ∧ event.newline ≠ [] ∧
      early.flatMap newline = [] ∧ late.flatMap newline = [] := by
  induction history with
  | nil => cases h
  | cons event rest ih =>
      by_cases hevent : event.newline = []
      · rw [List.flatMap_cons, hevent] at h
        obtain ⟨early, found, late, rfl, hfound, hearly, hlate⟩ := ih h
        refine ⟨event :: early, found, late, rfl, hfound, ?_, hlate⟩
        rw [List.flatMap_cons, hevent, hearly]
        rfl
      · obtain ⟨_, _, hnewline⟩ := exists_finish hevent
        rw [List.flatMap_cons, List.length_append, hnewline] at h
        exact ⟨[], event, rest, rfl, hevent, rfl, List.eq_nil_of_length_eq_zero (Nat.add_left_cancel h)⟩

theorem output_of_no_newline (h : history.flatMap newline = []) :
    history.flatMap output = (history.map command).flatMap LineCommand.printed := by
  rw [List.flatMap_map]
  refine List.flatMap_congr fun event hmem => ?_
  rw [output, List.flatMap_eq_nil_iff.mp h event hmem, List.append_nil]

end LineEvent

namespace Level

open Lines

variable {level : Level} {position : Position} {lines : Lines} {history : List LineEvent}
  {commands : List LineCommand} {before : List Char} {slot : Nat}

-- A log entry: a line is opened for a level, printed to and moved, and ended whoever owns it. No other
-- lines are made.
structure IsEntry (level : Level) (position : Position) (lines : Lines) (history : List LineEvent)
    (commands : List LineCommand) : Prop where
  opened : ∃ slot, history.map LineEvent.command = level.opening position slot ++ commands
  alone : ∀ command ∈ commands, command.starts = false
  noneLeft : ∀ slot, lines.live.get? slot = none

-- The header is what the logger prints.
theorem print_header (level : Level) (position : Position) :
    Format.print "[%s] %s:%d: ".toList
      [.text level.name.toList, .text position.file.toList, .int position.line] =
        some (level.header position) := by
  simp [Format.print, Format.directive, Format.Conversion.ofLetter?, Format.Arg.write?,
    Digits.signed_eq, header, Position.text]

theorem newline_notMem_header (level : Level) (hfile : '\n' ∉ position.file.toList) :
    '\n' ∉ level.header position := by
  have hname : '\n' ∉ level.name.toList := by cases level <;> decide
  have hline : '\n' ∉ Numeral.signed position.line.toInt := Numeral.notMem_signed (by decide) rfl _
  simp [header, Position.text, hname, hline, hfile]

theorem opening_of_ne (h : level ≠ .debug) (position : Position) (slot : Nat) :
    level.opening position slot =
      [.create slot (.sink .kept), .print slot (level.header position)] := by
  cases level <;> first | rfl | exact (h rfl).elim

theorem sink_of_ne (h : level ≠ .debug) : level.sink = .kept := by
  cases level <;> first | rfl | exact (h rfl).elim

theorem countP_opening (level : Level) (position : Position) (slot : Nat) :
    (level.opening position slot).countP LineCommand.starts = 1 := by
  cases level <;> rfl

-- An entry makes one line, so it has one newline.
theorem IsEntry.length_newline (hrun : Run level.sink before lines history)
    (hentry : IsEntry level position lines history commands) :
    (history.flatMap LineEvent.newline).length = 1 := by
  obtain ⟨slot, hopened⟩ := hentry.opened
  have hcommands : commands.countP LineCommand.starts = 0 :=
    List.countP_eq_zero.mpr fun command hmem => Bool.eq_false_iff.mp (hentry.alone command hmem)
  have hstarted : history.countP (fun event => event.command.starts) = 1 := by
    rw [← Function.comp_def, ← List.countP_map, hopened, List.countP_append, countP_opening,
      hcommands]
  have hcount := hrun.length_newline_add_armed
  rw [hstarted, armed_of_none hentry.noneLeft] at hcount
  exact hcount

-- The line is not ended while it is opened, and not more than once.
theorem IsEntry.exists_split (h : level ≠ .debug) (hrun : Run level.sink before lines history)
    (hentry : IsEntry level position lines history commands) :
    ∃ early owner late, commands = early ++ .finish owner :: late ∧
      history.flatMap LineEvent.output =
        level.header position ++ early.flatMap LineCommand.printed ++
          '\n' :: late.flatMap LineCommand.printed := by
  obtain ⟨slot, hopened⟩ := hentry.opened
  obtain ⟨first, event, second, rfl, hevent, hfirst, hsecond⟩ :=
    LineEvent.exists_split (hentry.length_newline hrun)
  obtain ⟨owner, hcommand, hnewline⟩ := LineEvent.exists_finish hevent
  have houtput : event.output = ['\n'] := by
    rw [LineEvent.output, hcommand, hnewline]
    rfl
  rw [List.map_append, List.map_cons, hcommand, opening_of_ne h] at hopened
  obtain ⟨-, hcreate⟩ | ⟨rest, hrest, hopened⟩ := List.append_eq_cons_iff.mp hopened
  · cases hcreate
  obtain ⟨-, hprint⟩ | ⟨early, hearly, hcommands⟩ := List.cons_eq_append_iff.mp hopened
  · cases hprint
  refine ⟨early, owner, second.map LineEvent.command, hcommands, ?_⟩
  rw [List.flatMap_append, List.flatMap_cons, houtput, LineEvent.output_of_no_newline hfirst,
    LineEvent.output_of_no_newline hsecond, hrest, hearly]
  rfl

-- What the runs of an opened line show.
theorem shown_eq (hrun : Run level.sink [] lines history)
    (hopened : history.map LineEvent.command = level.opening position 0 ++ commands) :
    level.shown position commands = lines.written := by
  have h := hrun.run_eq
  rw [hopened] at h
  exact congrArg (fun result => (Option.map Lines.written result).getD []) h

theorem exists_opening (level : Level) (position : Position) :
    ∃ history, history.map LineEvent.command = level.opening position 0 ∧
      Run level.sink [] ⟨level.sink.keep (level.header position),
        ({} : Slots LineStream).set 0 (.onto (.sink level.sink))⟩ history := by
  have hcreate := (Run.start : Run level.sink [] ⟨[], {}⟩ []).create
    (show (_ : Slots LineStream).get? 0 = none from rfl) (Or.inl rfl)
  by_cases h : level = .debug
  · subst h
    exact ⟨_, rfl, hcreate⟩
  · refine ⟨_, ?_, hcreate.print 0 rfl (level.header position)⟩
    rw [opening_of_ne h, sink_of_ne h]
    rfl

theorem sink_ne_line (sink : Sink) (slot : Nat) : LineTarget.sink sink ≠ .line slot :=
  fun h => nomatch h

-- What an entry shows, and that it shows the same when its line is moved.

theorem entry_eq (level : Level) (position : Position) (text : List Char) :
    level.entry position text = level.sink.keep (level.header position ++ text ++ ['\n']) := by
  obtain ⟨history, hopened, hrun⟩ := level.exists_opening position
  have hdone := (hrun.print 0 rfl text).finish 0 rfl
    (List.forall_mem_singleton.mpr (sink_ne_line _ 0))
  rw [entry, shown_eq hdone (by simp [hopened]), Sink.keep_append, Sink.keep_append]
  rfl

theorem movedEntry_eq (level : Level) (position : Position) (text : List Char) :
    level.movedEntry position text = level.sink.keep (level.header position ++ text ++ ['\n']) := by
  obtain ⟨history, hopened, hrun⟩ := level.exists_opening position
  have hmoved := hrun.move (show (_ : Slots LineStream).get? 0 = some _ from rfl)
    (show (_ : Slots LineStream).get? 1 = none from rfl)
  have hended := (hmoved.print 1 rfl text).finish 1 rfl
    (List.forall_mem_cons.mpr ⟨sink_ne_line _ 1, List.forall_mem_singleton.mpr (sink_ne_line _ 1)⟩)
  have hdone := hended.finish 0 rfl (List.forall_mem_singleton.mpr (sink_ne_line _ 0))
  rw [movedEntry, shown_eq hdone (by simp [hopened]), Sink.keep_append, Sink.keep_append]
  exact (congrArg _ (Sink.keep_nil _)).trans (List.append_nil _)

end Level

namespace Lines

variable {lines : Lines} {sink : Sink} {before : List Char} {history : List LineEvent}

-- Every line is ended once. What is written is what was printed, in order, with a newline where an armed
-- line goes away. A line is armed if and only if its slot owes a newline; newlines are written for the
-- lines whose last owners go away, one for each; and every line that was made has had its newline or is
-- owed it by one slot. Every command that is permitted goes on in this way. So an entry of a log is one
-- line, which its last owner ends, and a debug entry is nothing.
theorem every_line_is_ended_once (hrun : Run sink before lines history) :
    Lines.run ⟨before, {}⟩ (history.map LineEvent.command) = some lines ∧
    lines.written = before ++ sink.keep (history.flatMap LineEvent.output) ∧
    (∀ command, lines.Permits sink command → ∃ after, lines.step command = some after ∧
      after.written = lines.written ++ sink.keep (LineEvent.output ⟨lines, command⟩) ∧
      Run sink before after (history ++ [⟨lines, command⟩])) ∧
    (∀ slot line, lines.live.get? slot = some line →
      ∃ debt, (Ledger.after history).debts.get? slot = some debt ∧ debt.isSome = line.armed) ∧
    history.flatMap LineEvent.newline = (Ledger.after history).ended.map (fun _ => '\n') ∧
    (Ledger.after history).accounted.Perm (List.range (Ledger.after history).started) ∧
    ((∀ slot, lines.live.get? slot = none) →
      (Ledger.after history).ended.Perm (List.range (Ledger.after history).started)) ∧
    (history.flatMap LineEvent.newline).length + lines.armed =
      history.countP (fun event => event.command.starts) ∧
    (∀ (level : Level) (position : Position) (commands : List LineCommand), sink = level.sink →
      level.IsEntry position lines history commands →
      (level = .debug → lines.written = before) ∧
      (level ≠ .debug → ∃ early owner late, commands = early ++ .finish owner :: late ∧
        lines.written = before ++ (level.header position ++ early.flatMap LineCommand.printed ++
          '\n' :: late.flatMap LineCommand.printed) ∧
        ((∀ command ∈ late, command.printed = []) → lines.written = before ++
          (level.header position ++ commands.flatMap LineCommand.printed ++ ['\n'])) ∧
        ('\n' ∉ position.file.toList → '\n' ∉ commands.flatMap LineCommand.printed →
          '\n' ∉ level.header position ++ commands.flatMap LineCommand.printed)) ∧
      Format.print "[%s] %s:%d: ".toList
        [.text level.name.toList, .text position.file.toList, .int position.line] =
          some (level.header position)) ∧
    Level.debug.name = "DEBUG" ∧ Level.info.name = "INFO" ∧ Level.warning.name = "WARN" ∧
    Level.error.name = "ERROR" ∧ Level.fatal.name = "FATAL" ∧ Level.other.name = "?" := by
  refine ⟨hrun.run_eq, hrun.written, fun command hpermits => ?_, fun slot line => hrun.sound.exists_debt,
    hrun.newlines, hrun.sound.accounts, hrun.sound.ended_perm, hrun.length_newline_add_armed,
    fun level position commands hsink hentry => ⟨fun hdebug => ?_, fun hother => ?_,
      level.print_header position⟩, rfl, rfl, rfl, rfl, rfl, rfl⟩
  · obtain ⟨after, hstep, hwritten, -⟩ := hrun.sound.step hpermits
    exact ⟨after, hstep, hwritten, hrun.step hpermits hstep⟩
  · subst hsink hdebug
    rw [hrun.written]
    exact List.append_nil before
  · subst hsink
    obtain ⟨early, owner, late, rfl, houtput⟩ := hentry.exists_split hother hrun
    have hwritten := hrun.written
    rw [Level.sink_of_ne hother, houtput] at hwritten
    refine ⟨early, owner, late, rfl, hwritten, fun hlate => ?_, fun hfile htext => ?_⟩
    · have hnothing := List.flatMap_eq_nil_iff.mpr hlate
      refine hwritten.trans (congrArg (before ++ ·) ?_)
      simp [Sink.keep, LineCommand.printed, hnothing]
    · exact fun hmem => (List.mem_append.mp hmem).elim (level.newline_notMem_header hfile) htext

-- A line that is printed to after it was moved away from, and ended before what is left of it.
theorem every_line_is_ended_once_when_moved : ∃ lines history,
    Run .kept [] lines history ∧
    history.map LineEvent.command = Level.error.opening ⟨"a.cc", 7⟩ 0 ++
      [.print 0 ['x'], .move 0 1, .print 0 ['y'], .print 1 ['z'], .finish 1, .finish 0] ∧
    lines.written = "[ERROR] a.cc:7: xyz\n".toList := by
  let header := Level.error.header ⟨"a.cc", 7⟩
  have hrun₀ : Run .kept [] ⟨[], {}⟩ [] := .start
  have hrun₁ := hrun₀.create (show (_ : Slots LineStream).get? 0 = none from rfl) (Or.inl rfl)
  have hrun₂ := (hrun₁.print 0 rfl header).print 0 rfl ['x']
  have hrun₃ := hrun₂.move (show (_ : Slots LineStream).get? 0 = some _ from rfl)
    (show (_ : Slots LineStream).get? 1 = none from rfl)
  have hrun₄ := (hrun₃.print 0 rfl ['y']).print 1 rfl ['z']
  have hrun₅ := hrun₄.finish 1 rfl (by decide)
  have hrun₆ := hrun₅.finish 0 rfl (by decide)
  obtain ⟨-, -, -, -, -, -, -, -, hentries, -⟩ := every_line_is_ended_once hrun₆
  refine ⟨_, _, hrun₆, rfl, ?_⟩
  obtain ⟨-, hother, -⟩ := hentries .error ⟨"a.cc", 7⟩ [.print 0 ['x'], .move 0 1, .print 0 ['y'],
    .print 1 ['z'], .finish 1, .finish 0] rfl ⟨⟨0, rfl⟩, by decide, fun _ => rfl⟩
  obtain ⟨early, owner, late, hsplit, -, hline, -⟩ := hother (by decide)
  have hlate : ∀ command ∈ late, command.printed = [] := by
    simp only [List.cons_eq_append_iff, List.cons.injEq, reduceCtorEq, false_and, and_false,
      false_or] at hsplit
    obtain ⟨_, -, _, -, _, -, _, -, ⟨-, -, rfl⟩ | ⟨_, -, ⟨-, -, rfl⟩ | ⟨_, -, hnil⟩⟩⟩ := hsplit
    · exact List.forall_mem_singleton.mpr rfl
    · exact List.forall_mem_nil _
    · exact (List.append_ne_nil_of_right_ne_nil _ (List.cons_ne_nil _ _) hnil.symm).elim
  exact (hline hlate).trans rfl

end Lines

end PagedMemory
