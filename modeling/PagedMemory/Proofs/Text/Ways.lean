import PagedMemory.Text.Line

namespace PagedMemory

namespace LineTarget

variable {live after : Slots LineStream} {last : Sink} {target : LineTarget} {slot n m : Nat}

-- The way from a target over this many lines to its end.
inductive Leads (live : Slots LineStream) (last : Sink) : Nat → LineTarget → Prop where
  | sink : Leads live last 0 (.sink last)
  | line {slot n : Nat} {line : LineStream} (hget : live.get? slot = some line)
      (hway : Leads live last n line.target) : Leads live last (n + 1) (.line slot)

namespace Leads

theorem unique (h : Leads live last n target) (h' : Leads live last m target) : n = m := by
  induction h generalizing m with
  | sink =>
      cases h'
      rfl
  | line hget _ ih =>
      cases h' with
      | line hget' hway' =>
          cases hget.symm.trans hget'
          rw [ih hway']

-- A longer way is not part of a shorter one.
theorem erase_of_lt (h : Leads live last n target) (hslot : Leads live last m (.line slot))
    (hlt : n < m) : Leads (live.erase slot) last n target := by
  induction h with
  | sink => exact .sink
  | @line other n line hget hway ih =>
      have hne : other ≠ slot := by
        rintro rfl
        exact Nat.lt_irrefl _ ((hslot.unique (.line hget hway)) ▸ hlt)
      refine .line ?_ (ih (Nat.lt_of_succ_lt hlt))
      rw [Slots.get?_erase_other _ _ _ hne]
      exact hget

theorem sink?_eq (h : Leads live last n target) : target.sink? live = some last := by
  induction n generalizing live target with
  | zero =>
      cases h
      rw [sink?]
  | succ n ih =>
      cases h with
      | @line slot _ line hget hway =>
          have herase := hway.erase_of_lt (.line hget hway) (Nat.lt_succ_self n)
          rw [sink?]
          split
          · next hnone => cases hnone.symm.trans hget
          · next next hnext =>
              cases hnext.symm.trans hget
              exact ih herase

-- Lines that are there keep leading to where they led, also when others come or change hands.
theorem mono (h : Leads live last n target)
    (hkept : ∀ slot line, live.get? slot = some line →
      ∃ line', after.get? slot = some line' ∧ line'.target = line.target) :
    Leads after last n target := by
  induction h with
  | sink => exact .sink
  | line hget _ ih =>
      obtain ⟨line', hget', htarget⟩ := hkept _ _ hget
      exact .line hget' (htarget ▸ ih)

-- And when a line is ended that no other writes to.
theorem erase (h : Leads live last n target) (hne : target ≠ .line slot)
    (hfree : ∀ other line, live.get? other = some line → line.target ≠ .line slot) :
    Leads (live.erase slot) last n target := by
  induction h with
  | sink => exact .sink
  | @line other n line hget _ ih =>
      have hother : other ≠ slot := fun heq => hne (heq ▸ rfl)
      refine .line ?_ (ih (hfree _ _ hget))
      rw [Slots.get?_erase_other _ _ _ hother]
      exact hget

end Leads

-- Every line leads to the end.
def Grounded (live : Slots LineStream) (last : Sink) : Prop :=
  ∀ slot line, live.get? slot = some line → ∃ n, line.target.Leads live last n

namespace Grounded

theorem leads {line : LineStream} (h : Grounded live last) (hget : live.get? slot = some line) :
    ∃ n, (LineTarget.line slot).Leads live last n := by
  obtain ⟨n, hway⟩ := h slot line hget
  exact ⟨n + 1, .line hget hway⟩

-- A line comes to a slot that is free, or to the place of one that writes to the same target.
theorem set {line : LineStream} (h : Grounded live last)
    (hold : ∀ old, live.get? slot = some old → line.target = old.target)
    (htarget : ∃ n, line.target.Leads live last n) : Grounded (live.set slot line) last := by
  have hkept : ∀ other old, live.get? other = some old →
      ∃ new, (live.set slot line).get? other = some new ∧ new.target = old.target := by
    intro other old hget
    by_cases hother : other = slot
    · subst hother
      exact ⟨line, Slots.get?_set_same .., hold old hget⟩
    · exact ⟨old, by rw [Slots.get?_set_other _ _ _ _ hother, hget], rfl⟩
  have hnew : ∀ other new, (live.set slot line).get? other = some new →
      ∃ n, new.target.Leads live last n := by
    intro other new hget
    by_cases hother : other = slot
    · rw [hother, Slots.get?_set_same] at hget
      cases hget
      exact htarget
    · rw [Slots.get?_set_other _ _ _ _ hother] at hget
      exact h other new hget
  intro other new hget
  obtain ⟨n, hway⟩ := hnew other new hget
  exact ⟨n, hway.mono hkept⟩

theorem erase (h : Grounded live last)
    (hfree : ∀ other line, live.get? other = some line → line.target ≠ .line slot) :
    Grounded (live.erase slot) last := by
  intro other line hget
  have hother : other ≠ slot := by
    rintro rfl
    rw [Slots.get?_erase_same] at hget
    cases hget
  rw [Slots.get?_erase_other _ _ _ hother] at hget
  obtain ⟨n, hway⟩ := h other line hget
  exact ⟨n, hway.erase (hfree other line hget) hfree⟩

end Grounded

end LineTarget

end PagedMemory
