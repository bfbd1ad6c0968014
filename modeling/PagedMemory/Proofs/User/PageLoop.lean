import PagedMemory.Proofs.User.Pages

namespace PagedMemory.UserRange

variable {table : PageTable} {memory : Memory} {a start stop length : UInt64} {count : Nat}
  {outcome outcome' : Except Fault Unit} {cause : Fault}

-- The loop over the pages of a range as it is run: from an address on, page by page, up to the end of
-- the range. It has an outcome only if it ends.
inductive PageLoop (table : PageTable) (memory : Memory) (stop : UInt64) :
    UInt64 → Except Fault Unit → Prop where
  | done {a : UInt64} (hstop : ¬a < stop) : PageLoop table memory stop a (.ok ())
  | unmapped {a : UInt64} (hlt : a < stop)
      (hlookup : table.translate? (pageOf a) memory = .ok none) :
      PageLoop table memory stop a (.error (.pageUnmapped a))
  | fault {a : UInt64} {cause : Fault} (hlt : a < stop)
      (hlookup : table.translate? (pageOf a) memory = .error cause) :
      PageLoop table memory stop a (.error cause)
  | next {a : UInt64} {entry : Entry} {outcome : Except Fault Unit} (hlt : a < stop)
      (hlookup : table.translate? (pageOf a) memory = .ok (some entry))
      (hrest : PageLoop table memory stop (pageEnd a) outcome) :
      PageLoop table memory stop a outcome

namespace PageLoop

theorem unique (h : PageLoop table memory stop a outcome)
    (h' : PageLoop table memory stop a outcome') : outcome' = outcome := by
  induction h with
  | done hstop =>
      cases h' with
      | done => rfl
      | unmapped hlt => exact (hstop hlt).elim
      | fault hlt => exact (hstop hlt).elim
      | next hlt => exact (hstop hlt).elim
  | unmapped hlt hlookup =>
      cases h' with
      | done hstop => exact (hstop hlt).elim
      | unmapped => rfl
      | fault _ hlookup' => cases hlookup.symm.trans hlookup'
      | next _ hlookup' => cases hlookup.symm.trans hlookup'
  | fault hlt hlookup =>
      cases h' with
      | done hstop => exact (hstop hlt).elim
      | unmapped _ hlookup' => cases hlookup.symm.trans hlookup'
      | fault _ hlookup' =>
          cases hlookup.symm.trans hlookup'
          rfl
      | next _ hlookup' => cases hlookup.symm.trans hlookup'
  | next hlt hlookup _ ih =>
      cases h' with
      | done hstop => exact (hstop hlt).elim
      | unmapped _ hlookup' => cases hlookup.symm.trans hlookup'
      | fault _ hlookup' => cases hlookup.symm.trans hlookup'
      | next _ _ hrest => exact ih hrest

-- A range that ends before the last page: one step for each of its pages.
theorem of_le_lastPage (hlast : stop ≤ lastPage) (a : UInt64) :
    PageLoop table memory stop a (checkMapped table memory (pageCount a stop) a) := by
  generalize hcount : pageCount a stop = count
  induction count generalizing a with
  | zero => exact done (UInt64.not_lt.mpr (le_of_pageCount_zero hcount))
  | succ count ih =>
      have hlt := lt_of_pageCount_succ hcount
      rw [pageCount_pageEnd hlt hlast] at hcount
      cases hlookup : table.translate? (pageOf a) memory with
      | error cause =>
          rw [checkMapped, hlookup]
          exact fault hlt hlookup
      | ok entry? =>
          cases entry? with
          | none =>
              rw [checkMapped_succ_of_unmapped hlookup]
              exact unmapped hlt hlookup
          | some entry =>
              rw [checkMapped_succ_of_maps hlookup]
              exact next hlt hlookup (ih (pageEnd a) (Nat.succ.inj hcount))

-- Ranges that run into the last page: no page starts beyond their end, so the loop goes on until it
-- finds a page that is not mapped.

theorem of_checkMapped_error (hlast : lastPage < stop) (hlt : a < stop)
    (h : checkMapped table memory count a = .error cause) :
    PageLoop table memory stop a (.error cause) := by
  induction count generalizing a with
  | zero => cases h
  | succ count ih =>
      cases hlookup : table.translate? (pageOf a) memory with
      | error cause' =>
          rw [checkMapped, hlookup] at h
          cases h
          exact fault hlt hlookup
      | ok entry? =>
          cases entry? with
          | none =>
              rw [checkMapped_succ_of_unmapped hlookup] at h
              cases h
              exact unmapped hlt hlookup
          | some entry =>
              rw [checkMapped_succ_of_maps hlookup] at h
              exact next hlt hlookup (ih (UInt64.lt_of_le_of_lt (pageEnd_le_lastPage a) hlast) h)

theorem not_of_maps (hlast : lastPage < stop) (hlt : a < stop)
    (hmaps : ∀ page, table.Maps memory page) : ¬PageLoop table memory stop a outcome := by
  intro hloop
  induction hloop with
  | done hstop => exact hstop hlt
  | @unmapped a _ hlookup =>
      obtain ⟨entry, hentry⟩ := hmaps (pageOf a)
      cases hlookup.symm.trans hentry
  | @fault a _ _ hlookup =>
      obtain ⟨entry, hentry⟩ := hmaps (pageOf a)
      cases hlookup.symm.trans hentry
  | @next a _ _ _ _ _ ih => exact ih (UInt64.lt_of_le_of_lt (pageEnd_le_lastPage a) hlast)

end PageLoop

-- What making a range comes to when the loop over its pages comes to an outcome.
def settled (range : UserRange) (outcome : Except Fault Unit) : Except Stop UserRange :=
  (outcome.mapError .fault).map fun _ => range

theorem settled_inj {range : UserRange} (h : settled range outcome = settled range outcome') :
    outcome = outcome' := by
  cases outcome <;> cases outcome' <;> cases h <;> rfl

theorem settled_ne_endless {range : UserRange} : .error .endless ≠ settled range outcome := by
  cases outcome <;> exact fun h => nomatch h

-- Making a range.

theorem ofMapped_of_wraps (h : start + length < start) :
    ofMapped table start length memory = .error (.fault .rangeWraps) := if_pos h

theorem ofMapped_of_inside (hwrap : ¬start + length < start)
    (hinside : ¬(start < start + length ∧ lastPage < start + length)) :
    ofMapped table start length memory = settled ⟨table, start, start + length⟩
      (checkMapped table memory (pageCount start (start + length)) start) := by
  simp only [ofMapped, hwrap, hinside, if_false]
  rfl

theorem ofMapped_of_lastPage (hlt : start < start + length) (hlast : lastPage < start + length) :
    ofMapped table start length memory =
      ((checkMapped table memory VirtPage.count start).mapError .fault).bind
        fun _ => .error .endless := by
  have hwrap : ¬start + length < start := UInt64.lt_asymm hlt
  simp only [ofMapped, hwrap, hlt, hlast, and_self, if_false, if_true]
  rfl

-- A range is what the loop over its pages comes to, and there is none if the loop does not end.
theorem pageLoop_iff (hwrap : ¬start + length < start) :
    PageLoop table memory (start + length) start outcome ↔
      ofMapped table start length memory = settled ⟨table, start, start + length⟩ outcome := by
  by_cases hlast : start < start + length ∧ lastPage < start + length
  · rw [ofMapped_of_lastPage hlast.1 hlast.2]
    rcases checkMapped_cases table memory VirtPage.count start with
      ⟨hok, hmaps⟩ | ⟨-, -, cause, -, herror, -⟩
    · have hnot : ¬PageLoop table memory (start + length) start outcome :=
        PageLoop.not_of_maps hlast.2 hlast.1 ((pages_of_space _).mp hmaps)
      rw [hok]
      exact ⟨fun h => (hnot h).elim, fun h => (settled_ne_endless h).elim⟩
    · have hloop := PageLoop.of_checkMapped_error hlast.2 hlast.1 herror
      rw [herror]
      constructor
      · intro h
        rw [hloop.unique h]
        rfl
      · intro h
        have hsettled : settled ⟨table, start, start + length⟩ (.error cause) =
            settled ⟨table, start, start + length⟩ outcome := h
        rwa [← settled_inj hsettled]
  · have hloop : PageLoop table memory (start + length) start
        (checkMapped table memory (pageCount start (start + length)) start) := by
      by_cases hlt : start < start + length
      · exact .of_le_lastPage (UInt64.not_lt.mp fun hpast => hlast ⟨hlt, hpast⟩) start
      · rw [pageCount_of_le hlt]
        exact .done hlt
    rw [ofMapped_of_inside hwrap hlast]
    constructor
    · intro h
      rw [hloop.unique h]
    · intro h
      rwa [← settled_inj h]

-- With a table whose lookups do not fail there are two cases for each kind of range.

theorem ofMapped_inside_cases (hanswers : table.Answers memory) (hwrap : ¬start + length < start)
    (hinside : ¬(start < start + length ∧ lastPage < start + length)) :
    (ofMapped table start length memory = .ok ⟨table, start, start + length⟩ ∧
        PageLoop table memory (start + length) start (.ok ()) ∧
        ∀ a, start ≤ a → a < start + length → table.Maps memory (pageOf a)) ∨
      ∃ b, ofMapped table start length memory = .error (.fault (.pageUnmapped b)) ∧
        PageLoop table memory (start + length) start (.error (.pageUnmapped b)) ∧
        ∃ a, start ≤ a ∧ a < start + length ∧ ¬table.Maps memory (pageOf a) := by
  have hmade : ofMapped table start length memory = _ := ofMapped_of_inside hwrap hinside
  rcases checkMapped_cases table memory (pageCount start (start + length)) start with
    ⟨hok, hmaps⟩ | ⟨i, b, cause, hi, herror, hpage, hnot, hcause, -⟩
  · rw [hok] at hmade
    exact Or.inl ⟨hmade, (pageLoop_iff hwrap).mpr hmade, pages_of_range.mp hmaps⟩
  · rw [herror, hcause hanswers] at hmade
    obtain ⟨a, hstart, hstop, ha⟩ := exists_address hi
    refine Or.inr ⟨b, hmade, (pageLoop_iff hwrap).mpr hmade, a, hstart, hstop, ?_⟩
    rwa [ha, ← hpage]

theorem ofMapped_lastPage_cases (hanswers : table.Answers memory) (hlt : start < start + length)
    (hlast : lastPage < start + length) :
    (ofMapped table start length memory = .error .endless ∧
        (∀ outcome, ¬PageLoop table memory (start + length) start outcome) ∧
        ∀ page, table.Maps memory page) ∨
      ∃ b, ofMapped table start length memory = .error (.fault (.pageUnmapped b)) ∧
        PageLoop table memory (start + length) start (.error (.pageUnmapped b)) ∧
        ∃ page, ¬table.Maps memory page := by
  have hmade : ofMapped table start length memory = _ := ofMapped_of_lastPage hlt hlast
  rcases checkMapped_cases table memory VirtPage.count start with
    ⟨hok, hmaps⟩ | ⟨-, b, cause, -, herror, -, hnot, hcause, -⟩
  · rw [hok] at hmade
    have hall := (pages_of_space _).mp hmaps
    exact Or.inl ⟨hmade, fun outcome => PageLoop.not_of_maps hlast hlt hall, hall⟩
  · rw [herror, hcause hanswers] at hmade
    exact Or.inr ⟨b, hmade, (pageLoop_iff (UInt64.lt_asymm hlt)).mpr hmade, _, hnot⟩

-- A range that stays below the last page is made if its pages are mapped, and only then.

theorem ofMapped_eq_ok_iff (hanswers : table.Answers memory) (hwrap : ¬start + length < start)
    (hinside : ¬(start < start + length ∧ lastPage < start + length)) :
    ofMapped table start length memory = .ok ⟨table, start, start + length⟩ ↔
      ∀ a, start ≤ a → a < start + length → table.Maps memory (pageOf a) := by
  rcases ofMapped_inside_cases hanswers hwrap hinside with
    ⟨hok, -, hmaps⟩ | ⟨b, herror, -, a, hstart, hstop, hnot⟩
  · exact ⟨fun _ => hmaps, fun _ => hok⟩
  · refine ⟨fun hok => ?_, fun hmaps => (hnot (hmaps a hstart hstop)).elim⟩
    cases hok.symm.trans herror

theorem ofMapped_eq_pageUnmapped_iff (hanswers : table.Answers memory)
    (hwrap : ¬start + length < start)
    (hinside : ¬(start < start + length ∧ lastPage < start + length)) :
    (∃ a, ofMapped table start length memory = .error (.fault (.pageUnmapped a))) ↔
      ∃ a, start ≤ a ∧ a < start + length ∧ ¬table.Maps memory (pageOf a) := by
  rcases ofMapped_inside_cases hanswers hwrap hinside with
    ⟨hok, -, hmaps⟩ | ⟨b, herror, -, a, hstart, hstop, hnot⟩
  · constructor
    · rintro ⟨a, herror⟩
      cases hok.symm.trans herror
    · rintro ⟨a, hstart, hstop, hnot⟩
      exact (hnot (hmaps a hstart hstop)).elim
  · exact ⟨fun _ => ⟨a, hstart, hstop, hnot⟩, fun _ => ⟨b, herror⟩⟩

-- A range that runs into the last page is never made, and all pages of the space matter to it.

theorem ofMapped_ne_ok (hanswers : table.Answers memory) (hlt : start < start + length)
    (hlast : lastPage < start + length) (range : UserRange) :
    ofMapped table start length memory ≠ .ok range := by
  intro hok
  rcases ofMapped_lastPage_cases hanswers hlt hlast with ⟨hendless, -⟩ | ⟨b, herror, -⟩
  · cases hok.symm.trans hendless
  · cases hok.symm.trans herror

theorem exists_pageLoop_iff (hanswers : table.Answers memory) (hlt : start < start + length)
    (hlast : lastPage < start + length) :
    (∃ outcome, PageLoop table memory (start + length) start outcome) ↔
      ∃ page, ¬table.Maps memory page := by
  rcases ofMapped_lastPage_cases hanswers hlt hlast with ⟨-, hnot, hmaps⟩ | ⟨b, -, hloop, hunmapped⟩
  · exact ⟨fun ⟨outcome, h⟩ => (hnot outcome h).elim, fun ⟨page, h⟩ => (h (hmaps page)).elim⟩
  · exact ⟨fun _ => hunmapped, fun _ => ⟨_, hloop⟩⟩

theorem ofMapped_eq_pageUnmapped_iff_of_lastPage (hanswers : table.Answers memory)
    (hlt : start < start + length) (hlast : lastPage < start + length) :
    (∃ a, ofMapped table start length memory = .error (.fault (.pageUnmapped a))) ↔
      ∃ page, ¬table.Maps memory page := by
  rcases ofMapped_lastPage_cases hanswers hlt hlast with
    ⟨hendless, -, hmaps⟩ | ⟨b, herror, -, hunmapped⟩
  · constructor
    · rintro ⟨a, herror⟩
      cases hendless.symm.trans herror
    · rintro ⟨page, hunmapped⟩
      exact (hunmapped (hmaps page)).elim
  · exact ⟨fun _ => hunmapped, fun _ => ⟨b, herror⟩⟩

-- Only ranges that wrap around are refused as such.
theorem ofMapped_eq_rangeWraps_iff (hanswers : table.Answers memory) :
    ofMapped table start length memory = .error (.fault .rangeWraps) ↔ start + length < start := by
  refine ⟨fun hwraps => ?_, ofMapped_of_wraps⟩
  by_contra hwrap
  by_cases hlast : start < start + length ∧ lastPage < start + length
  · rcases ofMapped_lastPage_cases hanswers hlast.1 hlast.2 with ⟨hendless, -⟩ | ⟨b, herror, -⟩
    · cases hwraps.symm.trans hendless
    · cases hwraps.symm.trans herror
  · rcases ofMapped_inside_cases hanswers hwrap hlast with ⟨hok, -⟩ | ⟨b, herror, -⟩
    · cases hwraps.symm.trans hok
    · cases hwraps.symm.trans herror

end PagedMemory.UserRange
