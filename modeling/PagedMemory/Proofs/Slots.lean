import Mathlib.Data.List.Nodup
import Mathlib.Data.List.Perm.Basic
import PagedMemory.Slots

namespace PagedMemory.Slots

variable {α β : Type} {slots : Slots α} {slot : Nat} {object : α} {f g : α → List β} {b : β}

-- No number names two objects.
def Distinct (slots : Slots α) : Prop := (slots.entries.map Prod.fst).Nodup

-- What the objects have to show, all together.
def total (f : α → List β) (slots : Slots α) : List β := slots.entries.flatMap fun entry => f entry.2

-- The same, counted.
def count (f : α → Nat) (slots : Slots α) : Nat :=
  slots.entries.foldr (fun entry sum => f entry.2 + sum) 0

-- Something computed from each object, under the same number.
def map (p : α → β) (slots : Slots α) : Slots β := ⟨slots.entries.map (Prod.map id p)⟩

theorem distinct_empty : ({} : Slots α).Distinct := List.nodup_nil

theorem Distinct.erase (h : slots.Distinct) (slot : Nat) : (slots.erase slot).Distinct :=
  h.sublist (List.filter_sublist.map Prod.fst)

theorem Distinct.set (h : slots.Distinct) (slot : Nat) (object : α) :
    (slots.set slot object).Distinct := by
  refine List.nodup_cons.mpr ⟨fun hmem => ?_, h.erase slot⟩
  obtain ⟨entry, hentry, hkey⟩ := List.mem_map.mp hmem
  have hne := (List.mem_filter.mp hentry).2
  simp [hkey] at hne

theorem erase_erase (slots : Slots α) (slot : Nat) :
    (slots.erase slot).erase slot = slots.erase slot := by
  rw [erase, Slots.mk.injEq, List.filter_eq_self]
  exact fun entry hmem => (List.mem_filter.mp hmem).2

theorem erase_set (slots : Slots α) (slot : Nat) (object : α) :
    (slots.set slot object).erase slot = slots.erase slot := by
  rw [erase, set, List.filter_cons_of_neg (by simp)]
  exact erase_erase slots slot

theorem set_set (slots : Slots α) (slot : Nat) (old new : α) :
    (slots.set slot old).set slot new = slots.set slot new := by
  rw [set, erase_set]
  rfl

theorem entry_mem_of_get? (h : slots.get? slot = some object) : (slot, object) ∈ slots.entries := by
  obtain ⟨entries⟩ := slots
  simp only [get?] at h
  induction entries with
  | nil => cases h
  | cons entry rest ih =>
      obtain ⟨key, value⟩ := entry
      rw [List.lookup_cons] at h
      by_cases hkey : slot = key
      · rw [beq_iff_eq.mpr hkey] at h
        cases h
        cases hkey
        exact List.mem_cons_self
      · rw [beq_false_of_ne hkey] at h
        exact List.mem_cons_of_mem _ (ih h)

theorem get?_of_entry_mem (hdistinct : slots.Distinct) (h : (slot, object) ∈ slots.entries) :
    slots.get? slot = some object := by
  obtain ⟨entries⟩ := slots
  simp only [get?]
  induction entries with
  | nil => cases h
  | cons entry rest ih =>
      obtain ⟨key, value⟩ := entry
      rw [Distinct, List.map_cons, List.nodup_cons] at hdistinct
      rw [List.lookup_cons]
      rcases List.mem_cons.mp h with heq | hmem
      · cases heq
        rw [beq_self_eq_true]
      · have hne : slot ≠ key := by
          rintro rfl
          exact hdistinct.1 (List.mem_map.mpr ⟨_, hmem, rfl⟩)
        rw [beq_false_of_ne hne]
        exact ih hdistinct.2 hmem

-- A number that names nothing has nothing to give up.
theorem erase_of_get?_none (h : slots.get? slot = none) : slots.erase slot = slots := by
  obtain ⟨entries⟩ := slots
  rw [erase, Slots.mk.injEq, List.filter_eq_self]
  intro entry hmem
  have hnone := List.lookup_eq_none_iff.mp h entry hmem
  rw [bne_iff_ne]
  exact fun heq => by simp [heq] at hnone

section

variable (p : α → β) (slots : Slots α) (slot : Nat)

theorem get?_map : (slots.map p).get? slot = (slots.get? slot).map p := by
  obtain ⟨entries⟩ := slots
  simp only [get?, map]
  induction entries with
  | nil => rfl
  | cons entry rest ih =>
      rw [List.map_cons, Prod.map, List.lookup_cons, List.lookup_cons, ih]
      cases h : slot == entry.1 <;> simp [h]

theorem map_erase : (slots.erase slot).map p = (slots.map p).erase slot := by
  rw [erase, erase, map, map, List.filter_map]
  rfl

theorem map_set (object : α) : (slots.set slot object).map p = (slots.map p).set slot (p object) := by
  rw [set, set, ← map_erase]
  rfl

theorem count_map (f : β → Nat) : (slots.map p).count f = slots.count (f ∘ p) := by
  rw [count, count, map, List.foldr_map]
  rfl

end

theorem entries_eq_nil (h : ∀ slot, slots.get? slot = none) : slots.entries = [] := by
  refine List.eq_nil_iff_forall_not_mem.mpr fun entry hmem => ?_
  have hnone := List.lookup_eq_none_iff.mp (h entry.1) entry hmem
  simp at hnone

theorem mem_total : b ∈ slots.total f ↔ ∃ entry ∈ slots.entries, b ∈ f entry.2 := List.mem_flatMap

theorem mem_total_of_get? (h : slots.get? slot = some object) (hmem : b ∈ f object) :
    b ∈ slots.total f := mem_total.mpr ⟨_, entry_mem_of_get? h, hmem⟩

theorem total_congr (h : ∀ entry ∈ slots.entries, f entry.2 = g entry.2) :
    slots.total f = slots.total g := List.flatMap_congr h

theorem length_total {n : α → Nat} (h : ∀ entry ∈ slots.entries, (f entry.2).length = n entry.2) :
    (slots.total f).length = slots.count n := by
  obtain ⟨entries⟩ := slots
  simp only [total, count] at h ⊢
  induction entries with
  | nil => rfl
  | cons entry rest ih =>
      obtain ⟨hentry, hrest⟩ := List.forall_mem_cons.mp h
      rw [List.flatMap_cons, List.length_append, List.foldr_cons, hentry, ih hrest]

theorem total_set : (slots.set slot object).total f = f object ++ (slots.erase slot).total f := rfl

-- An object moves to an empty number, and what it leaves behind has nothing to show.
theorem total_move {left : α} {target : Nat} (hne : target ≠ slot)
    (hempty : slots.get? target = none) (hleft : f left = []) :
    ((slots.set slot left).set target object).total f = f object ++ (slots.erase slot).total f := by
  have hnone : (slots.set slot left).get? target = none := by
    rw [get?_set_other _ _ _ _ hne, hempty]
  rw [total_set, erase_of_get?_none hnone, total_set, hleft, List.nil_append]

-- What one object has to show, and what the others have.
theorem total_perm (slot : Nat) (hdistinct : slots.Distinct) {object? : Option α}
    (h : slots.get? slot = object?) :
    (slots.total f).Perm (object?.elim [] f ++ (slots.erase slot).total f) := by
  subst h
  cases hget : slots.get? slot with
  | none => rw [erase_of_get?_none hget]; exact List.Perm.refl _
  | some object =>
      have hmem := entry_mem_of_get? hget
      obtain ⟨entries⟩ := slots
      obtain ⟨before, after, rfl⟩ := List.append_of_mem hmem
      have hkeys : ∀ entry ∈ before ++ after, (entry.1 != slot) = true := by
        intro entry hentry
        rw [Distinct, List.map_append, List.map_cons] at hdistinct
        have hnot := (List.nodup_middle.mp hdistinct).notMem
        rw [bne_iff_ne]
        rintro rfl
        apply hnot
        rw [← List.map_append]
        exact List.mem_map.mpr ⟨entry, hentry, rfl⟩
      have herase : (erase ⟨before ++ (slot, object) :: after⟩ slot).entries = before ++ after := by
        rw [erase, List.filter_append, List.filter_cons_of_neg (by simp), ← List.filter_append]
        exact List.filter_eq_self.mpr hkeys
      rw [total, total, herase, List.flatMap_append, List.flatMap_cons, List.flatMap_append]
      exact List.perm_append_comm_assoc ..

end PagedMemory.Slots
