namespace PagedMemory

-- Objects kept under numbers, each number naming at most one.
structure Slots (α : Type) where
  entries : List (Nat × α) := []

namespace Slots

variable {α : Type}

def get? (slots : Slots α) (slot : Nat) : Option α := slots.entries.lookup slot

def erase (slots : Slots α) (slot : Nat) : Slots α :=
  ⟨slots.entries.filter fun entry => entry.1 != slot⟩

def set (slots : Slots α) (slot : Nat) (object : α) : Slots α :=
  ⟨(slot, object) :: (slots.erase slot).entries⟩

@[simp]
theorem get?_empty (slot : Nat) : ({} : Slots α).get? slot = none := rfl

@[simp]
theorem get?_erase_same (slots : Slots α) (slot : Nat) : (slots.erase slot).get? slot = none := by
  simp only [get?, erase]
  induction slots.entries with
  | nil => rfl
  | cons entry rest ih =>
      obtain ⟨key, object⟩ := entry
      by_cases h : key = slot
      · simpa [h] using ih
      · have hs : (slot == key) = false := beq_false_of_ne (Ne.symm h)
        simpa [h, List.lookup_cons, hs] using ih

@[simp]
theorem get?_erase_other (slots : Slots α) (slot other : Nat) (h : other ≠ slot) :
    (slots.erase slot).get? other = slots.get? other := by
  simp only [get?, erase]
  induction slots.entries with
  | nil => rfl
  | cons entry rest ih =>
      obtain ⟨key, object⟩ := entry
      by_cases hk : key = slot
      · have ho : (other == key) = false := beq_false_of_ne (hk ▸ h)
        simpa [hk, List.lookup_cons, hk ▸ ho] using ih
      · simp [hk, List.lookup_cons, ih]

@[simp]
theorem get?_set_same (slots : Slots α) (slot : Nat) (object : α) :
    (slots.set slot object).get? slot = some object := by
  simp [get?, set]

@[simp]
theorem get?_set_other (slots : Slots α) (slot other : Nat) (object : α) (h : other ≠ slot) :
    (slots.set slot object).get? other = slots.get? other := by
  have ho : (other == slot) = false := beq_false_of_ne h
  simpa [get?, set, List.lookup_cons, ho] using get?_erase_other slots slot other h

-- An object that is taken out leaves fewer.
theorem length_erase_lt {slots : Slots α} {slot : Nat} {object : α}
    (h : slots.get? slot = some object) :
    (slots.erase slot).entries.length < slots.entries.length := by
  refine Nat.lt_of_le_of_ne (List.length_filter_le _ _) fun heq => ?_
  have hall := List.length_filter_eq_length_iff.mp heq
  have hnone : slots.get? slot = none := List.lookup_eq_none_iff.mpr fun entry hmem => by
    rw [bne_comm]
    exact hall entry hmem
  cases hnone.symm.trans h

end Slots

end PagedMemory
