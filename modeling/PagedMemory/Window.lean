import PagedMemory.Memory

namespace PagedMemory

-- The linear window through which the kernel sees physical memory: a physical address appears
-- `offset` above its own place. Both values are words, and sums wrap.
structure Window where
  start : UInt64
  offset : UInt64

namespace Window

-- Physical addresses lie below the start of the window.
def toVirtual (window : Window) (phys : UInt64) : Except Fault UInt64 :=
  if phys < window.start then .ok (phys + window.offset) else .error .outsideWindow

-- Virtual addresses of the window lie at or above its start.
def toPhysical (window : Window) (virt : UInt64) : Except Fault UInt64 :=
  if virt ≥ window.start then .ok (virt - window.offset) else .error .belowWindow

-- An address that appears in the window leads back to its own place, even if the sum wrapped.
theorem toPhysical_of_toVirtual {window : Window} {phys virt : UInt64}
    (h : window.toVirtual phys = .ok virt) (hstart : window.start ≤ virt) :
    window.toPhysical virt = .ok phys := by
  rw [toVirtual] at h
  split at h
  · cases h
    rw [toPhysical, if_pos hstart, UInt64.add_sub_cancel]
  · cases h

end Window

-- Memory is reached through a window that starts as far up as memory is long, wherever it shows it.
theorem Memory.reach_eq_toVirtual (memory : Memory) (a : PhysAddr) (offset : UInt64)
    (hsize : memory.size < 0x10000000000000000) :
    memory.reach a =
      (Window.toVirtual ⟨.ofNat memory.size, offset⟩ (.ofNat a.value)).map fun _ => () := by
  have ha : a.value < 0x10000000000000000 := Nat.lt_trans a.isLt (by decide)
  have hlt : UInt64.ofNat a.value < UInt64.ofNat memory.size ↔ a.value < memory.size := by
    rw [UInt64.lt_iff_toNat_lt, UInt64.toNat_ofNat_of_lt' ha, UInt64.toNat_ofNat_of_lt' hsize]
  rw [reach, Window.toVirtual]
  by_cases h : a.value < memory.size
  · rw [if_pos h, if_pos (hlt.mpr h)]
    rfl
  · rw [if_neg h, if_neg (mt hlt.mp h)]
    rfl

end PagedMemory
