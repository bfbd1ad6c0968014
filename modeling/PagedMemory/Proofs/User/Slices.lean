import Mathlib.Algebra.GroupWithZero.Nat
import PagedMemory.Proofs.Table.Mapping
import PagedMemory.Proofs.Table.Walk
import PagedMemory.Proofs.User.Backing

namespace PagedMemory

namespace FrameSlice

variable {slice : FrameSlice} {memory : Memory}

-- Where its bytes are, and what they are.

def addresses (slice : FrameSlice) : List PhysAddr := (List.range slice.size).map (slice.start + ·)

def contents (slice : FrameSlice) (memory : Memory) : List UInt8 :=
  memory.read slice.start slice.size

-- A slice that is not empty and does not leave its frame, which memory has.
structure Inside (slice : FrameSlice) (memory : Memory) : Prop where
  pos : 0 < slice.size
  window : slice.start.page.number < memory.frames
  fits : slice.start.offset + slice.size ≤ 4096

theorem length_addresses (slice : FrameSlice) : slice.addresses.length = slice.size := by
  simp [addresses]

theorem Inside.contents_eq (h : slice.Inside memory) :
    slice.contents memory = slice.addresses.map memory.byte := by
  have hfits := h.fits
  have hlt := slice.start.isLt
  rw [PhysAddr.offset, pageSize_eq] at hfits
  rw [contents, Memory.read_eq_map (by omega), addresses, List.map_map]
  rfl

end FrameSlice

namespace UserRange

variable {table : PageTable} {memory : Memory} {range : UserRange} {a b start length : UInt64}

-- From one slice to the next.

theorem toNat_nextStart (hlt : a < range.stop) (hlast : range.stop ≤ lastPage) :
    (range.nextStart a).toNat = min ((a.toNat / 4096 + 1) * 4096) range.stop.toNat := by
  have hend := toNat_pageEnd_of_lt hlt hlast
  rw [nextStart]
  split
  · rename_i hnext
    rw [UInt64.lt_iff_toNat_lt, hend] at hnext
    omega
  · rename_i hnext
    rw [UInt64.lt_iff_toNat_lt, hend] at hnext
    omega

theorem pageCount_nextStart (hlt : a < range.stop) (hlast : range.stop ≤ lastPage) :
    pageCount a range.stop = pageCount (range.nextStart a) range.stop + 1 := by
  rw [pageCount_pageEnd hlt hlast, nextStart]
  split
  · rfl
  · rename_i hnext
    rw [pageCount_of_le hnext, pageCount_of_le (UInt64.lt_irrefl _)]

namespace Backed

variable {slice : FrameSlice}

theorem le_lastPage (h : range.Backed memory) (hstart : range.start ≤ a) (hlt : a < range.stop) :
    range.stop ≤ lastPage := h.last (UInt64.lt_of_le_of_lt hstart hlt)

-- The slice at an address starts behind that address and goes up to the end of the page or the range.
theorem sliceAt_eq (h : range.Backed memory) (hstart : range.start ≤ a) (hlt : a < range.stop) :
    ∃ entry, range.table.translate? (.ofNat (a.toNat / 4096)) memory = .ok (some entry) ∧
      entry.page.number < memory.frames ∧
      range.sliceAt a memory = .ok ⟨entry.page.base + a.toNat % 4096,
        (range.nextStart a).toNat - a.toNat⟩ := by
  obtain ⟨entry, hentry, hwindow⟩ := h.leaf a.toNat (holds_toNat hstart hlt)
  have hnext := toNat_nextStart hlt (h.le_lastPage hstart hlt)
  have hbound := (range.nextStart a).toNat_lt
  have hpast : ¬range.stop ≤ a := UInt64.not_le.mpr hlt
  rw [UInt64.lt_iff_toNat_lt] at hlt
  have hle : a ≤ range.nextStart a := by
    rw [UInt64.le_iff_toNat_le, hnext]
    omega
  have hstop : (UInt64.ofNat (a.toNat % 4096) + (range.nextStart a - a)).toNat =
      a.toNat % 4096 + ((range.nextStart a).toNat - a.toNat) := by
    rw [UInt64.toNat_add, UInt64.toNat_sub_of_le _ _ hle, UInt64.toNat_ofNat']
    omega
  have hcut : checkCut (a.toNat % 4096) (a.toNat % 4096 + ((range.nextStart a).toNat - a.toNat))
      pageSize = .ok () := by
    rw [checkCut, if_neg (by omega), if_neg (by rw [pageSize_eq]; omega)]
  refine ⟨entry, hentry, hwindow, ?_⟩
  simp only [sliceAt, hpast, if_false, pageOf_eq, hentry, VirtAddr.offset_ofNat, hstop]
  simp only [bind, Except.bind, Memory.reach_base hwindow, hcut, pure, Except.pure,
    Nat.add_sub_cancel_left]

theorem exists_sliceAt (h : range.Backed memory) (hstart : range.start ≤ a) (hlt : a < range.stop) :
    ∃ slice, range.sliceAt a memory = .ok slice := by
  obtain ⟨entry, -, -, hslice⟩ := h.sliceAt_eq hstart hlt
  exact ⟨_, hslice⟩

end Backed

-- What is known of the slice at an address.
structure SliceFrom (range : UserRange) (memory : Memory) (a : UInt64) (slice : FrameSlice) :
    Prop where
  lt : a < range.stop
  last : range.stop ≤ lastPage
  inside : slice.Inside memory
  offset : slice.start.offset = a.toNat % 4096
  next : a.toNat + slice.size = (range.nextStart a).toNat
  locates : ∀ i < slice.size,
    range.table.translateAddr? (.ofNat (a.toNat + i)) memory = .ok (some (slice.start + i))

theorem Backed.sliceFrom {slice : FrameSlice} (h : range.Backed memory) (hstart : range.start ≤ a)
    (hslice : range.sliceAt a memory = .ok slice) : range.SliceFrom memory a slice := by
  have hlt : a < range.stop := by
    by_contra hpast
    rw [sliceAt, if_pos (UInt64.not_lt.mp hpast)] at hslice
    cases hslice
  have hlast := h.le_lastPage hstart hlt
  obtain ⟨entry, hentry, hwindow, hslice'⟩ := h.sliceAt_eq hstart hlt
  cases hslice.symm.trans hslice'
  have hnext := toNat_nextStart hlt hlast
  have hoffset : a.toNat % 4096 < 4096 := Nat.mod_lt _ (by decide)
  have hltNat := UInt64.lt_iff_toNat_lt.mp hlt
  refine ⟨hlt, hlast, ⟨?_, ?_, ?_⟩, PhysPage.offset_base_add hoffset, ?_, fun i hi => ?_⟩
  · simp only
    omega
  · rwa [PhysPage.page_base_add hoffset]
  · rw [PhysPage.offset_base_add hoffset]
    simp only
    omega
  · simp only
    omega
  · simp only at hi
    have hpage : (a.toNat + i) / 4096 = a.toNat / 4096 := by omega
    have hplace : (a.toNat + i) % 4096 = a.toNat % 4096 + i := by omega
    rw [PageTable.translateAddr?_of_translate? (hpage ▸ hentry), hplace, PhysAddr.add_add]

-- The two loops over the slices of a range, as they are run: one takes the slices from an address on
-- until it comes to the end of the range, the other counts them while it is before the end.

inductive SliceLoop (range : UserRange) (memory : Memory) : UInt64 → List FrameSlice → Prop where
  | done : SliceLoop range memory range.stop []
  | next {a : UInt64} {slice : FrameSlice} {slices : List FrameSlice} (hne : a ≠ range.stop)
      (hslice : range.sliceAt a memory = .ok slice)
      (hrest : SliceLoop range memory (range.nextStart a) slices) :
      SliceLoop range memory a (slice :: slices)

inductive CountLoop (range : UserRange) : UInt64 → Nat → Prop where
  | done {a : UInt64} (hstop : ¬a < range.stop) : CountLoop range a 0
  | next {a : UInt64} {count : Nat} (hlt : a < range.stop)
      (hrest : CountLoop range (range.nextStart a) count) : CountLoop range a (count + 1)

theorem startsFrom_succ_of_lt (count : Nat) (hlt : a < range.stop) :
    range.startsFrom (count + 1) a = a :: range.startsFrom count (range.nextStart a) := if_pos hlt

theorem le_nextStart (hlt : a < range.stop) (hlast : range.stop ≤ lastPage) :
    a < range.nextStart a ∧ range.nextStart a ≤ range.stop := by
  have hnext := toNat_nextStart hlt hlast
  rw [UInt64.lt_iff_toNat_lt] at hlt ⊢
  rw [UInt64.le_iff_toNat_le, hnext]
  omega

namespace Backed

-- Both loops end, as many slices as pages after they started.
theorem exists_loop (h : range.Backed memory) (hstart : range.start ≤ a) (hstop : a ≤ range.stop) :
    ∃ slices, (range.startsFrom (pageCount a range.stop) a).mapM (range.sliceAt · memory) =
        .ok slices ∧
      range.SliceLoop memory a slices ∧ range.CountLoop a slices.length ∧
      (range.startsFrom (pageCount a range.stop) a).length = slices.length ∧
      slices.length = pageCount a range.stop := by
  generalize hcount : pageCount a range.stop = count
  induction count generalizing a with
  | zero =>
      have hle := le_of_pageCount_zero hcount
      have heq : a = range.stop := UInt64.le_antisymm hstop hle
      exact ⟨[], rfl, heq ▸ .done, .done (UInt64.not_lt.mpr hle), rfl, rfl⟩
  | succ count ih =>
      have hlt := lt_of_pageCount_succ hcount
      have hlast := h.le_lastPage hstart hlt
      obtain ⟨hbefore, hafter⟩ := le_nextStart hlt hlast
      rw [pageCount_nextStart hlt hlast] at hcount
      obtain ⟨slice, hslice⟩ := h.exists_sliceAt hstart hlt
      obtain ⟨slices, hmap, hloop, hcounts, hstarts, hlength⟩ :=
        ih (UInt64.le_trans hstart (UInt64.le_of_lt hbefore)) hafter (Nat.succ.inj hcount)
      refine ⟨slice :: slices, ?_, .next (UInt64.ne_of_lt hlt) hslice hloop, .next hlt hcounts, ?_, ?_⟩
      · rw [startsFrom_succ_of_lt count hlt, List.mapM_cons, hslice, hmap]
        rfl
      · rw [startsFrom_succ_of_lt count hlt, List.length_cons, hstarts, List.length_cons]
      · rw [List.length_cons, hlength]

end Backed

namespace SliceFrom

variable {slice : FrameSlice}

theorem lt_next (h : range.SliceFrom memory a slice) : a < range.nextStart a :=
  (le_nextStart h.lt h.last).1

theorem next_le (h : range.SliceFrom memory a slice) : range.nextStart a ≤ range.stop :=
  (le_nextStart h.lt h.last).2

-- A slice that does not end with the range ends with its page.
theorem next_cases (h : range.SliceFrom memory a slice) : range.nextStart a = range.stop ∨
    (range.nextStart a).toNat = (a.toNat / 4096 + 1) * 4096 := by
  have hnext := toNat_nextStart h.lt h.last
  rw [← UInt64.toNat_inj]
  omega

theorem next_aligned (h : range.SliceFrom memory a slice) :
    range.nextStart a = range.stop ∨ (range.nextStart a).toNat % 4096 = 0 :=
  h.next_cases.imp_right fun hend => by rw [hend, Nat.mul_mod_left]

theorem start_le_next (h : range.SliceFrom memory a slice) (hstart : range.start ≤ a) :
    range.start ≤ range.nextStart a := UInt64.le_trans hstart (UInt64.le_of_lt h.lt_next)

end SliceFrom

namespace SliceLoop

variable {slices : List FrameSlice}

theorem eq_nil_of_stop (hloop : range.SliceLoop memory range.stop slices) : slices = [] := by
  generalize hstop : range.stop = a at hloop
  cases hloop with
  | done => rfl
  | next hne => exact (hne hstop.symm).elim

theorem inside (hloop : range.SliceLoop memory a slices) (h : range.Backed memory)
    (hstart : range.start ≤ a) : ∀ slice ∈ slices, slice.Inside memory := by
  induction hloop with
  | done => exact fun slice hmem => (List.not_mem_nil hmem).elim
  | @next a slice slices _ hslice _ ih =>
      have hfrom := h.sliceFrom hstart hslice
      exact List.forall_mem_cons.mpr ⟨hfrom.inside, ih (hfrom.start_le_next hstart)⟩

theorem sum_size (hloop : range.SliceLoop memory a slices) (h : range.Backed memory)
    (hstart : range.start ≤ a) :
    (slices.map FrameSlice.size).sum = range.stop.toNat - a.toNat := by
  induction hloop with
  | done => rw [Nat.sub_self, List.map_nil, List.sum_nil]
  | @next a slice slices _ hslice _ ih =>
      have hfrom := h.sliceFrom hstart hslice
      have hnext := hfrom.next
      have hle := UInt64.le_iff_toNat_le.mp hfrom.next_le
      rw [List.map_cons, List.sum_cons, ih (hfrom.start_le_next hstart)]
      omega

-- Each byte is where a lookup of its own address finds it.
theorem locates (hloop : range.SliceLoop memory a slices) (h : range.Backed memory)
    (hstart : range.start ≤ a) : ∀ i < range.stop.toNat - a.toNat,
      range.table.translateAddr? (.ofNat (a.toNat + i)) memory =
        .ok (slices.flatMap FrameSlice.addresses)[i]? := by
  induction hloop with
  | done =>
      intro i hi
      omega
  | @next a slice slices _ hslice _ ih =>
      intro i hi
      have hfrom := h.sliceFrom hstart hslice
      have hnext := hfrom.next
      rw [List.flatMap_cons]
      by_cases hin : i < slice.size
      · rw [hfrom.locates i hin, List.getElem?_append_left (by rwa [slice.length_addresses]),
          FrameSlice.addresses, List.getElem?_map, List.getElem?_range hin, Option.map_some]
      · have hrest := ih (hfrom.start_le_next hstart) (i - slice.size) (by omega)
        rw [List.getElem?_append_right (by rw [slice.length_addresses]; omega),
          slice.length_addresses, ← hrest,
          show (range.nextStart a).toNat + (i - slice.size) = a.toNat + i by omega]

-- All slices after the first start with a page, and all before the last end with one.

theorem offset_eq_zero (hloop : range.SliceLoop memory a slices) (h : range.Backed memory)
    (hstart : range.start ≤ a) (haligned : a = range.stop ∨ a.toNat % 4096 = 0) :
    ∀ slice ∈ slices, slice.start.offset = 0 := by
  induction hloop with
  | done => exact fun slice hmem => (List.not_mem_nil hmem).elim
  | @next a slice slices hne hslice _ ih =>
      have hfrom := h.sliceFrom hstart hslice
      refine List.forall_mem_cons.mpr ⟨?_, ih (hfrom.start_le_next hstart) hfrom.next_aligned⟩
      exact hfrom.offset.trans (haligned.resolve_left hne)

theorem offset_tail (hloop : range.SliceLoop memory a slices) (h : range.Backed memory)
    (hstart : range.start ≤ a) : ∀ slice ∈ slices.tail, slice.start.offset = 0 := by
  cases hloop with
  | done => exact fun slice hmem => (List.not_mem_nil hmem).elim
  | next _ hslice hrest =>
      have hfrom := h.sliceFrom hstart hslice
      exact hrest.offset_eq_zero h (hfrom.start_le_next hstart) hfrom.next_aligned

theorem end_dropLast (hloop : range.SliceLoop memory a slices) (h : range.Backed memory)
    (hstart : range.start ≤ a) :
    ∀ slice ∈ slices.dropLast, slice.start.offset + slice.size = 4096 := by
  induction hloop with
  | done => exact fun slice hmem => (List.not_mem_nil hmem).elim
  | @next a slice slices _ hslice hrest ih =>
      have hfrom := h.sliceFrom hstart hslice
      have hnext := hfrom.next
      rcases hfrom.next_cases with hlast | hend
      · rw [hlast] at hrest
        simp [hrest.eq_nil_of_stop]
      · by_cases hnil : slices = []
        · simp [hnil]
        · rw [List.dropLast_cons_of_ne_nil hnil, List.forall_mem_cons, hfrom.offset]
          exact ⟨by omega, ih (hfrom.start_le_next hstart)⟩

theorem contents_eq (hloop : range.SliceLoop memory a slices) (h : range.Backed memory)
    (hstart : range.start ≤ a) :
    slices.flatMap (·.contents memory) = (slices.flatMap FrameSlice.addresses).map memory.byte := by
  rw [List.map_flatMap]
  exact List.flatMap_congr fun slice hmem => (hloop.inside h hstart slice hmem).contents_eq

theorem length_addresses (hloop : range.SliceLoop memory a slices) (h : range.Backed memory)
    (hstart : range.start ≤ a) :
    (slices.flatMap FrameSlice.addresses).length = range.stop.toNat - a.toNat := by
  rw [List.length_flatMap, ← hloop.sum_size h hstart]
  simp only [FrameSlice.length_addresses]

end SliceLoop

theorem toNat_stop (h : start ≤ start + length) :
    (start + length).toNat = start.toNat + length.toNat := by
  have hstart := start.toNat_lt
  have hlength := length.toNat_lt
  rw [UInt64.le_iff_toNat_le, UInt64.toNat_add] at h
  rw [UInt64.toNat_add]
  omega

theorem pageCount_stop (h : start ≤ start + length) : pageCount start (start + length) =
    if length = 0 then 0
    else (start.toNat + length.toNat - 1) / 4096 - start.toNat / 4096 + 1 := by
  have hstop := toNat_stop h
  by_cases hzero : length = 0
  · subst hzero
    rw [if_pos rfl, UInt64.add_zero, pageCount_of_le (UInt64.lt_irrefl _)]
  · have hpos : 0 < length.toNat := Nat.pos_of_ne_zero fun heq => hzero (UInt64.toNat_inj.mp heq)
    rw [if_neg hzero, pageCount_of_lt (by rw [UInt64.lt_iff_toNat_lt]; omega), hstop]

-- The slices of a range are its bytes, looked up one by one. Nothing fails on the way from the start
-- of a range that was made to its end. There is a slice for each page, and only the first and the last
-- may have less than a whole page.
theorem slices_cover {token : UInt64}
    (hmade : ofMapped (.ofToken token) start length memory = .ok range)
    (hwindow : ∀ a entry, start ≤ a → a < start + length →
      (PageTable.ofToken token).translate? (pageOf a) memory = .ok (some entry) →
      entry.page.number < memory.frames) :
    range.size = length ∧ ∃ slices, range.slices memory = .ok slices ∧
      range.SliceLoop memory range.start slices ∧ range.CountLoop range.start slices.length ∧
      range.starts.length = slices.length ∧
      slices.length = (if length = 0 then 0
        else (start.toNat + length.toNat - 1) / 4096 - start.toNat / 4096 + 1) ∧
      (∀ slice ∈ slices, slice.Inside memory) ∧
      (∀ slice ∈ slices.tail, slice.start.offset = 0) ∧
      (∀ slice ∈ slices.dropLast, slice.start.offset + slice.size = 4096) ∧
      (slices.map FrameSlice.size).sum = length.toNat ∧
      ∀ i < length.toNat, ∃ a,
        (PageTable.ofToken token).translateAddr? (.ofNat (start.toNat + i)) memory = .ok (some a) ∧
        (slices.flatMap FrameSlice.addresses)[i]? = some a ∧
        (slices.flatMap (·.contents memory))[i]? = some (memory.byte a) := by
  have hbacked := backed_of_ofMapped hmade hwindow
  obtain ⟨rfl, horder, -⟩ := ofMapped_eq_ok hmade
  have hstop := toNat_stop horder
  have hrefl := UInt64.le_refl start
  obtain ⟨slices, hmap, hloop, hcounts, hstarts, hlength⟩ := hbacked.exists_loop hrefl horder
  have htotal : (start + length).toNat - start.toNat = length.toNat := by omega
  refine ⟨?_, slices, hmap, hloop, hcounts, hstarts, hlength.trans (pageCount_stop horder),
    hloop.inside hbacked hrefl, hloop.offset_tail hbacked hrefl, hloop.end_dropLast hbacked hrefl,
    (hloop.sum_size hbacked hrefl).trans htotal, fun i hi => ?_⟩
  · apply UInt64.toNat_inj.mp
    rw [size, UInt64.toNat_sub_of_le _ _ horder]
    exact htotal
  · have hlength := (hloop.length_addresses hbacked hrefl).trans htotal
    have hget := List.getElem?_eq_getElem (hlength.symm ▸ hi)
    have hlocates := hloop.locates hbacked hrefl i (htotal.symm ▸ hi)
    refine ⟨_, hlocates.trans (congrArg Except.ok hget), hget, ?_⟩
    rw [hloop.contents_eq hbacked hrefl, List.getElem?_map, hget, Option.map_some]

-- Contents of memory are compared here and never computed.
attribute [local irreducible] Memory.entry Memory.setEntry

-- A memory in which a table of three nodes maps two pages in a row, to frames in the opposite order.
def twoPages : Memory :=
  ((((Memory.filled 16 0xcd).setEntry ⟨.ofNat 1, (VirtPage.ofNat 5).indexAt 2⟩ (.node (.ofNat 2))
    ).setEntry ⟨.ofNat 2, (VirtPage.ofNat 5).indexAt 1⟩ (.node (.ofNat 3))
    ).setEntry ⟨.ofNat 3, (VirtPage.ofNat 5).indexAt 0⟩ (.leaf (.ofNat 9) ⟨2⟩)
    ).setEntry ⟨.ofNat 3, (VirtPage.ofNat 6).indexAt 0⟩ (.leaf (.ofNat 8) ⟨2⟩)

theorem frames_twoPages : twoPages.frames = 16 := by
  simp only [twoPages, Memory.frames_setEntry]
  rfl

theorem lookup_twoPages {n frame : Nat} (h : n = 5 ∧ frame = 9 ∨ n = 6 ∧ frame = 8) :
    (PageTable.ofToken 1).translate? (.ofNat n) twoPages =
        .ok (some (.leaf (.ofNat frame) ⟨2⟩)) ∧
      (PageTable.ofToken 1).walk (.ofNat n) twoPages = [.ofNat 1, .ofNat 2, .ofNat 3] := by
  have htop : twoPages.entry ⟨.ofNat 1, (VirtPage.ofNat n).indexAt 2⟩ = .node (.ofNat 2) := by
    rcases h with ⟨rfl, rfl⟩ | ⟨rfl, rfl⟩ <;>
    · rw [twoPages, Memory.entry_setEntry_other (by decide), Memory.entry_setEntry_other (by decide),
        Memory.entry_setEntry_other (by decide)]
      exact Memory.entry_setEntry_same _ (by decide)
  have hmid : twoPages.entry ⟨.ofNat 2, (VirtPage.ofNat n).indexAt 1⟩ = .node (.ofNat 3) := by
    rcases h with ⟨rfl, rfl⟩ | ⟨rfl, rfl⟩ <;>
    · rw [twoPages, Memory.entry_setEntry_other (by decide), Memory.entry_setEntry_other (by decide)]
      exact Memory.entry_setEntry_same _ (by simp only [Memory.frames_setEntry]; decide)
  have hlow : twoPages.entry ⟨.ofNat 3, (VirtPage.ofNat n).indexAt 0⟩ =
      .leaf (.ofNat frame) ⟨2⟩ := by
    rcases h with ⟨rfl, rfl⟩ | ⟨rfl, rfl⟩
    · rw [twoPages, Memory.entry_setEntry_other (by decide)]
      exact Memory.entry_setEntry_same _ (by simp only [Memory.frames_setEntry]; decide)
    · exact Memory.entry_setEntry_same _ (by simp only [Memory.frames_setEntry]; decide)
  refine PageTable.translate?_of_entries htop hmid hlow (Entry.isValid_leaf _ _) ?_
  rw [frames_twoPages]
  decide

theorem page_twoPages (hstart : 0x5ff0 ≤ a) (hstop : a < 0x5ff0 + 0x20) :
    ∃ n frame, a.toNat / 4096 = n ∧ (n = 5 ∧ frame = 9 ∨ n = 6 ∧ frame = 8) := by
  rw [UInt64.le_iff_toNat_le, show (0x5ff0 : UInt64).toNat = 0x5ff0 from rfl] at hstart
  rw [UInt64.lt_iff_toNat_lt, show (0x5ff0 + 0x20 : UInt64).toNat = 0x6010 from rfl] at hstop
  obtain hpage | hpage : a.toNat / 4096 = 5 ∨ a.toNat / 4096 = 6 := by omega
  · exact ⟨5, 9, hpage, Or.inl ⟨rfl, rfl⟩⟩
  · exact ⟨6, 8, hpage, Or.inr ⟨rfl, rfl⟩⟩

theorem ofMapped_twoPages : ofMapped (.ofToken 1) 0x5ff0 0x20 twoPages =
    .ok ⟨.ofToken 1, 0x5ff0, 0x5ff0 + 0x20⟩ := by
  refine ofMapped_of_maps (by decide) (by decide) fun a hstart hstop => ?_
  obtain ⟨n, frame, hpage, hcase⟩ := page_twoPages hstart hstop
  exact ⟨_, pageOf_eq a ▸ hpage ▸ (lookup_twoPages hcase).1⟩

theorem window_twoPages (a : UInt64) (entry : Entry) (hstart : 0x5ff0 ≤ a)
    (hstop : a < 0x5ff0 + 0x20)
    (hentry : (PageTable.ofToken 1).translate? (pageOf a) twoPages = .ok (some entry)) :
    entry.page.number < twoPages.frames := by
  obtain ⟨n, frame, hpage, hcase⟩ := page_twoPages hstart hstop
  rw [pageOf_eq, hpage, (lookup_twoPages hcase).1] at hentry
  cases hentry
  rw [frames_twoPages, Entry.page_leaf]
  rcases hcase with ⟨-, rfl⟩ | ⟨-, rfl⟩ <;> decide

-- A range over the end of the first page and the start of the second.
theorem slices_cover_twoPages : ∃ range slices,
    ofMapped (.ofToken 1) 0x5ff0 0x20 twoPages = .ok range ∧ range.slices twoPages = .ok slices ∧
    slices.length = 2 ∧ range.SliceLoop twoPages range.start slices ∧
    (∀ slice ∈ slices, slice.Inside twoPages) ∧ (slices.map FrameSlice.size).sum = 0x20 ∧
    ∃ a, (PageTable.ofToken 1).translateAddr? (.ofNat 0x6000) twoPages = .ok (some a) ∧
      (slices.flatMap FrameSlice.addresses)[0x10]? = some a := by
  obtain ⟨-, slices, hslices, hloop, -, -, hlength, hinside, -, -, hsum, hbytes⟩ :=
    slices_cover ofMapped_twoPages window_twoPages
  obtain ⟨a, ha, hget, -⟩ := hbytes 0x10 (by decide)
  rw [show (0x5ff0 : UInt64).toNat + 0x10 = 0x6000 from rfl] at ha
  exact ⟨_, slices, ofMapped_twoPages, hslices, hlength.trans (by decide), hloop, hinside, hsum, a,
    ha, hget⟩

end UserRange

end PagedMemory
