import PagedMemory.Proofs.User.Copies

namespace PagedMemory.UserRange

variable {table : PageTable} {memory : Memory} {a b : UInt64} {n : Nat} {entry : Entry}
  {cause : Fault}

-- Bytes that do not leave the page they start on, which is not the last one.
structure OnePage (a : UInt64) (n : Nat) : Prop where
  pos : 0 < n
  fits : a.toNat % 4096 + n ≤ 4096
  low : a.toNat < 0xfffffffffffff000

namespace OnePage

-- The range of these bytes.

theorem toNat_length (h : OnePage a n) : (UInt64.ofNat n).toNat = n := by
  have hfits := h.fits
  exact UInt64.toNat_ofNat_of_lt' (by rw [UInt64.size]; omega)

theorem toNat_stop (h : OnePage a n) : (a + UInt64.ofNat n).toNat = a.toNat + n := by
  have hfits := h.fits
  have hlow := h.low
  rw [UInt64.toNat_add, h.toNat_length]
  omega

theorem lt (h : OnePage a n) : a < a + UInt64.ofNat n := by
  have hpos := h.pos
  rw [UInt64.lt_iff_toNat_lt, h.toNat_stop]
  omega

theorem last (h : OnePage a n) : a + UInt64.ofNat n ≤ lastPage := by
  have hfits := h.fits
  have hlow := h.low
  rw [UInt64.le_iff_toNat_le, h.toNat_stop, show lastPage.toNat = 0xfffffffffffff000 from rfl]
  omega

theorem pageOf_eq (h : OnePage a n) (hstart : a ≤ b) (hstop : b < a + UInt64.ofNat n) :
    pageOf b = pageOf a := by
  have hfits := h.fits
  rw [UInt64.le_iff_toNat_le] at hstart
  rw [UInt64.lt_iff_toNat_lt, h.toNat_stop] at hstop
  rw [UserRange.pageOf_eq, UserRange.pageOf_eq, show b.toNat / 4096 = a.toNat / 4096 by omega]

theorem pageCount_eq (h : OnePage a n) : pageCount a (a + UInt64.ofNat n) = 1 := by
  have hpos := h.pos
  have hfits := h.fits
  rw [pageCount_of_lt h.lt, h.toNat_stop]
  omega

-- One lookup decides whether it is made.

theorem ofMapped_eq (h : OnePage a n) : ofMapped table a (UInt64.ofNat n) memory =
    settled ⟨table, a, a + UInt64.ofNat n⟩ (checkMapped table memory 1 a) := by
  rw [ofMapped_of_inside (UInt64.lt_asymm h.lt) fun hpast => UInt64.not_le.mpr hpast.2 h.last,
    h.pageCount_eq]

theorem ofMapped_of_translate? (h : OnePage a n)
    (hentry : table.translate? (pageOf a) memory = .ok (some entry)) :
    ofMapped table a (UInt64.ofNat n) memory = .ok ⟨table, a, a + UInt64.ofNat n⟩ := by
  rw [h.ofMapped_eq, checkMapped_succ_of_maps hentry]
  rfl

theorem ofMapped_of_unmapped (h : OnePage a n)
    (hnone : table.translate? (pageOf a) memory = .ok none) :
    ofMapped table a (UInt64.ofNat n) memory = .error (.fault (.pageUnmapped a)) := by
  rw [h.ofMapped_eq, checkMapped_succ_of_unmapped hnone]
  rfl

theorem ofMapped_of_error (h : OnePage a n)
    (herror : table.translate? (pageOf a) memory = .error cause) :
    ofMapped table a (UInt64.ofNat n) memory = .error (.fault cause) := by
  rw [h.ofMapped_eq, checkMapped, herror]
  rfl

-- It has one slice, which is all of it.

theorem nextStart_eq (h : OnePage a n) :
    (⟨table, a, a + UInt64.ofNat n⟩ : UserRange).nextStart a = a + UInt64.ofNat n := by
  have hfits := h.fits
  apply UInt64.toNat_inj.mp
  rw [toNat_nextStart h.lt h.last, h.toNat_stop]
  omega

theorem starts_eq (h : OnePage a n) :
    (⟨table, a, a + UInt64.ofNat n⟩ : UserRange).starts = [a] := by
  rw [starts, h.pageCount_eq, startsFrom_succ_of_lt 0 h.lt]
  rfl

theorem sliceAt_eq (h : OnePage a n)
    (hentry : table.translate? (pageOf a) memory = .ok (some entry))
    (hwindow : entry.page.number < memory.frames) :
    (⟨table, a, a + UInt64.ofNat n⟩ : UserRange).sliceAt a memory =
      .ok ⟨entry.page.base + a.toNat % 4096, n⟩ := by
  have hbacked : (⟨table, a, a + UInt64.ofNat n⟩ : UserRange).Backed memory := by
    refine backed_of_ofMapped (h.ofMapped_of_translate? hentry) fun b other hstart hstop hother => ?_
    rw [h.pageOf_eq hstart hstop] at hother
    cases hentry.symm.trans hother
    exact hwindow
  obtain ⟨other, hother, -, hslice⟩ := hbacked.sliceAt_eq (UInt64.le_refl a) h.lt
  rw [← UserRange.pageOf_eq] at hother
  cases hentry.symm.trans hother
  rw [hslice, h.nextStart_eq, h.toNat_stop, Nat.add_sub_cancel_left]

-- Copies to it and from it are one write and one read.

theorem run_copyToUser {bytes : List UInt8} {log : List LogEntry} (h : OnePage a bytes.length)
    (hentry : table.translate? (pageOf a) memory = .ok (some entry))
    (hwindow : entry.page.number < memory.frames) :
    (table.copyToUser a bytes).run ⟨memory, log⟩ =
      .ok () ⟨memory.write (entry.page.base + a.toNat % 4096) bytes, log⟩ := by
  refine UserRange.run_copyToUser (h.ofMapped_of_translate? hentry) h.toNat_length.symm ?_
  rw [copyOut, h.starts_eq,
    run_copyInto_cons (h.sliceAt_eq hentry hwindow) (Nat.ne_of_gt h.pos), Nat.min_self,
    List.take_length]
  rfl

theorem run_copyFromUser {log : List LogEntry} (h : OnePage a n)
    (hentry : table.translate? (pageOf a) memory = .ok (some entry))
    (hwindow : entry.page.number < memory.frames) :
    (table.copyFromUser a (UInt64.ofNat n)).run ⟨memory, log⟩ =
      .ok (memory.read (entry.page.base + a.toNat % 4096) n) ⟨memory, log⟩ := by
  have hlength : (memory.read (entry.page.base + a.toNat % 4096) n).length = n :=
    Bytes.length_read _ _ _
  have hslices : [a].mapM ((⟨table, a, a + UInt64.ofNat n⟩ : UserRange).sliceAt · memory) =
      .ok [⟨entry.page.base + a.toNat % 4096, n⟩] := by
    rw [List.mapM_cons, h.sliceAt_eq hentry hwindow]
    rfl
  refine UserRange.run_copyFromUser log (h.ofMapped_of_translate? hentry) ?_
    (hlength.trans h.toNat_length.symm)
  rw [copyIn, h.starts_eq, copyFrom_eq hslices, h.toNat_length, List.flatMap_singleton,
    FrameSlice.contents, List.take_of_length_le (Nat.le_of_eq hlength)]

end OnePage

end PagedMemory.UserRange
