namespace PagedMemory.Bytes

-- Bytes outside the array read as zero.
def byteAt (bytes : ByteArray) (i : Nat) : UInt8 :=
  if h : i < bytes.size then bytes[i] else 0

-- Writes outside the array are dropped.
def setByte (bytes : ByteArray) (i : Nat) (v : UInt8) : ByteArray :=
  if h : i < bytes.size then bytes.set i v h else bytes

def read (bytes : ByteArray) (start : Nat) : Nat → List UInt8
  | 0 => []
  | count + 1 => byteAt bytes start :: read bytes (start + 1) count

def write (bytes : ByteArray) (start : Nat) : List UInt8 → ByteArray
  | [] => bytes
  | v :: rest => write (setByte bytes start v) (start + 1) rest

@[simp]
theorem size_setByte (bytes : ByteArray) (i : Nat) (v : UInt8) :
    (setByte bytes i v).size = bytes.size := by
  simp only [setByte]
  split
  · exact Array.size_set _
  · rfl

theorem byteAt_setByte (bytes : ByteArray) (i j : Nat) (v : UInt8) :
    byteAt (setByte bytes i v) j = if i = j ∧ i < bytes.size then v else byteAt bytes j := by
  by_cases hi : i < bytes.size
  · have hs : (bytes.set i v hi).size = bytes.size := Array.size_set hi
    simp only [setByte, byteAt, hi, dif_pos, and_true]
    by_cases hj : j < bytes.size
    · rw [dif_pos (by rw [hs]; exact hj), dif_pos hj]
      exact Array.getElem_set hi (by rw [Array.size_set]; exact hj)
    · rw [dif_neg (by rw [hs]; exact hj), dif_neg hj, if_neg (by omega)]
  · simp [setByte, hi]

@[simp]
theorem size_write (bytes : ByteArray) (start : Nat) (values : List UInt8) :
    (write bytes start values).size = bytes.size := by
  induction values generalizing bytes start with
  | nil => rfl
  | cons v rest ih => simp [write, ih]

-- A write leaves every byte outside its range alone.
theorem byteAt_write_outside (bytes : ByteArray) (start j : Nat) (values : List UInt8)
    (h : j < start ∨ start + values.length ≤ j) :
    byteAt (write bytes start values) j = byteAt bytes j := by
  induction values generalizing bytes start with
  | nil => rfl
  | cons v rest ih =>
      simp only [List.length_cons] at h
      rw [write, ih _ _ (by omega), byteAt_setByte, if_neg (by omega)]

-- Inside its range a write stores its values in order.
theorem byteAt_write_inside (bytes : ByteArray) (start j : Nat) (values : List UInt8)
    (hfit : start + values.length ≤ bytes.size) (hj : j < values.length) :
    byteAt (write bytes start values) (start + j) = values[j] := by
  induction values generalizing bytes start j with
  | nil => simp at hj
  | cons v rest ih =>
      simp only [List.length_cons] at hfit hj
      cases j with
      | zero =>
          rw [write, byteAt_write_outside _ _ _ _ (by omega), byteAt_setByte,
            if_pos (by omega)]
          rfl
      | succ k =>
          have := ih (setByte bytes start v) (start + 1) k (by rw [size_setByte]; omega) (by omega)
          rw [write, show start + (k + 1) = start + 1 + k by omega, this]
          rfl

@[simp]
theorem length_read (bytes : ByteArray) (start count : Nat) :
    (read bytes start count).length = count := by
  induction count generalizing start with
  | zero => rfl
  | succ n ih => simp [read, ih]

theorem getElem?_read (bytes : ByteArray) (start count j : Nat) (hj : j < count) :
    (read bytes start count)[j]? = some (byteAt bytes (start + j)) := by
  induction count generalizing start j with
  | zero => omega
  | succ n ih =>
      cases j with
      | zero => rfl
      | succ k =>
          rw [read, List.getElem?_cons_succ, ih (start + 1) k (by omega),
            show start + 1 + k = start + (k + 1) by omega]

-- What was written is read back.
theorem read_write (bytes : ByteArray) (start : Nat) (values : List UInt8)
    (hfit : start + values.length ≤ bytes.size) :
    read (write bytes start values) start values.length = values := by
  apply List.ext_getElem?
  intro j
  by_cases hj : j < values.length
  · rw [getElem?_read _ _ _ _ hj, byteAt_write_inside _ _ _ _ hfit hj, List.getElem?_eq_getElem hj]
  · rw [List.getElem?_eq_none (by simpa using hj), List.getElem?_eq_none (by simpa using hj)]

-- A write elsewhere does not change what is read.
theorem read_write_outside (bytes : ByteArray) (start place count : Nat) (values : List UInt8)
    (h : place + count ≤ start ∨ start + values.length ≤ place) :
    read (write bytes start values) place count = read bytes place count := by
  apply List.ext_getElem?
  intro j
  by_cases hj : j < count
  · rw [getElem?_read _ _ _ _ hj, getElem?_read _ _ _ _ hj, byteAt_write_outside _ _ _ _ (by omega)]
  · rw [List.getElem?_eq_none (by simpa using hj), List.getElem?_eq_none (by simpa using hj)]

-- The number that bytes spell, the least significant first.
def number : List UInt8 → Nat
  | [] => 0
  | v :: rest => v.toNat + 256 * number rest

-- The low bytes of a number, the least significant first.
def ofNumber : Nat → Nat → List UInt8
  | 0, _ => []
  | count + 1, n => UInt8.ofNat n :: ofNumber count (n / 256)

@[simp]
theorem length_ofNumber (count n : Nat) : (ofNumber count n).length = count := by
  induction count generalizing n with
  | zero => rfl
  | succ k ih => simp [ofNumber, ih]

-- Eight bytes hold every number below 2 ^ 64.
theorem number_ofNumber_eight (n : Nat) : number (ofNumber 8 n) = n % 0x10000000000000000 := by
  simp only [ofNumber, number, UInt8.toNat_ofNat']
  omega

end PagedMemory.Bytes
