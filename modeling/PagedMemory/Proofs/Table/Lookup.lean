import PagedMemory.Proofs.Quiet
import PagedMemory.Proofs.Table.Nodes
import PagedMemory.Table.Build

namespace PagedMemory

-- The page of an address, and the place in it, when the address is given with more bits than it has.

theorem VirtAddr.page_ofNat (n : Nat) : (ofNat n).page = .ofNat (n % 0x8000000000 / 4096) := by
  simp only [page, ofNat, VirtPage.ofNat, pageSize_eq, VirtPage.mk.injEq]
  omega

theorem VirtAddr.page_ofNat_div (n : Nat) : (ofNat n).page = .ofNat (n / 4096) := by
  simp only [page_ofNat, VirtPage.ofNat, VirtPage.mk.injEq]
  omega

theorem VirtAddr.offset_ofNat (n : Nat) : (ofNat n).offset = n % 4096 := by
  simp only [offset, ofNat, pageSize_eq]
  omega

namespace PageTable

variable {memory : Memory} {table : PageTable} {height : Nat} {node : PhysPage} {page : VirtPage}
  {a : VirtAddr}

-- Contents of memory are compared here and never computed.
attribute [local irreducible] Memory.entry

-- A lookup fails where the window ends, and for no other reason.

section reasons

variable {bad : Fault → Prop}

theorem spares_findFrom_of (h : ∀ a, Spares bad (memory.reach a)) :
    Spares bad (findFrom memory page height node) := by
  induction height generalizing node with
  | zero => exact (h node.base).bind fun _ => .ok _
  | succ height ih =>
      refine (h node.base).bind fun _ => ?_
      simp only
      split
      · exact ih
      · exact .ok _

theorem spares_translate?_of (h : ∀ a, Spares bad (memory.reach a)) :
    Spares bad (table.translate? page memory) := by
  refine Spares.bind (spares_findFrom_of h) fun slot? => ?_
  cases slot? with
  | none => exact .ok _
  | some slot => exact .ok _

end reasons

theorem translate?_eq_error {cause : Fault} (h : table.translate? page memory = .error cause) :
    cause = .outsideWindow := by
  have hreach : ∀ a, Spares (· ≠ .outsideWindow) (memory.reach a) := fun a => by
    rw [Memory.reach]
    split
    · exact .ok _
    · exact .error (not_not_intro rfl)
  exact not_not.mp (spares_translate?_of hreach cause h)

theorem spares_findFrom : Spares Fault.OfPool (findFrom memory page height node) :=
  spares_findFrom_of memory.spares_reach

theorem spares_find? : Spares Fault.OfPool (table.find? page memory) := spares_findFrom

theorem spares_translate? : Spares Fault.OfPool (table.translate? page memory) :=
  spares_translate?_of memory.spares_reach

theorem spares_translateAddr? : Spares Fault.OfPool (table.translateAddr? a memory) :=
  spares_translate?.bind fun _ => .ok _

theorem quiet_unmap : Quiet (fun machine machine' => machine'.memory.frames = machine.memory.frames)
    (table.unmap page) := by
  have heq {machine machine' : Machine} (h : machine = machine') :
      machine'.memory.frames = machine.memory.frames := by rw [h]
  refine ((Machine.quiet_inspect fun _ => spares_find?).mono heq).bind
    (fun h h' => h'.trans h) fun slot? => ?_
  cases slot? with
  | none => exact Machine.quiet_fail id
  | some slot =>
      refine ((Machine.quiet_inspect fun _ => .ok _).mono heq).bind
        (fun h h' => h'.trans h) fun entry => ?_
      split
      · exact fun machine => Memory.frames_setEntry _ _ _
      · exact Machine.quiet_fail id

-- The address behind a virtual one, read off the tree.
theorem translateAddr?_eq
    (h : ∀ other ∈ nodesFrom memory rootHeight table.root, other.number < memory.frames) :
    table.translateAddr? a memory =
      .ok ((mappedFrom memory a.page rootHeight table.root).map fun entry =>
        entry.page.base + a.offset) := by
  rw [translateAddr?, translate?_eq h]
  rfl

-- It is in the frame its page is mapped to.
theorem translateAddr?_of_translate? {n : Nat} {entry : Entry}
    (h : table.translate? (.ofNat (n / 4096)) memory = .ok (some entry)) :
    table.translateAddr? (.ofNat n) memory = .ok (some (entry.page.base + n % 4096)) := by
  rw [translateAddr?, VirtAddr.page_ofNat_div, h, VirtAddr.offset_ofNat]
  rfl

-- A view made from the register value of a table starts at its root.
theorem root_ofToken_token (table : PageTable) : (ofToken table.token).root = table.root := by
  have hroot := table.root.isLt
  have hnumber : table.token.toNat % 0x100000000000 = table.root.number := by
    simp only [token, registerMode, registerModeShift, UInt64.toNat_or, UInt64.toNat_ofNat']
    rw [Nat.mod_eq_of_lt (by omega : table.root.number < 2 ^ 64)]
    have hhigh : ((8 : UInt64) <<< (60 : UInt64)).toNat = 2 ^ 44 * 2 ^ 19 := by decide
    have hadd := Nat.two_pow_add_eq_or_of_lt (i := 44) (b := table.root.number) (by omega) (2 ^ 19)
    rw [hhigh, ← hadd]
    omega
  exact PhysPage.ext_number hnumber

-- It translates as the table does.
theorem translate?_ofToken_token :
    (ofToken table.token).translate? page memory = table.translate? page memory := by
  rw [translate?, translate?, find?, find?, root_ofToken_token]

end PageTable

end PagedMemory
