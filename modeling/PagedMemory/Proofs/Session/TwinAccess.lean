import PagedMemory.Proofs.Session.Twins

namespace PagedMemory.Session

open Machine (Stored)

variable {session twin : Session} {low high slot : Nat} {loose free : List PhysPage}
  {table : PageTable} {range : UserRange} {memory memory' : Memory} {page : VirtPage}

-- Contents of memory are compared here and never computed.
attribute [local irreducible] Memory.entry Memory.frame

theorem viewRange_eq (h : range.table.SameTranslations memory memory') :
    viewRange range memory' = viewRange range memory := by
  simp only [viewRange, h.slices_eq]

namespace Twins

-- Lookups through tables that are live.

theorem mirrors_translate (h : Twins low high loose free session twin)
    (hlive : ∀ table, session.tables.get? slot = some table → session.Live table.root) :
    Mirrors low high (.table slot (.translate page)) session twin := by
  refine (h.mirrored_table slot).bind ?_
  rintro table _ _ hget - ⟨rfl, rfl⟩
  have hsame := h.sameTranslations (hlive table (run_required_eq_ok hget).1)
  refine (h.mirrored_inspect (hsame.pages page)).bind ?_
  rintro entry? _ _ - - ⟨rfl, rfl⟩
  cases entry? with
  | some entry => exact .of_ok rfl rfl h.alike
  | none => exact .of_ok rfl rfl h.alike

theorem mirrors_translateAddr {address : VirtAddr} (h : Twins low high loose free session twin)
    (hlive : ∀ table, session.tables.get? slot = some table → session.Live table.root) :
    Mirrors low high (.table slot (.translateAddr address)) session twin := by
  refine (h.mirrored_table slot).bind ?_
  rintro table _ _ hget - ⟨rfl, rfl⟩
  have hsame := h.sameTranslations (hlive table (run_required_eq_ok hget).1)
  refine (h.mirrored_inspect (hsame.translateAddr?_eq address)).bind ?_
  rintro address? _ _ - - ⟨rfl, rfl⟩
  cases address? with
  | some address => exact .of_ok rfl rfl h.alike
  | none => exact .of_ok rfl rfl h.alike

-- The word that is found is in a node, and is shown.
theorem mirrors_find (h : Twins low high loose free session twin)
    (hlive : ∀ table, session.tables.get? slot = some table → session.Live table.root) :
    Mirrors low high (.table slot (.find page)) session twin := by
  refine (h.mirrored_table slot).bind ?_
  rintro table _ _ hget - ⟨rfl, rfl⟩
  have hwalks := h.accounts.walksIn (hlive table (run_required_eq_ok hget).1)
  have hfind : table.find? page twin.kernel.machine.memory =
      table.find? page session.kernel.machine.memory :=
    PageTable.findFrom_congr h.machines.memory.frames fun node hmem =>
      h.machines.memory.same node (hwalks page node hmem).1
  refine (h.mirrored_inspect hfind).bind ?_
  rintro found? _ _ hrun - ⟨rfl, rfl⟩
  have hfound := run_onMachine_inspect_eq_ok hrun
  cases found? with
  | none => exact .of_ok rfl rfl h.alike
  | some found =>
      have hmem := PageTable.findFrom_node_mem hfound
      have hentry : twin.kernel.machine.memory.entry found =
          session.kernel.machine.memory.entry found :=
        h.machines.memory.entry_eq (hwalks page found.node hmem).1
      refine (h.mirrored_inspect ?_).bind ?_
      · exact congrArg Except.ok hentry
      · rintro entry _ _ - - ⟨rfl, rfl⟩
        exact .of_ok rfl rfl h.alike

-- Commands to address spaces.
theorem mirrors_space {space : SpaceName} {command : SpaceCommand}
    (h : Twins low high loose free session twin)
    (hproper : session.Proper (.space space command)) :
    Mirrors low high (.space space command) session twin := by
  refine (h.mirrored_tokenNamed space).bind ?_
  rintro token _ _ hrun - ⟨rfl, rfl⟩
  obtain ⟨hlive, hbacks⟩ := hproper token _ hrun
  have hsame := h.sameTranslations hlive
  have hwalks := h.accounts.walksIn hlive
  have hsettled : (PageTable.ofToken token).WalksIn (Settled low high free)
      session.kernel.machine.memory := fun page node hmem => (hwalks page node hmem).1
  cases command with
  | describeRange start length =>
      refine (h.mirrored_still ?_).mono fun _ after after' _ _ hafter => ?_
      · refine (Machine.mirrored_consult h.machines.log (hsame.ofMapped_eq start length)).bind ?_
        rintro range _ _ hmade - ⟨rfl, rfl⟩
        obtain ⟨hmade, -⟩ := Machine.run_consult_eq_ok hmade
        obtain ⟨rfl, -⟩ := UserRange.ofMapped_eq_ok hmade
        refine (Machine.mirrored_inspect h.machines.log (viewRange_eq hsame)).bind ?_
        rintro view _ _ - - ⟨rfl, rfl⟩
        exact .of_ok rfl rfl ⟨rfl, rfl⟩
      · obtain ⟨rfl, rfl⟩ := hafter
        exact h.alike
  | keepRange slot start length =>
      refine (h.mirrored_still
        (Machine.mirrored_consult h.machines.log (hsame.ofMapped_eq start length))).bind ?_
      rintro range _ _ - - ⟨rfl, rfl⟩
      refine .of_ok rfl rfl ⟨loose, free, ?_⟩
      exact { h with
        accounts := h.accounts.change rfl h.accounts.offers (fun _ _ => rfl) h.accounts.frameSlots
          (List.Perm.refl _)
        ranges := congrArg (·.set slot range) h.ranges }
  | copyTo start bytes =>
      refine (h.mirrored_stored (PageTable.mirrored_copyToUser h.machines hwalks hbacks)).bind ?_
      exact fun _ after after' _ _ hafter => .of_ok rfl rfl hafter.alike
  | copyFrom start length =>
      refine (h.mirrored_stored (PageTable.mirrored_copyFromUser h.machines hsettled ?_)).bind ?_
      · exact fun range hmade => (hbacks range hmade).mono fun _ => h.accounts.settled_of_held
      · exact fun _ after after' _ _ hafter => .of_ok rfl rfl hafter.alike
  | locate a size =>
      refine (h.mirrored_inspect (hsame.locateObject_eq a size)).bind ?_
      rintro place _ _ - - ⟨rfl, rfl⟩
      exact .of_ok rfl rfl h.alike
  | write a object =>
      refine (h.mirrored_stored (PageTable.mirrored_writeObject h.machines hsettled hbacks)).bind ?_
      exact fun _ after after' _ _ hafter => .of_ok rfl rfl hafter.alike
  | read a kind =>
      refine (h.mirrored_stored (PageTable.mirrored_readObject h.machines hsettled ?_)).bind ?_
      · exact fun place hlocate hreach => (hbacks place hlocate hreach).mono fun _ =>
          h.accounts.settled_of_held
      · intro bytes after after' _ _ hafter
        cases kind with
        | number width => exact .of_ok rfl rfl hafter.alike
        | status => exact .of_ok rfl rfl hafter.alike
        | block size => exact .of_ok rfl rfl hafter.alike

-- Commands to ranges that were kept.
theorem mirrors_range {command : RangeCommand} (h : Twins low high loose free session twin)
    (hproper : session.Proper (.range slot command)) :
    Mirrors low high (.range slot command) session twin := by
  refine (h.mirrored_range slot).bind ?_
  rintro range _ _ hrun - ⟨rfl, rfl⟩
  obtain ⟨hlive, hbacks⟩ := hproper range (run_required_eq_ok hrun).1
  have hsame := h.sameTranslations hlive
  have hwalks := h.accounts.walksIn hlive
  cases command with
  | describe =>
      refine (h.mirrored_inspect (viewRange_eq hsame)).bind ?_
      rintro view _ _ - - ⟨rfl, rfl⟩
      exact .of_ok rfl rfl h.alike
  | sliceAtEnd =>
      refine (h.mirrored_inspect (hsame.sliceAt_eq _)).bind ?_
      rintro slice _ _ - - ⟨rfl, rfl⟩
      exact .of_ok rfl rfl h.alike
  | sliceAfter count =>
      simp only
      split
      · exact .of_ok rfl rfl h.alike
      · refine (h.mirrored_inspect (hsame.sliceAt_eq _)).bind ?_
        rintro slice _ _ - - ⟨rfl, rfl⟩
        exact .of_ok rfl rfl h.alike
  | copyOut bytes =>
      refine (h.mirrored_stored
        (UserRange.mirrored_copyInto h.machines hwalks hbacks bytes)).bind ?_
      exact fun _ after after' _ _ hafter => .of_ok rfl rfl hafter.alike
  | copyIn count =>
      refine (h.mirrored_inspect (UserRange.copyFrom_alike h.machines.memory
        (fun page node hmem => (hwalks page node hmem).1)
        (hbacks.mono fun _ => h.accounts.settled_of_held))).bind ?_
      rintro bytes _ _ - - ⟨rfl, rfl⟩
      exact .of_ok rfl rfl h.alike

end Twins

end PagedMemory.Session
