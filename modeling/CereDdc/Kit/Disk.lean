import CereDdc.Kit.PosixPath

/-!
# Kit — Disk

A file system: what there is at each location. Directories are made together with
those above them, and a file is written into a directory that is there. What may
be made next to what others make is put as a plan that all of them keep to.
-/

namespace Kit

open PosixPath

inductive DiskEntry (α : Type*)
  | dir
  | file (content : α)
  deriving DecidableEq

def DiskEntry.isFile {α : Type*} : DiskEntry α → Bool
  | dir => false
  | file _ => true

/-- What there is at each location. -/
abbrev Disk (α : Type*) := Location → Option (DiskEntry α)

namespace Disk

variable {α : Type*} {disk disk' : Disk α} {location l : Location} {content : α}
  {entry : DiskEntry α}

/-- There is a file at the location or above it. -/
def Blocked (disk : Disk α) (location : Location) : Prop :=
  ∃ above content, above <+: location ∧ disk above = some (.file content)

/-- The directory and those above it are there. -/
def withDirs (disk : Disk α) (location : Location) : Disk α := fun l =>
  if l <+: location then some .dir else disk l

def withFile (disk : Disk α) (location : Location) (content : α) : Disk α := fun l =>
  if l = location then some (.file content) else disk l

/-- A file can be written: its directory is there, and it is not a directory itself. -/
def Writable (disk : Disk α) (location : Location) : Prop :=
  disk location.dropLast = some .dir ∧ location ≠ [] ∧ disk location ≠ some .dir

instance (disk : Disk α) (location : Location) : Decidable (disk.Blocked location) :=
  decidable_of_iff (∃ above ∈ location.inits, (disk above).any DiskEntry.isFile = true) <| by
    simp only [List.mem_inits, Option.any_eq_true, Blocked]
    constructor
    · intro ⟨above, hpre, entry, he, hfile⟩
      cases entry with
      | dir => cases hfile
      | file content => exact ⟨above, content, hpre, he⟩
    · exact fun ⟨above, content, hpre, he⟩ => ⟨above, hpre, .file content, he, rfl⟩

instance [DecidableEq α] (disk : Disk α) (location : Location) :
    Decidable (disk.Writable location) := inferInstanceAs (Decidable (_ ∧ _))

theorem withDirs_above (h : l <+: location) : disk.withDirs location l = some .dir := if_pos h

theorem withDirs_of_not (h : ¬ l <+: location) : disk.withDirs location l = disk l := if_neg h

@[simp] theorem withFile_self : disk.withFile location content location = some (.file content) :=
  if_pos rfl

theorem withFile_of_ne (h : l ≠ location) : disk.withFile location content l = disk l := if_neg h

/-! ## Keeping to a plan -/

/-- Nothing is lost or changed, and what is new is planned. -/
structure KeepsTo (plan : Location → DiskEntry α → Prop) (disk disk' : Disk α) : Prop where
  keeps : ∀ l entry, disk l = some entry → disk' l = some entry
  planned : ∀ l entry, disk' l = some entry → disk l = some entry ∨ plan l entry

variable {plan : Location → DiskEntry α → Prop}

theorem KeepsTo.refl (disk : Disk α) : KeepsTo plan disk disk := ⟨fun _ _ h => h, fun _ _ => .inl⟩

theorem KeepsTo.trans {disk'' : Disk α} (h : KeepsTo plan disk disk')
    (h' : KeepsTo plan disk' disk'') : KeepsTo plan disk disk'' where
  keeps := fun l entry he => h'.keeps l entry (h.keeps l entry he)
  planned := fun l entry he =>
    (h'.planned l entry he).elim (h.planned l entry) .inr

/-- Where nothing is planned, nothing changes. -/
theorem KeepsTo.eq_of_nothing (h : KeepsTo (fun _ _ => False) disk disk') : disk' = disk := by
  funext l
  cases he : disk l with
  | some entry => exact h.keeps l entry he
  | none =>
    cases he' : disk' l with
    | none => rfl
    | some entry =>
      have hold := (h.planned l entry he').resolve_right id
      rw [he] at hold
      cases hold

/-- Making directories keeps to a plan that has them. -/
theorem KeepsTo.withDirs (hblocked : ¬ disk.Blocked location)
    (hplan : ∀ l, l <+: location → plan l .dir) : KeepsTo plan disk (disk.withDirs location) where
  keeps := by
    intro l entry he
    by_cases hl : l <+: location
    · cases entry with
      | dir => exact withDirs_above hl
      | file content => exact absurd ⟨l, content, hl, he⟩ hblocked
    · rw [withDirs_of_not hl, he]
  planned := by
    intro l entry he
    by_cases hl : l <+: location
    · rw [withDirs_above hl] at he
      cases he
      exact .inr (hplan l hl)
    · rw [withDirs_of_not hl] at he
      exact .inl he

/-- Writing a file keeps to a plan that has it, where there is no other file. -/
theorem KeepsTo.withFile
    (hfree : ∀ entry, disk location = some entry → entry = .file content)
    (hplan : plan location (.file content)) :
    KeepsTo plan disk (disk.withFile location content) where
  keeps := by
    intro l entry he
    by_cases hl : l = location
    · subst hl
      rw [withFile_self, hfree entry he]
    · rw [withFile_of_ne hl, he]
  planned := by
    intro l entry he
    by_cases hl : l = location
    · subst hl
      rw [withFile_self] at he
      cases he
      exact .inr hplan
    · rw [withFile_of_ne hl] at he
      exact .inl he

/-! ## Files below a directory -/

/-- A file and where it is to go, from the directory down. -/
abbrev Target (α : Type*) := List Name × α

/-- The targets do not get into each other's way. -/
structure Targets (targets : List (Target α)) : Prop where
  ne_nil : ∀ target ∈ targets, target.1 ≠ []
  eq_of_prefix : ∀ target ∈ targets, ∀ other ∈ targets, target.1 <+: other.1 → target = other

/-- The directory is there or can be made, and there is nothing in it. -/
structure Free (disk : Disk α) (dest : Location) : Prop where
  not_blocked : ¬ disk.Blocked dest
  empty : ∀ names, names ≠ [] → disk (dest ++ names) = none

/-- The plan for the targets: the files, and the directories on the way to them. -/
def planFor (dest : Location) (targets : List (Target α)) (l : Location) : DiskEntry α → Prop
  | .dir => l <+: dest ∨ ∃ target ∈ targets, l <+: dest ++ target.1.dropLast
  | .file content => ∃ names, (names, content) ∈ targets ∧ l = dest ++ names

variable {dest : Location} {targets : List (Target α)} {target : Target α}

theorem not_prefix_dropLast {names : List Name} (hne : names ≠ []) :
    ¬ names <+: names.dropLast := by
  intro h
  have hle := h.length_le
  have hpos := List.length_pos_iff.mpr hne
  rw [List.length_dropLast] at hle
  omega

/-- What there is after steps of the plan was there before, or is planned. -/
theorem Free.planned (hfree : disk.Free dest) (hkeeps : KeepsTo (planFor dest targets) disk disk')
    {names : List Name} (hne : names ≠ []) (he : disk' (dest ++ names) = some entry) :
    planFor dest targets (dest ++ names) entry := by
  rcases hkeeps.planned _ _ he with hold | hplan
  · rw [hfree.empty names hne] at hold
    cases hold
  · exact hplan

/-- No planned file stands in the way of a target. -/
theorem Free.not_blocked_dropLast (hfree : disk.Free dest) (htargets : Targets targets)
    (hkeeps : KeepsTo (planFor dest targets) disk disk') (htarget : target ∈ targets) :
    ¬ disk'.Blocked (dest ++ target.1.dropLast) := by
  intro ⟨l, content, hl, he⟩
  rcases hkeeps.planned l _ he with hold | ⟨names, hmem, rfl⟩
  · rcases List.prefix_or_prefix_of_prefix hl (List.prefix_append dest _) with hl | ⟨names, rfl⟩
    · exact hfree.not_blocked ⟨l, content, hl, hold⟩
    · cases names with
      | nil =>
        rw [List.append_nil] at hold
        exact hfree.not_blocked ⟨dest, content, List.prefix_refl dest, hold⟩
      | cons name names =>
        rw [hfree.empty _ (List.cons_ne_nil name names)] at hold
        cases hold
  · have hpre := (List.prefix_append_right_inj dest).mp hl
    have heq := htargets.eq_of_prefix _ hmem target htarget
      (hpre.trans (List.dropLast_prefix target.1))
    subst heq
    exact not_prefix_dropLast (htargets.ne_nil _ htarget) hpre

/-- At a target there is nothing, or the file already. -/
theorem Free.entry_eq (hfree : disk.Free dest) (htargets : Targets targets)
    (hkeeps : KeepsTo (planFor dest targets) disk disk') (htarget : target ∈ targets)
    (he : disk' (dest ++ target.1) = some entry) : entry = .file target.2 := by
  have hne := htargets.ne_nil target htarget
  cases entry with
  | dir =>
    rcases hfree.planned hkeeps hne he with hpre | ⟨other, hother, hpre⟩
    · have hle := hpre.length_le
      have hpos := List.length_pos_iff.mpr hne
      rw [List.length_append] at hle
      omega
    · have hpre := (List.prefix_append_right_inj dest).mp hpre
      have heq := htargets.eq_of_prefix target htarget other hother
        (hpre.trans (List.dropLast_prefix other.1))
      subst heq
      exact absurd hpre (not_prefix_dropLast hne)
  | file content =>
    obtain ⟨names, hmem, heq⟩ := hfree.planned hkeeps hne he
    have hnames : target.1 = names := List.append_cancel_left heq
    have htarget' := htargets.eq_of_prefix target htarget _ hmem (by rw [hnames])
    rw [htarget']

end Disk

end Kit
