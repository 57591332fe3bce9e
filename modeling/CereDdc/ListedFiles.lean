import CereDdc.Cli
import CereDdc.Kit.Disk

/-!
# ListedFiles — the files of a directory

The walk of an upload against the tree it walks: one upload for each file that has
no hidden name on its way, and a link with the way to it as its name.
-/

namespace CereDdc

open Kit Program
open Kit.PosixPath

namespace Listing

/-- The regular files, each with the names that lead to it. -/
def files : Listing → List (Disk.Target Bytes)
  | nil => []
  | file name content rest => ([name], content) :: files rest
  | dir name entries rest =>
    (files entries).map (fun file => (name :: file.1, file.2)) ++ files rest

/-- The files with no hidden name on their way. -/
def visible (entries : Listing) : List (Disk.Target Bytes) :=
  entries.files.filter fun file => file.1.all fun name => !hidden name

/-- The names of the entries. -/
def names : Listing → List Name
  | nil => []
  | file name _ rest => name :: names rest
  | dir name _ rest => name :: names rest

/-- The name of a file or a directory. -/
def FileName (name : Name) : Prop := Proper name ∧ '/' ∉ name

instance (name : Name) : Decidable (FileName name) := inferInstanceAs (Decidable (_ ∧ _))

/-- The entries of every directory have different names. -/
def WellFormed : Listing → Prop
  | nil => True
  | file name _ rest => FileName name ∧ name ∉ names rest ∧ WellFormed rest
  | dir name entries rest =>
    FileName name ∧ name ∉ names rest ∧ WellFormed entries ∧ WellFormed rest

def decideWellFormed : (entries : Listing) → Decidable entries.WellFormed
  | nil => .isTrue trivial
  | file _ _ rest =>
    have := decideWellFormed rest
    inferInstanceAs (Decidable (_ ∧ _ ∧ _))
  | dir _ entries rest =>
    have := decideWellFormed entries
    have := decideWellFormed rest
    inferInstanceAs (Decidable (_ ∧ _ ∧ _ ∧ _))

instance (entries : Listing) : Decidable entries.WellFormed := decideWellFormed entries

variable {entries rest : Listing} {name : Name} {content : Bytes} {target other : Disk.Target Bytes}

/-! ## The visible files -/

theorem visible_file : (file name content rest).visible
    = if hidden name then rest.visible else ([name], content) :: rest.visible := by
  unfold visible
  rw [files, List.filter_cons]
  cases hname : hidden name with
  | true => simp [hname]
  | false => simp [hname]

theorem visible_dir : (dir name entries rest).visible
    = if hidden name then rest.visible
      else entries.visible.map (fun file => (name :: file.1, file.2)) ++ rest.visible := by
  unfold visible
  rw [files, List.filter_append, List.filter_map]
  cases hname : hidden name with
  | true => simp [Function.comp_def, hname]
  | false => simp [Function.comp_def, hname]

/-! ## Different files -/

/-- The way to a file begins with the name of an entry. -/
theorem exists_name (h : target ∈ entries.files) :
    ∃ name down, target.1 = name :: down ∧ name ∈ entries.names := by
  induction entries with
  | nil => cases h
  | file name content rest ih =>
    rcases List.mem_cons.mp h with rfl | h
    · exact ⟨name, [], rfl, List.mem_cons_self⟩
    · obtain ⟨first, down, htarget, hfirst⟩ := ih h
      exact ⟨first, down, htarget, List.mem_cons_of_mem name hfirst⟩
  | dir name entries rest _ ih =>
    rcases List.mem_append.mp h with h | h
    · obtain ⟨file, -, rfl⟩ := List.mem_map.mp h
      exact ⟨name, file.1, rfl, List.mem_cons_self⟩
    · obtain ⟨first, down, htarget, hfirst⟩ := ih h
      exact ⟨first, down, htarget, List.mem_cons_of_mem name hfirst⟩

theorem fileName_of_mem (hentries : entries.WellFormed) (h : target ∈ entries.files) :
    ∀ name ∈ target.1, FileName name := by
  induction entries generalizing target with
  | nil => cases h
  | file name content rest ih =>
    obtain ⟨hname, -, hrest⟩ := hentries
    rcases List.mem_cons.mp h with rfl | h
    · intro other hother
      rw [List.mem_singleton.mp hother]
      exact hname
    · exact ih hrest h
  | dir name entries rest ihEntries ihRest =>
    obtain ⟨hname, -, hentries, hrest⟩ := hentries
    rcases List.mem_append.mp h with h | h
    · obtain ⟨file, hfile, rfl⟩ := List.mem_map.mp h
      exact List.forall_mem_cons.mpr ⟨hname, ihEntries hentries hfile⟩
    · exact ihRest hrest h

/-- What begins with a name that no entry has is none of the files. -/
theorem not_prefix_cons (hname : name ∉ entries.names) (h : target ∈ entries.files) {down : List Name} :
    ¬ name :: down <+: target.1 ∧ ¬ target.1 <+: name :: down := by
  obtain ⟨first, rest, htarget, hfirst⟩ := exists_name h
  have hne : name ≠ first := fun heq => hname (heq ▸ hfirst)
  rw [htarget]
  constructor
  · exact fun hpre => hne (List.cons_prefix_cons.mp hpre).1
  · exact fun hpre => hne (List.cons_prefix_cons.mp hpre).1.symm

/-- No file lies on the way to another one. -/
theorem eq_of_prefix (hentries : entries.WellFormed) (htarget : target ∈ entries.files)
    (hother : other ∈ entries.files) (h : target.1 <+: other.1) : target = other := by
  induction entries generalizing target other with
  | nil => cases htarget
  | file name content rest ih =>
    obtain ⟨-, hname, hrest⟩ := hentries
    rcases List.mem_cons.mp htarget with rfl | htarget
    · rcases List.mem_cons.mp hother with rfl | hother
      · rfl
      · exact absurd h (not_prefix_cons hname hother).1
    · rcases List.mem_cons.mp hother with rfl | hother
      · exact absurd h (not_prefix_cons hname htarget).2
      · exact ih hrest htarget hother h
  | dir name entries rest ihEntries ihRest =>
    obtain ⟨-, hname, hentries, hrest⟩ := hentries
    rcases List.mem_append.mp htarget with htarget | htarget
    · obtain ⟨file, hfile, rfl⟩ := List.mem_map.mp htarget
      rcases List.mem_append.mp hother with hother | hother
      · obtain ⟨file', hfile', rfl⟩ := List.mem_map.mp hother
        rw [ihEntries hentries hfile hfile' (List.cons_prefix_cons.mp h).2]
      · exact absurd h (not_prefix_cons hname hother).1
    · rcases List.mem_append.mp hother with hother | hother
      · obtain ⟨file', hfile', rfl⟩ := List.mem_map.mp hother
        exact absurd h (not_prefix_cons hname htarget).2
      · exact ihRest hrest htarget hother h

theorem mem_files_of_visible (h : target ∈ entries.visible) : target ∈ entries.files :=
  List.mem_of_mem_filter h

/-- The visible files do not get into each other's way. -/
theorem targets (hentries : entries.WellFormed) : Disk.Targets entries.visible where
  ne_nil := by
    intro target htarget
    obtain ⟨name, down, hnames, -⟩ := exists_name (mem_files_of_visible htarget)
    rw [hnames]
    exact List.cons_ne_nil name down
  eq_of_prefix := fun target htarget other hother =>
    eq_of_prefix hentries (mem_files_of_visible htarget) (mem_files_of_visible hother)

end Listing

/-! ## The walk -/

/-- The path of a file, as the walk joins it. -/
def pathBelow (dir : Path) (names : List Name) : Path :=
  names.foldl (fun dir name => join [dir, name]) dir

theorem resolve_pathBelow {cwd : Location} {dir : Path} {names : List Name} (hdir : dir ≠ [])
    (h : ∀ name ∈ names, Listing.FileName name) :
    resolve cwd (pathBelow dir names) = resolve cwd dir ++ names := by
  induction names generalizing dir with
  | nil => rw [pathBelow, List.foldl_nil, List.append_nil]
  | cons name names ih =>
    obtain ⟨hproper, hslash⟩ := h name (by simp)
    have hstep : resolve cwd (join [dir, name]) = resolve cwd dir ++ [name] := by
      rw [resolve_join hdir, segments, List.splitOn_eq_singleton hslash, walk_cons,
        enter_proper hproper, walk_nil]
    rw [pathBelow, List.foldl_cons]
    refine (ih join_ne_nil fun other hother => h other (by simp [hother])).trans ?_
    rw [hstep, List.append_assoc, List.singleton_append]

/-- The walk starts one upload for each visible file. -/
theorem Cli.uploadDirLinks_eq {cli : Cli} {cwd : Location} {rootDir dir : Path}
    {options : CliOptions} {entries : Listing} :
    cli.uploadDirLinks cwd rootDir options dir entries = entries.visible.map fun file =>
      cli.uploadFileLink cwd rootDir (pathBelow dir file.1) file.2 options := by
  induction entries generalizing dir with
  | nil => rfl
  | file name content rest ih =>
    rw [uploadDirLinks, Listing.visible_file, ih]
    split
    · rfl
    · rfl
  | dir name entries rest ihEntries ihRest =>
    rw [uploadDirLinks, Listing.visible_dir, ihEntries, ihRest]
    split
    · rfl
    · rw [List.map_append, List.map_map]
      rfl

/-- The link of a file has the way to it as its name. -/
theorem relative_pathBelow {cwd : Location} {dir : Path} {names : List Name} (hdir : dir ≠ [])
    (h : ∀ name ∈ names, Listing.FileName name) :
    relative cwd dir (pathBelow dir names) = ['/'].intercalate names :=
  relative_eq (resolve_pathBelow hdir h)

end CereDdc
