import Mathlib.Tactic.Common
import Mathlib.Data.List.Infix
import Mathlib.Data.List.TakeWhile

/-!
# Kit — PosixPath

Paths with `/` between their names, and `normalize`, `join` and `dirname` on
them. What a path means is the location it leads to from a working directory:
`resolve` walks there name by name, and the three functions are described by
where their results lead.
-/

namespace Kit.PosixPath

/-- What stands between two slashes. -/
abbrev Name := List Char

abbrev Path := List Char

def dot : Name := ['.']

def dotdot : Name := ['.', '.']

/-- A name that leads one step down. -/
def Proper (name : Name) : Prop := name ≠ [] ∧ name ≠ dot ∧ name ≠ dotdot

instance (name : Name) : Decidable (Proper name) := inferInstanceAs (Decidable (_ ∧ _ ∧ _))

/-! ## Locations -/

/-- The names from the root down to a location. -/
abbrev Location := List Name

/-- One step along a path. At the root `..` stays where it is. -/
def enter (location : Location) (name : Name) : Location :=
  if Proper name then location ++ [name]
  else if name = dotdot then location.dropLast
  else location

def walk (location : Location) (names : List Name) : Location := names.foldl enter location

def segments (path : Path) : List Name := path.splitOn '/'

def isAbsolute (path : Path) : Bool := path.head? == some '/'

/-- Where a path leads from a working directory. -/
def resolve (cwd : Location) (path : Path) : Location :=
  walk (if isAbsolute path then [] else cwd) (segments path)

section

variable {location : Location} {name : Name} {names others : List Name} {path : Path}

theorem enter_proper (h : Proper name) : enter location name = location ++ [name] := if_pos h

theorem not_proper_dotdot : ¬ Proper dotdot := fun h => h.2.2 rfl

@[simp] theorem enter_dotdot : enter location dotdot = location.dropLast := by
  rw [enter, if_neg not_proper_dotdot, if_pos rfl]

@[simp] theorem enter_nil : enter location [] = location := rfl

@[simp] theorem enter_dot : enter location dot = location := rfl

@[simp] theorem walk_nil : walk location [] = location := rfl

@[simp] theorem walk_cons : walk location (name :: names) = walk (enter location name) names := rfl

@[simp] theorem walk_append :
    walk location (names ++ others) = walk (walk location names) others := List.foldl_append

theorem walk_proper (h : ∀ name ∈ names, Proper name) :
    walk location names = location ++ names := by
  induction names generalizing location with
  | nil => rw [walk_nil, List.append_nil]
  | cons name names ih =>
    rw [walk_cons, enter_proper (h name (by simp)), ih fun n hn => h n (by simp [hn]),
      List.append_assoc, List.singleton_append]

theorem walk_ups {ups : Nat} :
    walk location (List.replicate ups dotdot) = location.take (location.length - ups) := by
  induction ups generalizing location with
  | zero => simp
  | succ ups ih =>
    rw [List.replicate_succ, walk_cons, enter_dotdot, ih, List.length_dropLast,
      List.dropLast_eq_take, List.take_take]
    congr 1
    omega

theorem segments_append {rest : Path} :
    segments (path ++ '/' :: rest) = segments path ++ segments rest :=
  List.splitOn_append_cons_self path rest

@[simp] theorem segments_nil : segments [] = [[]] := rfl

theorem slash_not_mem {name : Name} (h : name ∈ segments path) : '/' ∉ name := by
  induction path generalizing name with
  | nil =>
    rw [segments_nil, List.mem_singleton] at h
    simp [h]
  | cons c path ih =>
    rw [segments, List.splitOn_cons_eq_if_modifyHead] at h
    split at h
    · rcases List.mem_cons.mp h with rfl | h
      · simp
      · exact ih h
    · rename_i hc
      have hne : c ≠ '/' := by simpa using hc
      cases hsegments : path.splitOn '/' with
      | nil => exact absurd hsegments (List.splitOn_ne_nil '/' path)
      | cons first rest =>
        rw [hsegments, List.modifyHead_cons] at h
        rcases List.mem_cons.mp h with rfl | h
        · have hfirst : '/' ∉ first := ih (by rw [segments, hsegments]; simp)
          simp [hne.symm, hfirst]
        · exact ih (by rw [segments, hsegments]; simp [h])

end

/-! ## Normal forms -/

/-- A path without detours: first up, then down. -/
structure Normal where
  ups : Nat
  names : List Name
  proper : ∀ name ∈ names, Proper name

namespace Normal

def here : Normal := ⟨0, [], by simp⟩

/-- One more name; `above` says whether a path may lead up from where it starts. -/
def enter (above : Bool) (n : Normal) (name : Name) : Normal :=
  if h : Proper name then
    { n with
      names := n.names ++ [name]
      proper := fun other hother => (List.mem_append.mp hother).elim (n.proper other) fun heq =>
        List.mem_singleton.mp heq ▸ h }
  else if name = dotdot then
    if n.names = [] then if above then { n with ups := n.ups + 1 } else n
    else
      { n with
        names := n.names.dropLast
        proper := fun other hother => n.proper other (List.dropLast_subset _ hother) }
  else n

def toNames (n : Normal) : List Name := List.replicate n.ups dotdot ++ n.names

end Normal

/-- The loop of `normalizeString`. -/
def reduce (above : Bool) (names : List Name) : Normal :=
  names.foldl (Normal.enter above) .here

section

variable {location : Location} {name : Name} {names : List Name} {above : Bool} {n : Normal}

theorem Normal.walk_toNames :
    walk location n.toNames = location.take (location.length - n.ups) ++ n.names := by
  rw [toNames, walk_append, walk_ups, walk_proper n.proper]

/-- A path that starts at the root never leads up. -/
theorem Normal.ups_enter (h : n.ups = 0) : (n.enter false name).ups = 0 := by
  unfold Normal.enter
  split
  · exact h
  · split
    · split
      · exact h
      · exact h
    · exact h

/-- One more name leads on from where the normal form leads. -/
theorem Normal.walk_enter (h : above = true ∨ (location = [] ∧ n.ups = 0)) :
    walk location (n.enter above name).toNames
      = PosixPath.enter (walk location n.toNames) name := by
  unfold Normal.enter
  split
  · rename_i hname
    rw [enter_proper hname, walk_toNames, walk_toNames, List.append_assoc]
  · rename_i hname
    split
    · rename_i hdots
      subst hdots
      rw [enter_dotdot]
      split
      · rename_i hnil
        cases above with
        | true =>
          rw [if_pos rfl, walk_toNames, walk_toNames]
          dsimp only
          rw [hnil, List.append_nil, List.append_nil, List.dropLast_eq_take, List.take_take,
            List.length_take]
          congr 1
          omega
        | false =>
          obtain ⟨rfl, -⟩ := h.resolve_left Bool.noConfusion
          rw [if_neg Bool.noConfusion, walk_toNames, hnil]
          simp
      · rename_i hnames
        rw [walk_toNames, walk_toNames]
        rw [List.dropLast_append_of_ne_nil hnames]
    · rename_i hdots
      rw [PosixPath.enter, if_neg hname, if_neg hdots]

theorem walk_foldl_enter (h : above = true ∨ (location = [] ∧ n.ups = 0)) :
    walk location (names.foldl (Normal.enter above) n).toNames
      = walk (walk location n.toNames) names := by
  induction names generalizing n with
  | nil => rfl
  | cons name names ih =>
    have hnext : above = true ∨ (location = [] ∧ (n.enter above name).ups = 0) := by
      cases above with
      | true => exact .inl rfl
      | false =>
        obtain ⟨hlocation, hups⟩ := h.resolve_left Bool.noConfusion
        exact .inr ⟨hlocation, Normal.ups_enter hups⟩
    rw [List.foldl_cons, ih hnext, Normal.walk_enter h, walk_cons]

/-- A normal form leads where the names lead. -/
theorem walk_reduce (h : above = true ∨ location = []) :
    walk location (reduce above names).toNames = walk location names :=
  walk_foldl_enter (h.imp_right fun hlocation => ⟨hlocation, rfl⟩)

/-- From a location the names lead up as often as their normal form does, and down again. -/
theorem walk_eq (location : Location) (names : List Name) :
    walk location names = location.take (location.length - (reduce true names).ups)
      ++ (reduce true names).names := by
  rw [← walk_reduce (.inl rfl), Normal.walk_toNames]

/-- The names lead to a place under the location where they started exactly when they go down
the way they have come up. -/
theorem prefix_walk_iff {location : Location} {names : List Name} :
    location <+: walk location names ↔
      location.drop (location.length - (reduce true names).ups) <+: (reduce true names).names := by
  rw [walk_eq]
  conv_lhs =>
    lhs
    rw [← List.take_append_drop (location.length - (reduce true names).ups) location]
  exact List.prefix_append_right_inj _

end

/-! ## `normalize` and `join` -/

/-- The text of a normal form. -/
def render (absolute trailing : Bool) (names : List Name) : Path :=
  let body := ['/'].intercalate names
  if body = [] then if absolute then ['/'] else if trailing then ['.', '/'] else ['.']
  else (if absolute then '/' :: body else body) ++ if trailing then ['/'] else []

def normalize (path : Path) : Path :=
  if path = [] then ['.']
  else
    render (isAbsolute path) (path.getLast? == some '/')
      (reduce (!isAbsolute path) (segments path)).toNames

def join (paths : List Path) : Path :=
  let joined := ['/'].intercalate (paths.filter (· ≠ []))
  if joined = [] then ['.'] else normalize joined

section

variable {location cwd : Location} {name : Name} {names : List Name} {path : Path} {above : Bool}

theorem mem_enter {n : Normal} {other : Name} (h : other ∈ (n.enter above name).names) :
    other ∈ n.names ∨ other = name := by
  unfold Normal.enter at h
  split at h
  · exact (List.mem_append.mp h).imp_right List.mem_singleton.mp
  · split at h
    · split at h
      · split at h <;> exact .inl h
      · exact .inl (List.dropLast_subset _ h)
    · exact .inl h

/-- A normal form has no names of its own. -/
theorem mem_foldl_enter {n : Normal} {other : Name}
    (h : other ∈ (names.foldl (Normal.enter above) n).names) :
    other ∈ n.names ∨ other ∈ names := by
  induction names generalizing n with
  | nil => exact .inl h
  | cons name names ih =>
    rcases ih h with hmem | hmem
    · refine (mem_enter hmem).imp_right fun heq => ?_
      rw [heq]
      exact List.mem_cons_self
    · exact .inr (List.mem_cons_of_mem name hmem)

theorem mem_toNames_reduce {other : Name} (h : other ∈ (reduce above names).toNames) :
    other = dotdot ∨ (Proper other ∧ other ∈ names) := by
  rcases List.mem_append.mp h with h | h
  · exact .inl (List.eq_of_mem_replicate h)
  · refine .inr ⟨(reduce above names).proper other h, ?_⟩
    exact (mem_foldl_enter h).resolve_left (List.not_mem_nil)

theorem segments_intercalate (hnames : names ≠ []) (h : ∀ name ∈ names, '/' ∉ name) :
    segments (['/'].intercalate names) = names := List.splitOn_intercalate '/' h hnames

theorem intercalate_eq_nil_iff (h : ∀ name ∈ names, name ≠ []) :
    ['/'].intercalate names = [] ↔ names = [] := by
  cases names with
  | nil => simp
  | cons name names =>
    have hname := h name (by simp)
    cases names with
    | nil => simpa using hname
    | cons other names => simp [List.intercalate_cons_cons]

theorem head?_intercalate (h : ∀ name ∈ names, name ≠ [] ∧ '/' ∉ name) :
    (['/'].intercalate names).head? ≠ some '/' := by
  cases names with
  | nil => simp
  | cons name names =>
    obtain ⟨hname, hslash⟩ := h name (by simp)
    obtain ⟨c, rest, rfl⟩ := List.exists_cons_of_ne_nil hname
    have hc : c ≠ '/' := fun heq => hslash (heq ▸ List.mem_cons_self)
    cases names with
    | nil => simpa using hc
    | cons other names => simpa [List.intercalate_cons_cons] using hc

theorem walk_segments_slash (tail : Bool) :
    walk location (segments (path ++ if tail then ['/'] else [])) = walk location (segments path) := by
  cases tail with
  | true => simp [segments_append]
  | false => simp

theorem resolve_render {absolute trailing : Bool}
    (h : ∀ name ∈ names, name ≠ [] ∧ '/' ∉ name) :
    resolve cwd (render absolute trailing names)
      = walk (if absolute then [] else cwd) names := by
  unfold render
  dsimp only
  by_cases hbody : ['/'].intercalate names = []
  · rw [if_pos hbody, (intercalate_eq_nil_iff fun name hname => (h name hname).1).mp hbody]
    cases absolute with
    | true => rfl
    | false => cases trailing <;> rfl
  · rw [if_neg hbody]
    have hne : names ≠ [] := fun heq => hbody (by rw [heq]; rfl)
    have hsegments := segments_intercalate hne fun name hname => (h name hname).2
    cases absolute with
    | true =>
      have hroot : segments ([] ++ '/' :: ['/'].intercalate names) = [] :: names := by
        rw [segments_append, hsegments]
        rfl
      rw [List.nil_append] at hroot
      rw [if_pos rfl, if_pos rfl, resolve, walk_segments_slash, hroot, walk_cons, enter_nil]
      rfl
    | false =>
      have hhead : isAbsolute (['/'].intercalate names ++ if trailing then ['/'] else []) = false := by
        obtain ⟨c, rest, hcons⟩ := List.exists_cons_of_ne_nil hbody
        have hc := head?_intercalate h
        rw [hcons] at hc ⊢
        simpa [isAbsolute] using hc
      show resolve cwd (['/'].intercalate names ++ _) = walk cwd names
      rw [resolve, hhead, walk_segments_slash, hsegments]
      rfl

/-- `normalize` does not change where a path leads. -/
theorem resolve_normalize : resolve cwd (normalize path) = resolve cwd path := by
  unfold normalize
  by_cases hpath : path = []
  · rw [if_pos hpath, hpath]
    rfl
  · rw [if_neg hpath, resolve_render, resolve]
    · refine walk_reduce ?_
      cases isAbsolute path with
      | true => exact .inr rfl
      | false => exact .inl rfl
    · intro name hname
      rcases mem_toNames_reduce hname with rfl | ⟨hproper, hmem⟩
      · exact ⟨by decide, by decide⟩
      · exact ⟨hproper.1, slash_not_mem hmem⟩

/-- A joined path leads on from its first part by the names of the second, which may look
absolute. -/
theorem resolve_join {other : Path} (h : path ≠ []) :
    resolve cwd (join [path, other]) = walk (resolve cwd path) (segments other) := by
  obtain ⟨c, rest, rfl⟩ := List.exists_cons_of_ne_nil h
  unfold join
  by_cases hother : other = []
  · subst hother
    simp [resolve_normalize]
  · have hjoined : ['/'].intercalate ([c :: rest, other].filter (· ≠ []))
        = c :: rest ++ '/' :: other := by
      simp [hother, List.intercalate_cons_cons]
    have habsolute : isAbsolute (c :: rest ++ '/' :: other) = isAbsolute (c :: rest) := rfl
    dsimp only
    rw [hjoined, if_neg (by simp), resolve_normalize, resolve, habsolute, segments_append,
      walk_append]
    rfl

theorem render_ne_nil {absolute trailing : Bool} : render absolute trailing names ≠ [] := by
  unfold render
  dsimp only
  split
  · cases absolute with
    | true => simp
    | false => cases trailing <;> simp
  · next hbody =>
    cases absolute with
    | true => simp
    | false => simp [hbody]

theorem join_ne_nil {paths : List Path} : join paths ≠ [] := by
  unfold join normalize
  dsimp only
  split
  · simp
  · exact render_ne_nil

end

/-! ## `dirname` -/

/-- The part in front of the last name. A slash in the first place belongs to no name. -/
def dirname : Path → Path
  | [] => ['.']
  | c :: rest =>
    match (rest.reverse.dropWhile (· = '/')).dropWhile (· ≠ '/') with
    | [] => if c = '/' then ['/'] else ['.']
    | _ :: front => if c = '/' ∧ front = [] then ['/', '/'] else c :: front.reverse

section

variable {cwd : Location} {path : Path}

theorem walk_segments_slashes {location : Location} {slashes : Path}
    (h : ∀ c ∈ slashes, c = '/') :
    walk location (segments (path ++ slashes)) = walk location (segments path) := by
  induction slashes generalizing path with
  | nil => rw [List.append_nil]
  | cons c slashes ih =>
    rw [h c (by simp), List.append_cons, ih fun d hd => h d (by simp [hd])]
    exact walk_segments_slash true

/-- The last name of a path, with what is in front of it and the slashes behind. -/
theorem exists_last_name (rest : Path) : ∃ name slashes, '/' ∉ name ∧ (∀ c ∈ slashes, c = '/') ∧
    ((rest = name ++ slashes ∧ (rest.reverse.dropWhile (· = '/')).dropWhile (· ≠ '/') = []) ∨
      ∃ front, name ≠ [] ∧ rest = front.reverse ++ '/' :: (name ++ slashes) ∧
        (rest.reverse.dropWhile (· = '/')).dropWhile (· ≠ '/') = '/' :: front) := by
  let slashes := rest.reverse.takeWhile (· = '/')
  let remaining := rest.reverse.dropWhile (· = '/')
  let name := remaining.takeWhile (· ≠ '/')
  have hrest : rest = (remaining.dropWhile (· ≠ '/')).reverse ++ (name.reverse ++ slashes.reverse) := by
    rw [← List.reverse_append, ← List.reverse_append, List.append_assoc]
    rw [List.takeWhile_append_dropWhile, List.takeWhile_append_dropWhile, List.reverse_reverse]
  refine ⟨name.reverse, slashes.reverse, ?_, ?_, ?_⟩
  · intro hmem
    have hslash := List.mem_takeWhile_imp (List.mem_reverse.mp hmem)
    simp at hslash
  · intro c hc
    simpa using List.mem_takeWhile_imp (List.mem_reverse.mp hc)
  · cases hfront : remaining.dropWhile (· ≠ '/') with
    | nil =>
      rw [hfront] at hrest
      exact .inl ⟨by simpa using hrest, rfl⟩
    | cons c front =>
      have hc : c = '/' := by
        have hhead := List.head?_dropWhile_not (· ≠ '/') remaining
        rw [hfront] at hhead
        simpa using hhead
      subst hc
      rw [hfront] at hrest
      refine .inr ⟨front, fun hempty => ?_, by simpa using hrest, rfl⟩
      -- what remains does not begin with a slash
      have hname : remaining.takeWhile (· ≠ '/') = [] := List.reverse_eq_nil_iff.mp hempty
      have hremaining : remaining = '/' :: front := by
        rw [← List.takeWhile_append_dropWhile (p := (· ≠ '/')) (l := remaining), hname, hfront]
        rfl
      have hhead := List.head?_dropWhile_not (· = '/') rest.reverse
      rw [show rest.reverse.dropWhile (· = '/') = '/' :: front from hremaining] at hhead
      simp at hhead

/-- The names of a path, as they are written. -/
def names (path : Path) : List Name := (segments path).filter (· ≠ [])

theorem names_append {rest : Path} : names (path ++ '/' :: rest) = names path ++ names rest := by
  rw [names, segments_append, List.filter_append]
  rfl

theorem names_slashes {slashes : Path} (h : ∀ c ∈ slashes, c = '/') :
    names (path ++ slashes) = names path := by
  induction slashes generalizing path with
  | nil => rw [List.append_nil]
  | cons c slashes ih =>
    have hrest := @ih (path ++ ['/']) fun d hd => h d (by simp [hd])
    rw [List.append_assoc] at hrest
    rw [h c (by simp)]
    refine hrest.trans ?_
    rw [names_append]
    simp [names]

theorem names_single {name : Name} (hname : name ≠ []) (hslash : '/' ∉ name) :
    names name = [name] := by
  rw [names, segments, List.splitOn_eq_singleton hslash]
  simp [hname]

section

variable {rest : Path} {name : Name} {slashes : Path}

/-- A last name leads where it leads without the slashes after it. -/
theorem walk_name_slashes {location : Location} (hname : '/' ∉ name)
    (hslashes : ∀ c ∈ slashes, c = '/') :
    walk location (segments (name ++ slashes)) = enter location name := by
  rw [walk_segments_slashes hslashes, segments, List.splitOn_eq_singleton hname]
  rfl

theorem names_name_slashes (hne : name ≠ []) (hname : '/' ∉ name)
    (hslashes : ∀ c ∈ slashes, c = '/') : names (name ++ slashes) = [name] := by
  rw [names_slashes hslashes, names_single hne hname]

/-- The `dirname` of a name at the root is the root. -/
theorem resolve_dirname_root (hname : '/' ∉ name) (hslashes : ∀ c ∈ slashes, c = '/')
    (hrest : rest = name ++ slashes)
    (hfront : (rest.reverse.dropWhile (· = '/')).dropWhile (· ≠ '/') = []) :
    resolve cwd ('/' :: rest) = enter (resolve cwd (dirname ('/' :: rest))) name ∧
      ∀ last, (names ('/' :: rest)).getLast? = some last → last = name := by
  have hdirname : dirname ('/' :: rest) = ['/'] := by
    simp only [dirname, hfront, if_true]
  refine ⟨?_, fun last hlast => ?_⟩
  · rw [hdirname, hrest]
    show walk [] (segments ([] ++ '/' :: (name ++ slashes))) = _
    rw [segments_append, walk_append, walk_name_slashes hname hslashes]
    rfl
  · rw [hrest, show '/' :: (name ++ slashes) = [] ++ '/' :: (name ++ slashes) from rfl,
      names_append] at hlast
    by_cases hempty : name = []
    · rw [hempty, names_slashes hslashes] at hlast
      cases hlast
    · rw [names_name_slashes hempty hname hslashes] at hlast
      exact (Option.some.inj hlast).symm

/-- The `dirname` of a name alone is the place one is at. -/
theorem resolve_dirname_alone {c : Char} (hc : c ≠ '/') (hname : '/' ∉ name)
    (hslashes : ∀ c ∈ slashes, c = '/') (hrest : rest = name ++ slashes)
    (hfront : (rest.reverse.dropWhile (· = '/')).dropWhile (· ≠ '/') = []) :
    resolve cwd (c :: rest) = enter (resolve cwd (dirname (c :: rest))) (c :: name) ∧
      ∀ last, (names (c :: rest)).getLast? = some last → last = c :: name := by
  have hdirname : dirname (c :: rest) = ['.'] := by
    simp only [dirname, hfront, if_neg hc]
  have hrelative : isAbsolute (c :: (name ++ slashes)) = false := by simp [isAbsolute, hc]
  have hslash : '/' ∉ c :: name := by simp [hname, Ne.symm hc]
  refine ⟨?_, fun last hlast => ?_⟩
  · rw [hdirname, hrest, resolve, hrelative]
    exact walk_name_slashes hslash hslashes
  · rw [hrest, ← List.cons_append, names_name_slashes (List.cons_ne_nil c name) hslash hslashes]
      at hlast
    exact (Option.some.inj hlast).symm

/-- The `dirname` of a name with others in front of it is what stands in front. -/
theorem resolve_dirname_front {c : Char} {front : Path} (hne : name ≠ []) (hname : '/' ∉ name)
    (hslashes : ∀ c ∈ slashes, c = '/') (hrest : rest = front.reverse ++ '/' :: (name ++ slashes))
    (hfront : (rest.reverse.dropWhile (· = '/')).dropWhile (· ≠ '/') = '/' :: front) :
    resolve cwd (c :: rest) = enter (resolve cwd (dirname (c :: rest))) name ∧
      ∀ last, (names (c :: rest)).getLast? = some last → last = name := by
  have hpath : resolve cwd (c :: rest) = enter (resolve cwd (c :: front.reverse)) name := by
    rw [hrest, resolve, ← List.cons_append, segments_append, walk_append,
      walk_name_slashes hname hslashes]
    rfl
  refine ⟨?_, fun last hlast => ?_⟩
  · rw [hpath]
    simp only [dirname, hfront]
    by_cases hroot : c = '/' ∧ front = []
    -- two slashes are the root as one is
    · rw [if_pos hroot, hroot.1, hroot.2]
      rfl
    · rw [if_neg hroot]
  · rw [hrest, ← List.cons_append, names_append, names_name_slashes hne hname hslashes,
      List.getLast?_concat] at hlast
    exact (Option.some.inj hlast).symm

end

/-- A path is its `dirname` and one more name, the last one that is written in it. -/
theorem resolve_dirname : ∃ name, resolve cwd path = enter (resolve cwd (dirname path)) name ∧
    ∀ last, (names path).getLast? = some last → last = name := by
  cases path with
  | nil => exact ⟨[], rfl, by simp [names]⟩
  | cons c rest =>
    obtain ⟨name, slashes, hname, hslashes, hrest⟩ := exists_last_name rest
    rcases hrest with ⟨hrest, hfront⟩ | ⟨front, hne, hrest, hfront⟩
    · by_cases hc : c = '/'
      · subst hc
        exact ⟨name, resolve_dirname_root hname hslashes hrest hfront⟩
      · exact ⟨c :: name, resolve_dirname_alone hc hname hslashes hrest hfront⟩
    · exact ⟨name, resolve_dirname_front hne hname hslashes hrest hfront⟩

/-- A place that a path lies under is one that its `dirname` lies under, or the other way
around. -/
theorem prefix_dirname {location : Location} (h : location <+: resolve cwd path) :
    location <+: resolve cwd (dirname path) ∨ resolve cwd (dirname path) <+: location := by
  obtain ⟨name, hname, -⟩ := @resolve_dirname cwd path
  rw [hname, enter] at h
  split at h
  · rcases List.prefix_concat_iff.mp h with heq | hpre
    · exact .inr ⟨[name], heq.symm⟩
    · exact .inl hpre
  · split at h
    · exact .inl (h.trans (List.dropLast_prefix _))
    · exact .inl h

end

/-! ## Paths that lead down -/

section

variable {cwd : Location} {path dest : Path} {above : Bool} {down others : List Name} {last : Name}

theorem toNames_foldl_enter {n : Normal} (h : ∀ name ∈ down, Proper name) :
    (down.foldl (Normal.enter above) n).toNames = n.toNames ++ down := by
  induction down generalizing n with
  | nil => rw [List.foldl_nil, List.append_nil]
  | cons name down ih =>
    have hname : (n.enter above name).toNames = n.toNames ++ [name] := by
      unfold Normal.enter
      rw [dif_pos (h name (by simp))]
      exact (List.append_assoc _ _ _).symm
    rw [List.foldl_cons, ih fun name hname => h name (by simp [hname]), hname,
      List.append_assoc, List.singleton_append]

/-- Names that lead down are kept in a normal form. -/
theorem toNames_reduce_append (h : ∀ name ∈ down, Proper name) :
    (reduce above (others ++ down)).toNames = (reduce above others).toNames ++ down := by
  rw [reduce, List.foldl_append]
  exact toNames_foldl_enter h

theorem names_intercalate (h : ∀ name ∈ down, name ≠ [] ∧ '/' ∉ name) :
    names (['/'].intercalate down) = down := by
  by_cases hdown : down = []
  · subst hdown
    rfl
  · rw [names, segments_intercalate hdown fun name hname => (h name hname).2]
    exact List.filter_eq_self.mpr fun name hname => by simpa using (h name hname).1

/-- The names of a rendered path are those it was made of. -/
theorem names_render {absolute trailing : Bool} (hdown : down ≠ [])
    (h : ∀ name ∈ down, name ≠ [] ∧ '/' ∉ name) : names (render absolute trailing down) = down := by
  have hbody : ['/'].intercalate down ≠ [] := fun hnil =>
    hdown ((intercalate_eq_nil_iff fun name hname => (h name hname).1).mp hnil)
  have htrailing : ∀ path : Path, names (path ++ if trailing then ['/'] else []) = names path := by
    intro path
    cases trailing with
    | true => exact names_slashes (by simp)
    | false => simp
  unfold render
  dsimp only
  rw [if_neg hbody, htrailing]
  cases absolute with
  | true =>
    rw [if_pos rfl, show '/' :: ['/'].intercalate down = [] ++ '/' :: ['/'].intercalate down from rfl,
      names_append, names_intercalate h]
    rfl
  | false =>
    rw [if_neg Bool.noConfusion, names_intercalate h]

/-- A joined path ends with the last name of its second part. -/
theorem getLast?_names_join (hdest : dest ≠ []) (hdown : down ≠ [])
    (h : ∀ name ∈ down, Proper name ∧ '/' ∉ name) :
    (names (join [dest, ['/'].intercalate down])).getLast? = down.getLast? := by
  have hbody : ['/'].intercalate down ≠ [] := fun hnil =>
    hdown ((intercalate_eq_nil_iff fun name hname => (h name hname).1.1).mp hnil)
  have hjoined : ['/'].intercalate ([dest, ['/'].intercalate down].filter (· ≠ []))
      = dest ++ '/' :: ['/'].intercalate down := by
    simp [hbody, hdest, List.intercalate_cons_cons]
  have hpath : dest ++ '/' :: ['/'].intercalate down ≠ [] := by simp
  have hsegments : segments (dest ++ '/' :: ['/'].intercalate down) = segments dest ++ down := by
    rw [segments_append, segments_intercalate hdown fun name hname => (h name hname).2]
  unfold join
  dsimp only
  rw [hjoined, if_neg hpath, normalize, if_neg hpath, hsegments,
    toNames_reduce_append fun name hname => (h name hname).1, names_render]
  · exact List.getLast?_append_of_ne_nil _ hdown
  · simp [hdown]
  · intro name hname
    rcases List.mem_append.mp hname with hname | hname
    · rcases mem_toNames_reduce hname with rfl | ⟨hproper, hmem⟩
      · exact ⟨by decide, by decide⟩
      · exact ⟨hproper.1, slash_not_mem hmem⟩
    · exact ⟨(h name hname).1.1, (h name hname).2⟩

theorem resolve_join_down (hdest : dest ≠ []) (h : ∀ name ∈ down, Proper name ∧ '/' ∉ name) :
    resolve cwd (join [dest, ['/'].intercalate down]) = resolve cwd dest ++ down := by
  by_cases hdown : down = []
  · subst hdown
    rw [resolve_join hdest, List.append_nil]
    rfl
  · rw [resolve_join hdest, segments_intercalate hdown fun name hname => (h name hname).2,
      walk_proper fun name hname => (h name hname).1]

/-- The directory of a path that leads down. -/
theorem resolve_dirname_join (hdest : dest ≠ []) (hdown : down ≠ [])
    (h : ∀ name ∈ down, Proper name ∧ '/' ∉ name) :
    resolve cwd (dirname (join [dest, ['/'].intercalate down]))
      = resolve cwd dest ++ down.dropLast := by
  obtain ⟨name, hname, hlast⟩ := @resolve_dirname cwd (join [dest, ['/'].intercalate down])
  obtain rfl : down.getLast hdown = name := hlast _ (by
    rw [getLast?_names_join hdest hdown h, List.getLast?_eq_some_getLast hdown])
  rw [resolve_join_down hdest h, enter_proper (h _ (List.getLast_mem hdown)).1] at hname
  have hsplit : down.dropLast ++ [down.getLast hdown] = down := List.dropLast_append_getLast hdown
  refine (@List.append_cancel_right _ _ [down.getLast hdown] _ ?_).symm
  rw [List.append_assoc, hsplit, hname]

end

/-! ## `relative` -/

/-- Two locations without the way they have in common. -/
def stripCommon : Location → Location → List Name × List Name
  | x :: xs, y :: ys => if x = y then stripCommon xs ys else (x :: xs, y :: ys)
  | xs, ys => (xs, ys)

/-- The path from one path to another. -/
def relative (cwd : Location) (source target : Path) : Path :=
  let (back, on) := stripCommon (resolve cwd source) (resolve cwd target)
  ['/'].intercalate (back.map (fun _ => dotdot) ++ on)

theorem stripCommon_append (location : Location) (names : List Name) :
    stripCommon location (location ++ names) = ([], names) := by
  induction location with
  | nil => cases names <;> rfl
  | cons name location ih => rw [List.cons_append, stripCommon, if_pos rfl, ih]

/-- The path to what lies below is the way down. -/
theorem relative_eq {cwd : Location} {source target : Path} {names : List Name}
    (h : resolve cwd target = resolve cwd source ++ names) :
    relative cwd source target = ['/'].intercalate names := by
  unfold relative
  rw [h, stripCommon_append]
  rfl

end Kit.PosixPath
