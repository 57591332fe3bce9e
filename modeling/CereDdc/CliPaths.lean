import CereDdc.Cli

/-!
# CliPaths — where a download writes

The links of a directory have the names that its DAG node gives them. A name
that leads up out of the destination takes the download with it.
-/

namespace CereDdc

open Kit Program
open Kit.PosixPath

/-- What is asked of the file system is for the destination. The directories on the way there
exist once the destination does, so asking for them creates nothing. -/
def CliRequest.Inside (cwd : Location) (dest : Path) : CliRequest → Prop
  | mkdir path =>
    resolve cwd dest <+: resolve cwd path ∨ resolve cwd path <+: resolve cwd dest
  | write path _ => resolve cwd dest <+: resolve cwd path
  | _ => True

/-- A name that goes down again the way it has come up. -/
def StaysInside (location : Location) (name : Path) : Prop :=
  let normal := reduce true (segments name)
  location.drop (location.length - normal.ups) <+: normal.names

instance (location : Location) (name : Path) : Decidable (StaysInside location name) :=
  inferInstanceAs (Decidable (_ <+: _))

section

variable {cli : Cli} {cwd : Location} {dest : Path} {options : CliOptions}
  {response : DagNodeResponse} {name : Path} {source : String}

theorem staysInside_iff (hdest : dest ≠ []) :
    StaysInside (resolve cwd dest) name ↔
      resolve cwd dest <+: resolve cwd (join [dest, name]) := by
  rw [resolve_join hdest, prefix_walk_iff]
  exact Iff.rfl

theorem all_downloadFile_inside {path : Path} (h : resolve cwd dest <+: resolve cwd path) :
    (cli.downloadFile source path options).All (CliRequest.Inside cwd dest) := by
  refine .bind (Q := fun _ => True) ?_ fun _ _ => ?_
  · exact .bind ⟨prefix_dirname h, fun _ => trivial⟩ fun _ _ => meets_ofExcept fun _ _ => trivial
  refine .bind (Q := fun _ => True) ?_ fun body _ => ?_
  · exact .bind ⟨trivial, fun _ => trivial⟩ fun _ _ => meets_ofExcept fun _ _ => trivial
  exact .bind ⟨h, fun _ => trivial⟩ fun _ _ => meets_ofExcept fun _ _ => trivial

/-- A download that goes on writes to its path. -/
theorem inside_of_all_downloadFile {path : Path}
    (h : (cli.downloadFile source path options).All (CliRequest.Inside cwd dest)) :
    resolve cwd dest <+: resolve cwd path :=
  ((h.2 (.ok ())).2 (.ok ⟨[], none⟩)).1

theorem forks_downloadDir (hresponse : cli.checkDir (some response) = .ok response)
    {es : List (Program.Event CliRequest.Answer)} :
    Forks (cli.downloadDir source dest options)
        (⟨.readDagNode (.new cli.base32 options.bucketId source .dagNode) options.operation,
          (.ok (some response) : Except JsError (Option DagNodeResponse))⟩ :: es) ↔
      Forks (.ask (.mkdir dest) fun answer => ofExcept answer >>= fun _ =>
        .done (response.links.map fun link =>
          cli.downloadFile link.cid (join [dest, link.name.toList]) options)) es := by
  refine forks_ask.trans ?_
  change Forks (Program.ofExcept (cli.checkDir (some response)) >>= _) es ↔ _
  rw [hresponse]
  exact Iff.rfl

/-- A download that keeps inside has names that do. -/
theorem staysInside_of_forks (hresponse : cli.checkDir (some response) = .ok response)
    (hdest : dest ≠ [])
    (h : ∀ es, Forks (cli.downloadDir source dest options)
        (⟨.readDagNode (.new cli.base32 options.bucketId source .dagNode) options.operation,
          (.ok (some response) : Except JsError (Option DagNodeResponse))⟩ :: es) →
      ∀ e ∈ es, e.1.Inside cwd dest) {link : Link} (hlink : link ∈ response.links) :
    StaysInside (resolve cwd dest) link.name.toList := by
  let jobs := response.links.map fun link =>
    cli.downloadFile link.cid (join [dest, link.name.toList]) options
  have hjobs : ∀ job ∈ jobs, job.All (CliRequest.Inside cwd dest) := by
    refine forall_all_iff.mpr fun es rest hes e he => ?_
    have hforks := (@forks_downloadDir _ _ options _ source hresponse _).mpr
      (.fork (.step (a := (.ok () : Except JsError Unit)) .stop) hes)
    exact h _ hforks e (List.mem_append_right _ he)
  rw [staysInside_iff hdest]
  exact inside_of_all_downloadFile (hjobs _ (List.mem_map_of_mem hlink))

end

/-- Everything that a download of a directory writes or creates lies inside the destination
exactly when every name among its links goes down again the way it comes up. -/
theorem Cli.downloadDir_inside_iff (cli : Cli) (cwd : Location) (source : String) (dest : Path)
    (options : CliOptions) (response : DagNodeResponse)
    (hresponse : cli.checkDir (some response) = .ok response) (hdest : dest ≠ []) :
    (∀ es, Forks (cli.downloadDir source dest options)
        (⟨.readDagNode (.new cli.base32 options.bucketId source .dagNode) options.operation,
          (.ok (some response) : Except JsError (Option DagNodeResponse))⟩ :: es) →
      ∀ e ∈ es, e.1.Inside cwd dest) ↔
      ∀ link ∈ response.links, StaysInside (resolve cwd dest) link.name.toList := by
  refine ⟨fun h link hlink => staysInside_of_forks hresponse hdest h hlink, fun h es hes => ?_⟩
  refine Meets.forks ?_ ((forks_downloadDir hresponse).mp hes)
  refine ⟨.inl (List.prefix_refl _), fun answer => ?_⟩
  refine .bind (meets_ofExcept fun _ _ => trivial) fun _ _ job hjob => ?_
  obtain ⟨link, hlink, rfl⟩ := List.mem_map.mp hjob
  exact all_downloadFile_inside ((staysInside_iff hdest).mp (h link hlink))

/-- A tool with the packages as they are. -/
def plainCli : Cli := { base32 := .rfc4648, json := .rootDagNode }

/-- A directory of the tool with one link. -/
def oneLink (name : String) : DagNodeResponse where
  cid := "bafy"
  data := plainCli.json.stringify ⟨true, "2024-01-01T00:00:00.000Z"⟩
  links := [{ cid := "bafy", size := 1, name }]

theorem checkDir_oneLink (name : String) :
    plainCli.checkDir (some (oneLink name)) = .ok (oneLink name) :=
  plainCli.checkDir_stringify rfl

theorem Cli.downloadDir_inside_iff_out :
    (∀ es, Forks (plainCli.downloadDir "bafy" "out".toList { bucketId := 1 })
        (⟨.readDagNode (.new plainCli.base32 1 "bafy" .dagNode) {},
          (.ok (some (oneLink "a/b")) : Except JsError (Option DagNodeResponse))⟩ :: es) →
      ∀ e ∈ es, e.1.Inside ["home".toList] "out".toList) ↔
      ∀ link ∈ (oneLink "a/b").links,
        StaysInside (resolve ["home".toList] "out".toList) link.name.toList :=
  Cli.downloadDir_inside_iff plainCli ["home".toList] "bafy" "out".toList { bucketId := 1 }
    (oneLink "a/b") (checkDir_oneLink "a/b") (by decide)

/-- A link with the name `../x` is written next to the destination. -/
theorem Cli.downloadDir_outside :
    ¬ ∀ es, Forks (plainCli.downloadDir "bafy" "out".toList { bucketId := 1 })
        (⟨.readDagNode (.new plainCli.base32 1 "bafy" .dagNode) {},
          (.ok (some (oneLink "../x")) : Except JsError (Option DagNodeResponse))⟩ :: es) →
      ∀ e ∈ es, e.1.Inside ["home".toList] "out".toList := by
  intro h
  have hinside := staysInside_of_forks (checkDir_oneLink "../x") (by decide) h (.head _)
  exact absurd hinside (by decide)

end CereDdc
