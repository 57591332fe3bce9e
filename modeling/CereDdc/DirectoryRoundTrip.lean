import CereDdc.CliLog
import CereDdc.CliPaths
import CereDdc.ListedFiles

/-!
# DirectoryRoundTrip — directories that are uploaded and downloaded again

The uploads of the files take turns, and so do the downloads. The two halves meet
at the links: each leads to the bytes of one visible file and has the way to it as
its name.
-/

namespace CereDdc

open Kit Program
open Kit.PosixPath

namespace CliWorld

variable {cli : Cli} {cwd : Location} {σ : Type} (world : CliWorld cli cwd σ)

/-! ## Links -/

/-- The link leads to the bytes of the file and says where it belongs. -/
structure LinksTo (s : σ) (bucketId : Nat) (link : Link) (target : Disk.Target Bytes) : Prop where
  file : world.HasFile s bucketId link.cid target.2
  name : link.name = .ofList (['/'].intercalate target.1)

/-- The links lead to the files, in the same order. -/
structure LinksAll (s : σ) (bucketId : Nat) (links : List Link)
    (targets : List (Disk.Target Bytes)) : Prop where
  length : links.length = targets.length
  leads : ∀ (i : Nat) link target, links[i]? = some link → targets[i]? = some target →
    world.LinksTo s bucketId link target

variable {world} {s t : σ} {bucketId : Nat} {links : List Link}
  {targets : List (Disk.Target Bytes)} {target : Disk.Target Bytes} {options : CliOptions}
  {plan : Location → DiskEntry Bytes → Prop} {content : Bytes} {dest path : Path} {link : Link}

theorem LinksTo.keeps (h : world.LinksTo s bucketId link target) (hst : world.Keeps plan s t) :
    world.LinksTo t bucketId link target := ⟨h.file.keeps hst, h.name⟩

theorem LinksAll.keeps (h : world.LinksAll s bucketId links targets)
    (hst : world.Keeps plan s t) : world.LinksAll t bucketId links targets :=
  ⟨h.length, fun i link target hlink htarget => (h.leads i link target hlink htarget).keeps hst⟩

theorem LinksAll.exists_encode (h : world.LinksAll s bucketId links targets) :
    ∀ link ∈ links, ∃ bytes, link.cid = cli.base32.encode bytes := by
  intro link hlink
  obtain ⟨i, hi⟩ := List.mem_iff_getElem?.mp hlink
  have hlt : i < targets.length := h.length ▸ (List.getElem?_eq_some_iff.mp hi).1
  obtain ⟨bytes, hbytes, -⟩ :=
    (h.leads i link _ hi (List.getElem?_eq_getElem hlt)).file.encoded
  exact ⟨bytes, hbytes⟩

/-! ## Uploads -/

/-- The upload of a file with content comes to a link, and leaves the file system alone. -/
theorem sure_uploadFileLink (hne : content ≠ []) :
    Sure world.env (world.Keeps fun _ _ => False)
      (fun link t => world.HasFile t options.bucketId link.cid content ∧
        link.name = .ofList (relative cwd path dest))
      (cli.uploadFileLink cwd path dest content options) s := by
  intro t _
  obtain ⟨cid, hanswer, hfile⟩ := @storeFile_ok cli cwd σ world t options.bucketId dest content
    { options.operation with name := none } hne
  refine ⟨.step rfl, ?_⟩
  dsimp only [CliOptions.operation] at hanswer hfile ⊢
  rw [hanswer]
  intro u hu
  obtain ⟨bytes, rfl, hlength⟩ := hfile.encoded
  obtain ⟨-, huri, -⟩ := @uri_encode cli options.bucketId bytes .file none hlength
  refine ⟨?_, rfl⟩
  rw [huri]
  exact hfile.keeps hu

/-- The upload of an empty file fails. -/
theorem fails_uploadFileLink :
    Fails world.env (cli.uploadFileLink cwd path dest [] options) := by
  intro s
  obtain ⟨e, hanswer⟩ := @storeFile_empty cli cwd σ world s options.bucketId dest
    { options.operation with name := none }
  dsimp only [CliOptions.operation] at hanswer ⊢
  rw [List.length_nil, hanswer]
  trivial

/-- The uploads of a directory without empty visible files come to the links of those files. -/
theorem allEnd_uploadDirLinks {entries : Listing} {Q : List Link → σ → Prop}
    (hpath : path ≠ []) (hentries : entries.WellFormed) (hne : ∀ file ∈ entries.visible, file.2 ≠ [])
    (hQ : ∀ links t, world.disk t = world.disk s →
      world.LinksAll t options.bucketId links entries.visible → Q links t) :
    AllEnd world.env Q (cli.uploadDirLinks cwd path options path entries) s := by
  refine AllSure.allEnd (R := world.Keeps fun _ _ => False)
    (Q := fun i link t => ∀ file, entries.visible[i]? = some file →
      world.LinksTo t options.bucketId link file)
    .refl (fun _ _ _ => .trans) ?_ ?_
  · intro i job hi
    rw [Cli.uploadDirLinks_eq, List.getElem?_map] at hi
    obtain ⟨file, hfile, rfl⟩ := Option.map_eq_some_iff.mp hi
    have hmem := List.mem_of_getElem? hfile
    refine Sure.imp (sure_uploadFileLink (hne file hmem)) fun link t hlink other hother => ?_
    obtain rfl : file = other := Option.some.inj (hfile.symm.trans hother)
    refine ⟨hlink.1, hlink.2.trans ?_⟩
    rw [relative_pathBelow hpath]
    exact Listing.fileName_of_mem hentries (Listing.mem_files_of_visible hmem)
  · intro links t hst hlength hlinks
    refine hQ links t hst.disk.eq_of_nothing ⟨?_, fun i link file hi => hlinks i link hi file⟩
    rw [hlength, Cli.uploadDirLinks_eq, List.length_map]

/-- The DAG node of the directory is stored with the links. -/
theorem run_uploadDirRoot (h : world.LinksAll s options.bucketId links targets) :
    ∃ cid t updateTime, run world.env (cli.uploadDirRoot options links) s = (.ok cid, t) ∧
      world.Keeps (fun _ _ => False) s t ∧
      world.HasNode t options.bucketId cid
        { data := cli.json.stringify ⟨true, updateTime⟩, links } := by
  let dated := (world.env s .date).2
  let updateTime : String := (world.env s .date).1
  let node : DagNode := { data := cli.json.stringify ⟨true, updateTime⟩, links }
  let stored : StoreOptions := { options.operation with name := options.name }
  obtain ⟨cid, hanswer, hnode⟩ := @storeDagNode_ok cli cwd σ world dated options.bucketId stored
    node h.exists_encode
  obtain ⟨bytes, rfl, hlength⟩ := hnode.encoded
  obtain ⟨-, huri, -⟩ := @uri_encode cli options.bucketId bytes .dagNode options.name hlength
  let r := CliRequest.storeDagNode options.bucketId node stored
  refine ⟨cli.base32.encode bytes, (world.env dated r).2, updateTime, ?_, ?_, hnode⟩
  · change run world.env ((Program.ofExcept (world.env dated r).1) >>= fun cid =>
      .done (DdcUri.new cli.base32 options.bucketId cid .dagNode options.name).cid) _ = _
    rw [hanswer, ofExcept_ok, done_bind, huri]
    rfl
  · exact (Keeps.step (s := s) (r := .date) rfl).trans (.step rfl)

/-! ## Downloads -/

/-- The files are being put below a directory that had nothing in it. -/
structure Filling (world : CliWorld cli cwd σ) (location : Location)
    (targets : List (Disk.Target Bytes)) (s : σ) : Prop where
  apart : Disk.Targets targets
  keeps : ∃ planned, (world.disk planned).Free location ∧
    world.Keeps (Disk.planFor location targets) planned s

namespace Filling

variable {location : Location}

theorem mono (h : world.Filling location targets s)
    (hst : world.Keeps (Disk.planFor location targets) s t) :
    world.Filling location targets t := by
  obtain ⟨planned, hfree, hkeeps⟩ := h.keeps
  exact ⟨h.apart, planned, hfree, hkeeps.trans hst⟩

/-- The directory of a file can be made. -/
theorem mkdir (h : world.Filling location targets s) (htarget : target ∈ targets)
    (hpath : resolve cwd path = location ++ target.1.dropLast) :
    (world.env s (.mkdir path)).1 = (.ok () : Except JsError Unit) ∧
      world.Keeps (Disk.planFor location targets) s (world.env s (.mkdir path)).2 ∧
      world.disk (world.env s (.mkdir path)).2 (location ++ target.1.dropLast) = some .dir := by
  obtain ⟨planned, hfree, hkeeps⟩ := h.keeps
  have hblocked := hfree.not_blocked_dropLast h.apart hkeeps.disk htarget
  obtain ⟨hanswer, hdisk⟩ := world.mkdir s path (by rw [hpath]; exact hblocked)
  rw [hpath] at hdisk
  refine ⟨hanswer, .planned ?_, ?_⟩
  · rw [hdisk]
    exact .withDirs hblocked fun l hl => .inr ⟨target, htarget, hl⟩
  · rw [hdisk]
    exact Disk.withDirs_above (List.prefix_refl _)

/-- A file can be written once its directory is there. -/
theorem write (h : world.Filling location targets s) (htarget : target ∈ targets)
    (hpath : resolve cwd path = location ++ target.1)
    (hdir : world.disk s (location ++ target.1.dropLast) = some .dir) {chunks : List Bytes}
    (hchunks : chunks.flatten = target.2) :
    let r := CliRequest.write path ⟨chunks, none⟩
    (world.env s r).1 = (.ok () : Except JsError Unit) ∧
      world.Keeps (Disk.planFor location targets) s (world.env s r).2 ∧
      world.disk (world.env s r).2 (location ++ target.1) = some (.file target.2) := by
  intro r
  obtain ⟨planned, hfree, hkeeps⟩ := h.keeps
  have hne := h.apart.ne_nil target htarget
  have hentry : ∀ entry, world.disk s (location ++ target.1) = some entry →
      entry = .file target.2 := fun entry =>
    hfree.entry_eq h.apart hkeeps.disk htarget
  have hwritable : (world.disk s).Writable (resolve cwd path) := by
    rw [hpath]
    refine ⟨?_, List.append_ne_nil_of_right_ne_nil _ hne, fun hentry' => ?_⟩
    · rw [List.dropLast_append_of_ne_nil hne]
      exact hdir
    · cases hentry _ hentry'
  obtain ⟨hanswer, hdisk⟩ := world.write s path chunks hwritable
  rw [hpath, hchunks] at hdisk
  refine ⟨hanswer, .planned ?_, ?_⟩
  · rw [hdisk]
    exact .withFile hentry ⟨target.1, htarget, rfl⟩
  · rw [hdisk]
    exact Disk.withFile_self

end Filling

/-- The download of a link puts the bytes where they belong, next to the other downloads. -/
theorem sure_downloadFile (hdest : dest ≠ []) (hnames : ∀ name ∈ target.1, Listing.FileName name)
    (hfilling : world.Filling (resolve cwd dest) targets s) (htarget : target ∈ targets)
    (hlink : world.LinksTo s options.bucketId link target) :
    Sure world.env (world.Keeps (Disk.planFor (resolve cwd dest) targets))
      (fun _ t => world.disk t (resolve cwd dest ++ target.1) = some (.file target.2))
      (cli.downloadFile link.cid (join [dest, link.name.toList]) options) s := by
  have hname : link.name.toList = ['/'].intercalate target.1 := by
    rw [hlink.name, String.toList_ofList]
  have hpath := @resolve_join_down cwd _ _ hdest hnames
  have hdirname := @resolve_dirname_join cwd _ _ hdest
    (hfilling.apart.ne_nil target htarget) hnames
  rw [hname]
  -- the directory
  intro t hst
  obtain ⟨hmkdir, hkeepsDir, hdir⟩ := (hfilling.mono hst).mkdir htarget hdirname
  refine ⟨hkeepsDir, ?_⟩
  rw [hmkdir]
  -- the content
  intro u htu
  have hsu := (hst.trans hkeepsDir).trans htu
  obtain ⟨chunks, hchunks, hread⟩ := @readFile_ok cli cwd σ world u options.bucketId target.2
    link.cid options.operation (hlink.file.keeps hsu)
  refine ⟨.step rfl, ?_⟩
  rw [hread]
  -- the file
  intro v huv
  have hsv := (hsu.trans (.step rfl)).trans huv
  have hdirAt := ((htu.trans (.step rfl)).trans huv).disk.keeps _ _ hdir
  obtain ⟨hwrite, hkeepsFile, hfile⟩ := (hfilling.mono hsv).write htarget hpath hdirAt hchunks
  refine ⟨hkeepsFile, ?_⟩
  rw [hwrite]
  exact fun w hvw => hvw.disk.keeps _ _ hfile

/-- The destination is made, and the downloads of the links are started. -/
theorem run_downloadDir (targets : List (Disk.Target Bytes)) {source updateTime : String}
    (hfree : (world.disk s).Free (resolve cwd dest))
    (hnode : world.HasNode s options.bucketId source
      { data := cli.json.stringify ⟨true, updateTime⟩, links }) : ∃ t,
    run world.env (cli.downloadDir source dest options) s
        = (.ok (links.map fun link =>
            cli.downloadFile link.cid (join [dest, link.name.toList]) options), t) ∧
      world.Keeps (Disk.planFor (resolve cwd dest) targets) s t := by
  let node : DagNode := { data := cli.json.stringify ⟨true, updateTime⟩, links }
  let read := CliRequest.readDagNode (.new cli.base32 options.bucketId source .dagNode)
    options.operation
  let t := (world.env s read).2
  have hnot : ¬ (world.disk t).Blocked (resolve cwd dest) := by
    rw [world.keeps_disk s read rfl]
    exact hfree.not_blocked
  obtain ⟨hmkdir, hwithDirs⟩ := world.mkdir t dest hnot
  refine ⟨(world.env t (.mkdir dest)).2, ?_, .trans (t := t) (.step rfl) (.planned ?_)⟩
  · change run world.env (Program.ofExcept (world.env s read).1 >>= _) t = _
    rw [world.readDagNode_ok hnode, ofExcept_ok, done_bind]
    change run world.env (Program.ofExcept (cli.checkDir (some { node with cid := source })) >>= _)
      t = _
    rw [cli.checkDir_stringify rfl, ofExcept_ok, done_bind]
    change run world.env (Program.ofExcept (world.env t (.mkdir dest)).1 >>= _) _ = _
    rw [hmkdir]
    rfl
  · rw [hwithDirs]
    exact .withDirs hnot fun l hl => .inl hl

/-- The downloads put all the files where they belong. -/
theorem allEnd_downloads {Q : List Unit → σ → Prop} (hdest : dest ≠ [])
    (hnames : ∀ target ∈ targets, ∀ name ∈ target.1, Listing.FileName name)
    (hfilling : world.Filling (resolve cwd dest) targets s)
    (hlinks : world.LinksAll s options.bucketId links targets)
    (hQ : ∀ as t, world.Keeps (Disk.planFor (resolve cwd dest) targets) s t →
      (∀ target ∈ targets, world.disk t (resolve cwd dest ++ target.1) = some (.file target.2)) →
      Q as t) :
    AllEnd world.env Q (links.map fun link =>
      cli.downloadFile link.cid (join [dest, link.name.toList]) options) s := by
  refine AllSure.allEnd (R := world.Keeps (Disk.planFor (resolve cwd dest) targets))
    (Q := fun i _ t => ∀ target, targets[i]? = some target →
      world.disk t (resolve cwd dest ++ target.1) = some (.file target.2))
    .refl (fun _ _ _ => .trans) ?_ ?_
  · intro i job hi
    rw [List.getElem?_map] at hi
    obtain ⟨link, hlink, rfl⟩ := Option.map_eq_some_iff.mp hi
    have hlt : i < targets.length := hlinks.length ▸ (List.getElem?_eq_some_iff.mp hlink).1
    have htarget := List.getElem?_eq_getElem hlt
    have hmem := List.mem_of_getElem? htarget
    refine (sure_downloadFile hdest (hnames _ hmem) hfilling hmem
      (hlinks.leads i link _ hlink htarget)).imp fun _ t hfile other hother => ?_
    obtain rfl := Option.some.inj (htarget.symm.trans hother)
    exact hfile
  · intro as t hst hlength hfiles
    refine hQ as t hst fun target htarget => ?_
    obtain ⟨i, hi⟩ := List.mem_iff_getElem?.mp htarget
    have hlt : i < as.length := by
      rw [hlength, List.length_map, hlinks.length]
      exact (List.getElem?_eq_some_iff.mp hi).1
    exact hfiles i _ (List.getElem?_eq_getElem hlt) target hi

/-- `downloadDir` of the CID in this state puts these files below the destination and changes no
other file. -/
def Downloads (world : CliWorld cli cwd σ) (source : String) (dest : Path) (options : CliOptions)
    (targets : List (Disk.Target Bytes)) (s : σ) : Prop :=
  ∃ jobs t, run world.env (cli.downloadDir source dest options) s = (.ok jobs, t) ∧
    AllEnd world.env (fun _ u => ∀ l content, world.disk u l = some (.file content) ↔
      world.disk s l = some (.file content) ∨
        ∃ names, (names, content) ∈ targets ∧ l = resolve cwd dest ++ names) jobs t

/-- A directory whose links lead to files is downloaded with those files. -/
theorem downloads_of_links {source updateTime : String} (hdest : dest ≠ [])
    (htargets : Disk.Targets targets)
    (hnames : ∀ target ∈ targets, ∀ name ∈ target.1, Listing.FileName name)
    (hfree : (world.disk s).Free (resolve cwd dest))
    (hlinks : world.LinksAll s options.bucketId links targets)
    (hnode : world.HasNode s options.bucketId source
      { data := cli.json.stringify ⟨true, updateTime⟩, links }) :
    world.Downloads source dest options targets s := by
  obtain ⟨t, hrun, hst⟩ := run_downloadDir targets hfree hnode
  refine ⟨_, t, hrun, ?_⟩
  refine allEnd_downloads hdest hnames ⟨htargets, s, hfree, hst⟩ (hlinks.keeps hst) ?_
  intro as u htu hfiles l content
  have hsu := (hst.trans htu).disk
  constructor
  · exact hsu.planned l (.file content)
  · intro h
    rcases h with hold | ⟨names, hmem, rfl⟩
    · exact hsu.keeps l _ hold
    · exact hfiles _ hmem

/-! ## The round trip -/

/-- `uploadDir` of a directory with these entries succeeds, whatever the order in which the uploads
take turns, and `downloadDir` of its CID gives the visible files back. -/
def RoundTrips (world : CliWorld cli cwd σ) (s : σ) (path dest : Path)
    (options reading : CliOptions) (entries : Listing) : Prop :=
  AllEnd world.env (fun links t => ∃ cid u,
      run world.env ((cli.uploadDir cwd path options entries).2 links) t = (.ok cid, u) ∧
        world.Downloads cid dest reading entries.visible u)
    (cli.uploadDir cwd path options entries).1 s

variable {reading : CliOptions} {entries : Listing}

theorem roundTrips_of_content (hfree : (world.disk s).Free (resolve cwd dest)) (hpath : path ≠ [])
    (hdest : dest ≠ []) (hentries : entries.WellFormed)
    (hbucket : reading.bucketId = options.bucketId)
    (hne : ∀ file ∈ entries.visible, file.2 ≠ []) :
    world.RoundTrips s path dest options reading entries := by
  refine allEnd_uploadDirLinks hpath hentries hne fun links t hdisk hlinks => ?_
  obtain ⟨cid, u, updateTime, hrun, htu, hnode⟩ := run_uploadDirRoot hlinks
  have hstored := hlinks.keeps htu
  rw [← hbucket] at hstored hnode
  have hempty : (world.disk u).Free (resolve cwd dest) := by
    rw [htu.disk.eq_of_nothing, hdisk]
    exact hfree
  refine ⟨cid, u, hrun, ?_⟩
  exact downloads_of_links hdest (Listing.targets hentries) (fun target htarget =>
    Listing.fileName_of_mem hentries (Listing.mem_files_of_visible htarget)) hempty hstored hnode

/-- An empty file that is visible makes the whole upload fail. -/
theorem content_of_roundTrips (h : world.RoundTrips s path dest options reading entries) :
    ∀ file ∈ entries.visible, file.2 ≠ [] := by
  intro file hfile hempty
  refine Fails.not_allEnd (p := cli.uploadFileLink cwd path (pathBelow path file.1) [] options)
    fails_uploadFileLink ?_ h
  show _ ∈ cli.uploadDirLinks cwd path options path entries
  rw [Cli.uploadDirLinks_eq]
  refine List.mem_map.mpr ⟨file, hfile, ?_⟩
  rw [hempty]

/-- **The round trip of a directory** into an empty one is exact for the directories without empty
visible files, and for no others. -/
theorem roundTrips_iff (world : CliWorld cli cwd σ) (s : σ) (path dest : Path)
    (options reading : CliOptions) (entries : Listing)
    (hfree : (world.disk s).Free (resolve cwd dest)) (hpath : path ≠ []) (hdest : dest ≠ [])
    (hentries : entries.WellFormed) (hbucket : reading.bucketId = options.bucketId) :
    world.RoundTrips s path dest options reading entries ↔
      ∀ file ∈ entries.visible, file.2 ≠ [] :=
  ⟨content_of_roundTrips, roundTrips_of_content hfree hpath hdest hentries hbucket⟩

/-- A directory with a file two levels down, and an empty file that is hidden. -/
def docs : Listing :=
  .dir "docs".toList (.file "a.txt".toList [104, 105] .nil) (.file ".keep".toList [] .nil)

/-- The tool in the directory `home`, with nodes that keep a log. -/
def plainWorld : CliWorld plainCli ["home".toList] CliLog := CliLog.world plainCli ["home".toList]

theorem plainWorld_free (location : Location) : (plainWorld.disk {}).Free location := by
  refine ⟨fun hblocked => ?_, fun _ _ => rfl⟩
  obtain ⟨above, content, -, he⟩ := hblocked
  cases he

theorem roundTrips_iff_docs :
    plainWorld.RoundTrips {} "site".toList "out".toList { bucketId := 1 } { bucketId := 1 } docs ↔
      ∀ file ∈ docs.visible, file.2 ≠ [] :=
  roundTrips_iff plainWorld {} "site".toList "out".toList { bucketId := 1 } { bucketId := 1 } docs
    (plainWorld_free _) (by decide) (by decide) (by decide) rfl

/-- A directory with one file, which is empty, is not uploaded. -/
theorem emptyFile_not_roundTrips :
    ¬ plainWorld.RoundTrips {} "site".toList "out".toList { bucketId := 1 } { bucketId := 1 }
      (.file "a.txt".toList [] .nil) := by
  intro h
  exact content_of_roundTrips h (["a.txt".toList], []) (by decide) rfl

end CliWorld

end CereDdc
