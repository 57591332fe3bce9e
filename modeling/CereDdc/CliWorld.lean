import CereDdc.AcceptedFiles
import CereDdc.Cli
import CereDdc.Kit.Disk
import CereDdc.Kit.Schedule

/-!
# CliWorld — what the command line tool works in

The nodes accept what is well formed and give it back by its CID, and the file
system does what it is asked where it can. Nothing is said about the CIDs that
the nodes make, about the chunks that streams come in, and about the clock.
-/

namespace CereDdc

open Kit Program
open Kit.PosixPath

/-- `client.store` of a file whose content is read in these chunks. -/
def storeFile (storage : FileStorage) (bucketId : Nat) (chunks : List Bytes) (size : Nat)
    (options : StoreOptions) : FileRun :=
  { storage with bucketId }.store (File.new (.iterator chunks) size)
    { correlationId := options.correlationId, name := options.name }

/-- The request changes the file system. -/
def CliRequest.onDisk : CliRequest → Bool
  | .mkdir _ => true
  | .write _ _ => true
  | _ => false

/-- An environment of the tool, with what can be observed of its states. -/
structure CliWorld (cli : Cli) (cwd : Location) (σ : Type) where
  env : Environment CliRequest.Answer σ
  /-- the storage that a file goes to -/
  storage : σ → FileStorage
  /-- how a stream delivers a content -/
  chunks : σ → Bytes → List Bytes
  /-- the files of a bucket, by the texts of their CIDs -/
  files : σ → Nat → String → Option Bytes
  /-- the DAG nodes of a bucket -/
  nodes : σ → Nat → String → Option NodeMessage
  disk : σ → Disk Bytes
  accepts : ∀ s, (storage s).Accepts
  chunks_flatten : ∀ s content, (chunks s content).flatten = content
  keeps_files : ∀ s r bucketId cid content, files s bucketId cid = some content →
    files (env s r).2 bucketId cid = some content
  keeps_nodes : ∀ s r bucketId cid node, nodes s bucketId cid = some node →
    nodes (env s r).2 bucketId cid = some node
  keeps_disk : ∀ s r, r.onDisk = false → disk (env s r).2 = disk s
  storeFile_resolved : ∀ s bucketId path content size options cid,
    (storeFile (storage s) bucketId (chunks s content) size options).outcome = .resolved cid →
    (env s (.storeFile bucketId path content size options)).1
        = (.ok (cli.base32.encode cid) : Except JsError String) ∧
      32 < cid.length ∧
      files (env s (.storeFile bucketId path content size options)).2 bucketId
          (cli.base32.encode cid)
        = some (bodies
          (storeFile (storage s) bucketId (chunks s content) size options).stores).flatten
  storeFile_rejected : ∀ s bucketId path content size options e,
    (storeFile (storage s) bucketId (chunks s content) size options).outcome = .rejected e →
    (env s (.storeFile bucketId path content size options)).1
      = (.error e : Except JsError String)
  storeDagNode : ∀ s bucketId node options message,
    mapDagNodeToAPI cli.base32 node = .ok message → ∃ cid : Cid,
      (env s (.storeDagNode bucketId node options)).1
          = (.ok (cli.base32.encode cid) : Except JsError String) ∧
        32 < cid.length ∧
        nodes (env s (.storeDagNode bucketId node options)).2 bucketId (cli.base32.encode cid)
          = some message
  readFile : ∀ s uri options cid content, uri.cidOrName = .ok cid → cli.base32.isCid cid = true →
    files s uri.bucketId cid = some content →
    (env s (.readFile uri options)).1
      = (.ok ⟨chunks s content, none⟩ : Except JsError StreamBody)
  readDagNode : ∀ s uri options cid message, uri.cidOrName = .ok cid →
    cli.base32.isCid cid = true → nodes s uri.bucketId cid = some message →
    (env s (.readDagNode uri options)).1
      = (.ok (some (.new cli.base32 cid message)) : Except JsError (Option DagNodeResponse))
  mkdir : ∀ s path, ¬ (disk s).Blocked (resolve cwd path) →
    (env s (.mkdir path)).1 = (.ok () : Except JsError Unit) ∧
      disk (env s (.mkdir path)).2 = (disk s).withDirs (resolve cwd path)
  write : ∀ s path chunks, (disk s).Writable (resolve cwd path) →
    (env s (.write path ⟨chunks, none⟩)).1 = (.ok () : Except JsError Unit) ∧
      disk (env s (.write path ⟨chunks, none⟩)).2
        = (disk s).withFile (resolve cwd path) chunks.flatten

/-! ## Files -/

/-- The stream of a file that is read delivers its chunks. -/
theorem File.new_iterator (size : Nat) (chunks : List Bytes) :
    (File.new (.iterator chunks) size).body
        = { chunks := withChunkSize defaultChunkSize chunks } ∧
      (File.new (.iterator chunks) size).size = size := ⟨rfl, rfl⟩

/-! ## DAG nodes -/

theorem exists_mapM_links {base32 : Base32} {links : List Link}
    (h : ∀ link ∈ links, ∃ bytes, link.cid = base32.encode bytes) :
    ∃ messages, links.mapM (mapLinkToAPI base32) = .ok messages ∧
      messages.map (fun link =>
        { cid := base32.encode link.cid, size := link.size, name := link.name : Link }) = links := by
  induction links with
  | nil => exact ⟨[], rfl, rfl⟩
  | cons link links ih =>
    obtain ⟨bytes, hbytes⟩ := h link (by simp)
    obtain ⟨messages, hmessages, hlinks⟩ := ih fun other hother => h other (by simp [hother])
    have hlink : mapLinkToAPI base32 link
        = .ok { cid := bytes, name := link.name, size := link.size } := by
      unfold mapLinkToAPI
      rw [hbytes, base32.decode_encode]
      rfl
    refine ⟨{ cid := bytes, name := link.name, size := link.size } :: messages, ?_, ?_⟩
    · rw [List.mapM_cons, hlink, hmessages]
      rfl
    · rw [List.map_cons, hlinks, ← hbytes]

/-- A DAG node comes back as it was, when the texts of its links are those of their CIDs. -/
theorem exists_mapDagNodeToAPI {base32 : Base32} {node : DagNode}
    (h : ∀ link ∈ node.links, ∃ bytes, link.cid = base32.encode bytes) :
    ∃ message, mapDagNodeToAPI base32 node = .ok message ∧
      ∀ cid, DagNodeResponse.new base32 cid message = { node with cid } := by
  obtain ⟨links, hlinks, hmap⟩ := exists_mapM_links h
  refine ⟨{ data := node.data, links, tags := node.tags }, ?_, fun cid => ?_⟩
  · rw [mapDagNodeToAPI, hlinks]
    rfl
  · rw [DagNodeResponse.new, hmap]

namespace CliWorld

variable {cli : Cli} {cwd : Location} {σ : Type} (world : CliWorld cli cwd σ) {s t : σ}
  {bucketId size : Nat} {path : Path} {content : Bytes} {options : StoreOptions}

/-! ## What steps leave -/

/-- What the nodes have is kept, and the file system keeps to the plan. -/
structure Keeps (plan : Location → DiskEntry Bytes → Prop) (s t : σ) : Prop where
  files : ∀ bucketId cid content, world.files s bucketId cid = some content →
    world.files t bucketId cid = some content
  nodes : ∀ bucketId cid node, world.nodes s bucketId cid = some node →
    world.nodes t bucketId cid = some node
  disk : (world.disk s).KeepsTo plan (world.disk t)

variable {plan : Location → DiskEntry Bytes → Prop} {world}

theorem Keeps.refl (s : σ) : world.Keeps plan s s := ⟨fun _ _ _ h => h, fun _ _ _ h => h, .refl _⟩

theorem Keeps.trans {u : σ} (h : world.Keeps plan s t) (h' : world.Keeps plan t u) :
    world.Keeps plan s u where
  files := fun bucketId cid content hs => h'.files bucketId cid content (h.files _ _ _ hs)
  nodes := fun bucketId cid node hs => h'.nodes bucketId cid node (h.nodes _ _ _ hs)
  disk := h.disk.trans h'.disk

/-- A request that does to the file system what is planned. -/
theorem Keeps.planned {r : CliRequest}
    (h : (world.disk s).KeepsTo plan (world.disk (world.env s r).2)) :
    world.Keeps plan s (world.env s r).2 where
  files := world.keeps_files s r
  nodes := world.keeps_nodes s r
  disk := h

theorem Keeps.step {r : CliRequest} (h : r.onDisk = false) :
    world.Keeps plan s (world.env s r).2 := by
  refine .planned ?_
  rw [world.keeps_disk s r h]
  exact .refl _

variable (world)

/-! ## Files that are stored -/

/-- A text of a CID under which the nodes have the file. -/
structure HasFile (s : σ) (bucketId : Nat) (cid : String) (content : Bytes) : Prop where
  encoded : ∃ bytes : Cid, cid = cli.base32.encode bytes ∧ 32 < bytes.length
  stored : world.files s bucketId cid = some content

theorem HasFile.keeps {world : CliWorld cli cwd σ} {cid : String}
    (h : world.HasFile s bucketId cid content) (hst : world.Keeps plan s t) :
    world.HasFile t bucketId cid content := ⟨h.encoded, hst.files _ _ _ h.stored⟩

/-- A file with content is stored under a CID. -/
theorem storeFile_ok (hne : content ≠ []) : ∃ cid,
    (world.env s (.storeFile bucketId path content content.length options)).1
        = (.ok cid : Except JsError String) ∧
      world.HasFile (world.env s (.storeFile bucketId path content content.length options)).2
        bucketId cid content := by
  obtain ⟨hbody, hsize⟩ := File.new_iterator content.length
    (world.chunks s content)
  have hflatten : (withChunkSize defaultChunkSize (world.chunks s content)).flatten = content := by
    rw [withChunkSize_flatten, world.chunks_flatten]
  have haccepts : ({ world.storage s with bucketId } : FileStorage).Accepts := world.accepts s
  obtain ⟨cid, hcid, hstored⟩ := FileStorage.store_accepts haccepts
    { correlationId := options.correlationId, name := options.name } hbody
    (by rw [hsize, hflatten]) (by rw [hflatten]; exact hne)
  obtain ⟨hanswer, hlength, hfiles⟩ := world.storeFile_resolved s bucketId path content
    content.length options cid hcid
  refine ⟨cli.base32.encode cid, hanswer, ⟨cid, rfl, hlength⟩, hfiles.trans ?_⟩
  exact congrArg some (hstored.trans hflatten)

/-- An empty file is refused. -/
theorem storeFile_empty : ∃ e,
    (world.env s (.storeFile bucketId path [] 0 options)).1
      = (.error e : Except JsError String) := by
  obtain ⟨hbody, hsize⟩ := File.new_iterator 0 (world.chunks s [])
  have haccepts : ({ world.storage s with bucketId } : FileStorage).Accepts := world.accepts s
  refine ⟨FileStorage.emptyPieceError,
    world.storeFile_rejected s bucketId path [] 0 options FileStorage.emptyPieceError ?_⟩
  refine FileStorage.store_empty haccepts hbody hsize ?_
  rw [withChunkSize_flatten, world.chunks_flatten]

/-- A URI of a CID is one of that CID, in its bucket. -/
theorem uri_encode {bytes : Cid} {entity : DdcEntity} {name : Option String}
    (hlength : 32 < bytes.length) :
    let cid := cli.base32.encode bytes
    let uri := DdcUri.new cli.base32 bucketId cid entity name
    cli.base32.isCid cid = true ∧ uri.cid = cid ∧ uri.cidOrName = .ok cid ∧
      uri.bucketId = bucketId := by
  intro cid uri
  have hcid : cli.base32.isCid cid = true :=
    Base32.isCid_iff.mpr ⟨bytes, cli.base32.decode_encode bytes, hlength⟩
  have huri : uri = { cid, name, bucketId, entity } := if_pos hcid
  refine ⟨hcid, by rw [huri], ?_, by rw [huri]⟩
  rw [huri, DdcUri.cidOrName]
  dsimp only
  rw [if_neg (cli.base32.encode_ne bytes)]

/-- What is stored is given back. -/
theorem readFile_ok {cid : String} {operation : OperationOptions}
    (h : world.HasFile s bucketId cid content) : ∃ chunks : List Bytes, chunks.flatten = content ∧
    (world.env s (.readFile (.new cli.base32 bucketId cid .file) operation)).1
      = (.ok ⟨chunks, none⟩ : Except JsError StreamBody) := by
  obtain ⟨bytes, rfl, hlength⟩ := h.encoded
  obtain ⟨hcid, -, huri, hbucket⟩ := @uri_encode cli bucketId bytes .file none hlength
  refine ⟨world.chunks s content, world.chunks_flatten s content, ?_⟩
  refine world.readFile s _ operation _ content huri hcid ?_
  rw [hbucket]
  exact h.stored

/-! ## DAG nodes that are stored -/

/-- A text of a CID under which the nodes have the DAG node. -/
structure HasNode (s : σ) (bucketId : Nat) (cid : String) (node : DagNode) : Prop where
  encoded : ∃ bytes : Cid, cid = cli.base32.encode bytes ∧ 32 < bytes.length
  stored : ∃ message, world.nodes s bucketId cid = some message ∧
    DagNodeResponse.new cli.base32 cid message = { node with cid }

/-- A DAG node is stored, with links that have texts of CIDs. -/
theorem storeDagNode_ok {node : DagNode}
    (hlinks : ∀ link ∈ node.links, ∃ bytes, link.cid = cli.base32.encode bytes) : ∃ cid,
    (world.env s (.storeDagNode bucketId node options)).1 = (.ok cid : Except JsError String) ∧
      world.HasNode (world.env s (.storeDagNode bucketId node options)).2 bucketId cid node := by
  obtain ⟨message, hmessage, hnew⟩ := exists_mapDagNodeToAPI hlinks
  obtain ⟨cid, hanswer, hlength, hstored⟩ :=
    world.storeDagNode s bucketId node options message hmessage
  exact ⟨cli.base32.encode cid, hanswer, ⟨cid, rfl, hlength⟩, message, hstored, hnew _⟩

theorem readDagNode_ok {cid : String} {node : DagNode} {operation : OperationOptions}
    (h : world.HasNode s bucketId cid node) :
    (world.env s (.readDagNode (.new cli.base32 bucketId cid .dagNode) operation)).1
      = (.ok (some { node with cid }) : Except JsError (Option DagNodeResponse)) := by
  obtain ⟨bytes, rfl, hlength⟩ := h.encoded
  obtain ⟨message, hstored, hnew⟩ := h.stored
  obtain ⟨hcid, -, huri, hbucket⟩ := @uri_encode cli bucketId bytes .dagNode none hlength
  rw [← hnew]
  refine world.readDagNode s _ operation _ message huri hcid ?_
  rw [hbucket]
  exact hstored

end CliWorld

end CereDdc
