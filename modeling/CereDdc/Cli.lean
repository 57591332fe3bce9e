import CereDdc.Kit.Parallel
import CereDdc.Kit.PosixPath
import CereDdc.NodeClient
import Mathlib.Data.Rat.Defs

/-!
# Cli — `cli/src/upload`, `cli/src/download`

Directories that are uploaded as a DAG node with a link for each file, and
downloaded again. The command line tool asks for what the DDC client, the file
system and the clock do.
-/

namespace CereDdc

open Kit Program
open Kit.PosixPath (Location Path Name join dirname relative)

/-! ## JSON -/

/-- The values of `JSON.parse`. -/
inductive Json
  | null
  | bool (value : Bool)
  | number (value : Rat)
  | string (value : String)
  | array (items : List Json)
  | object (fields : List (String × Json))

def Json.truthy : Json → Bool
  | null => false
  | bool value => value
  | number value => value ≠ 0
  | string value => value ≠ ""
  | array _ => true
  | object _ => true

structure RootDagNodeData where
  isCLIDir : Bool
  updateTime : String
  deriving DecidableEq, Repr

/-- `isCLIDirData(data)`; on a value that is no object, `in` throws. -/
def isCLIDirData : Json → Except JsError Bool
  | .object fields => .ok ((fields.lookup "isCLIDir").elim false Json.truthy)
  | .array _ => .ok false
  | _ => .error (.error "Cannot use 'in' operator to search for 'isCLIDir'")

/-- `JSON` between values and the bytes of a buffer. -/
structure JsonCodec where
  parse : Bytes → Except JsError Json
  stringify : RootDagNodeData → Bytes
  parse_stringify : ∀ data, parse (stringify data) =
    .ok (.object [("isCLIDir", .bool data.isCLIDir), ("updateTime", .string data.updateTime)])

/-- What stands in front of the time in the text of the data of a directory. -/
def rootDagNodeHead (isCLIDir : Bool) : List Char :=
  ['\x7b', '"', 'i', 's', 'C', 'L', 'I', 'D', 'i', 'r', '"', ':'] ++
    (if isCLIDir then ['t', 'r', 'u', 'e'] else ['f', 'a', 'l', 's', 'e']) ++
    [',', '"', 'u', 'p', 'd', 'a', 't', 'e', 'T', 'i', 'm', 'e', '"', ':', '"']

def rootDagNodeText (data : RootDagNodeData) : List Char :=
  rootDagNodeHead data.isCLIDir ++ (data.updateTime.toList ++ ['"', '\x7d'])

/-- The data of a directory with this flag, if the text begins like it. -/
def parseRootDagNode (chars : List Char) (isCLIDir : Bool) : Option Json := do
  let rest ← (rootDagNodeHead isCLIDir).isPrefixOf? chars
  let updateTime ← ['"', '\x7d'].isSuffixOf? rest
  some (.object [("isCLIDir", .bool isCLIDir), ("updateTime", .string (.ofList updateTime))])

theorem isPrefixOf?_append {α : Type} [BEq α] [ReflBEq α] (l t : List α) :
    l.isPrefixOf? (l ++ t) = some t := by
  induction l with
  | nil => rfl
  | cons x l ih => simp [List.isPrefixOf?, ih]

theorem isSuffixOf?_append {α : Type} [BEq α] [ReflBEq α] (l t : List α) :
    l.isSuffixOf? (t ++ l) = some t := by
  rw [List.isSuffixOf?, List.reverse_append, isPrefixOf?_append, Option.map_some,
    List.reverse_reverse]

theorem parseRootDagNode_text (data : RootDagNodeData) :
    parseRootDagNode (rootDagNodeText data) data.isCLIDir =
      some (.object
        [("isCLIDir", .bool data.isCLIDir), ("updateTime", .string data.updateTime)]) := by
  rw [parseRootDagNode, rootDagNodeText, isPrefixOf?_append]
  simp only [Option.bind_eq_bind, Option.bind_some]
  rw [isSuffixOf?_append, Option.bind_some, String.ofList_toList]

theorem decode_utf8_ofList (chars : List Char) :
    (ByteArray.mk (utf8 (.ofList chars)).toArray).utf8Decode? = some chars.toArray := by
  have hbytes : ByteArray.mk (utf8 (.ofList chars)).toArray = chars.utf8Encode := by
    rw [utf8, Array.toArray_toList]
    exact String.toByteArray_ofList
  rw [hbytes, List.utf8Decode?_utf8Encode]

/-- The texts that the tool itself writes, with times that need no escapes. -/
def JsonCodec.rootDagNode : JsonCodec where
  parse bytes :=
    let refused : JsError := .error "Unexpected token"
    match (ByteArray.mk bytes.toArray).utf8Decode? with
    | none => .error refused
    | some chars =>
      match parseRootDagNode chars.toList true <|> parseRootDagNode chars.toList false with
      | some json => .ok json
      | none => .error refused
  stringify data := utf8 (.ofList (rootDagNodeText data))
  parse_stringify data := by
    rw [decode_utf8_ofList]
    dsimp only
    have hparse := parseRootDagNode_text data
    obtain ⟨flag, updateTime⟩ := data
    cases flag with
    | true => rw [hparse]; rfl
    | false =>
      have hother : parseRootDagNode (rootDagNodeText ⟨false, updateTime⟩) true = none := rfl
      rw [hother, hparse]
      rfl

/-! ## Directories -/

/-- What `readdir` and `stat` tell of a directory, entry by entry. -/
inductive Listing
  | nil
  | file (name : Name) (content : Bytes) (rest : Listing)
  | dir (name : Name) (entries rest : Listing)

/-- `fileName.startsWith('.')` -/
def hidden (fileName : Name) : Bool := fileName.head? == some '.'

/-! ## Requests -/

structure CliOptions where
  bucketId : Nat
  name : Option String := none
  accessToken : Option TokenInput := none
  correlationId : Option String := none

def CliOptions.operation (options : CliOptions) : OperationOptions :=
  { accessToken := options.accessToken, correlationId := options.correlationId }

/-- What the tool asks of its environment. -/
inductive CliRequest
  /-- `client.read` of a DAG node -/
  | readDagNode (uri : DdcUri) (options : OperationOptions)
  /-- `client.read` of a file -/
  | readFile (uri : DdcUri) (options : OperationOptions)
  /-- `client.store` of the file at `path`, which is read while it is stored -/
  | storeFile (bucketId : Nat) (path : Path) (content : Bytes) (size : Nat)
    (options : StoreOptions)
  /-- `client.store` of a DAG node -/
  | storeDagNode (bucketId : Nat) (node : DagNode) (options : StoreOptions)
  /-- `mkdir(path, { recursive: true })` -/
  | mkdir (path : Path)
  /-- `pipeline(body, createWriteStream(path))` -/
  | write (path : Path) (body : StreamBody)
  /-- `new Date().toISOString()` -/
  | date

/-- What comes back; what is stored is known by the text of its CID. -/
def CliRequest.Answer : CliRequest → Type
  | readDagNode _ _ => Except JsError (Option DagNodeResponse)
  | readFile _ _ => Except JsError StreamBody
  | storeFile _ _ _ _ _ => Except JsError String
  | storeDagNode _ _ _ => Except JsError String
  | mkdir _ => Except JsError Unit
  | write _ _ => Except JsError Unit
  | date => String

instance (r : CliRequest) : Inhabited r.Answer where
  default :=
    match r with
    | .readDagNode _ _ => .error (.error "")
    | .readFile _ _ => .error (.error "")
    | .storeFile _ _ _ _ _ => .error (.error "")
    | .storeDagNode _ _ _ => .error (.error "")
    | .mkdir _ => .ok ()
    | .write _ _ => .ok ()
    | .date => ("" : String)

/-- A program of the tool. -/
abbrev CliProgram := Program CliRequest.Answer JsError

/-- The packages that the tool uses. -/
structure Cli where
  base32 : Base32
  json : JsonCodec

namespace Cli

/-- `await` on what may be rejected. -/
def await {α : Type} (p : CliProgram (Except JsError α)) : CliProgram α := p >>= Program.ofExcept

variable (cli : Cli)

/-! ## Uploads -/

/-- `uploadFile(client, path, stats, options)`, for a file with this content -/
def uploadFile (path : Path) (content : Bytes) (size : Nat) (options : CliOptions) :
    CliProgram String := do
  let stored := { options.operation with name := options.name }
  let cid ← await (.request (CliRequest.storeFile options.bucketId path content size stored))
  let fileUri := DdcUri.new cli.base32 options.bucketId cid .file options.name
  return fileUri.cid

/-- `uploadFileLink(client, bucketId, rootDir, filePath, stats, options)`; the name of the options
is for the directory. -/
def uploadFileLink (cwd : Location) (rootDir filePath : Path) (content : Bytes)
    (options : CliOptions) : CliProgram Link := do
  let size := content.length
  let cid ← cli.uploadFile filePath content size { options with name := none }
  return { cid, size, name := .ofList (relative cwd rootDir filePath) }

/-- `uploadDirLinks(client, bucketId, rootDir, options, currentDir)`: the uploads that are started
for the entries of `dir`. -/
def uploadDirLinks (cwd : Location) (rootDir : Path) (options : CliOptions) :
    (dir : Path) → Listing → List (CliProgram Link)
  | _, .nil => []
  | dir, .file fileName content rest =>
    if hidden fileName then uploadDirLinks cwd rootDir options dir rest
    else
      cli.uploadFileLink cwd rootDir (join [dir, fileName]) content options
        :: uploadDirLinks cwd rootDir options dir rest
  | dir, .dir fileName entries rest =>
    if hidden fileName then uploadDirLinks cwd rootDir options dir rest
    else
      uploadDirLinks cwd rootDir options (join [dir, fileName]) entries
        ++ uploadDirLinks cwd rootDir options dir rest

/-- The end of `uploadDir`, once all files are uploaded. -/
def uploadDirRoot (options : CliOptions) (fileLinks : List Link) : CliProgram String := do
  let updateTime ← .request CliRequest.date
  let rootDagNode : DagNode := { data := cli.json.stringify ⟨true, updateTime⟩, links := fileLinks }
  let stored := { options.operation with name := options.name }
  let cid ← await (.request (CliRequest.storeDagNode options.bucketId rootDagNode stored))
  let rootDagNodeUri := DdcUri.new cli.base32 options.bucketId cid .dagNode options.name
  return rootDagNodeUri.cid

/-- `uploadDir(client, path, options)` for a directory with these entries: the uploads of the files,
which are awaited together, and what follows. -/
def uploadDir (cwd : Location) (path : Path) (options : CliOptions) (entries : Listing) :
    List (CliProgram Link) × (List Link → CliProgram String) :=
  (cli.uploadDirLinks cwd path options path entries, cli.uploadDirRoot options)

/-! ## Downloads -/

/-- `downloadFile(client, source, dest, options)` -/
def downloadFile (source : String) (dest : Path) (options : CliOptions) : CliProgram Unit := do
  await (.request (CliRequest.mkdir (dirname dest)))
  let fileUri := DdcUri.new cli.base32 options.bucketId source .file
  let body ← await (.request (CliRequest.readFile fileUri options.operation))
  await (.request (CliRequest.write dest body))

/-- The check that the DAG node is a directory of the tool; whatever fails in it, the error is
the same. -/
def checkDir (response : Option DagNodeResponse) : Except JsError DagNodeResponse :=
  let refused : JsError := .error "The requested directory was not uploaded by the CLI."
  match response with
  | none => .error refused
  | some response =>
    match cli.json.parse response.data >>= isCLIDirData with
    | .ok true => .ok response
    | _ => .error refused

/-- The tool accepts the data that it writes. -/
theorem checkDir_stringify {response : DagNodeResponse} {updateTime : String}
    (h : response.data = cli.json.stringify ⟨true, updateTime⟩) :
    cli.checkDir (some response) = .ok response := by
  unfold checkDir
  dsimp only
  rw [h, cli.json.parse_stringify]
  rfl

/-- `downloadDir(client, source, dest, options)`; the result are the downloads, which are then
awaited together. -/
def downloadDir (source : String) (dest : Path) (options : CliOptions) :
    CliProgram (List (CliProgram Unit)) := do
  let dagUri := DdcUri.new cli.base32 options.bucketId source .dagNode
  let response ← await (.request (CliRequest.readDagNode dagUri options.operation))
  let response ← Program.ofExcept (cli.checkDir response)
  await (.request (CliRequest.mkdir dest))
  return response.links.map fun link =>
    cli.downloadFile link.cid (join [dest, link.name.toList]) options

end Cli

end CereDdc
