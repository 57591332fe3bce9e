import CereDdc.CliWorld

/-!
# CliLog — nodes that keep a log

An environment in which every law of `CliWorld` holds: the nodes append what they
are given to a log, and the CID of an item tells its place there.
-/

namespace CereDdc

open Kit Program
open Kit.PosixPath

/-! ## The log -/

inductive StoredItem
  | file (bucketId : Nat) (content : Bytes)
  | node (bucketId : Nat) (message : NodeMessage)

/-- What the nodes and the file system have. -/
structure CliLog where
  items : List StoredItem := []
  disk : Disk Bytes := fun _ => none

namespace CliLog

/-- The CID of the item at a place in the log. -/
def cidAt (i : Nat) : Cid := List.replicate (33 + i) 0

theorem length_cidAt (i : Nat) : (cidAt i).length = 33 + i := List.length_replicate

def append (log : CliLog) (item : StoredItem) : CliLog := { log with items := log.items ++ [item] }

variable (base32 : Base32) (log : CliLog)

/-- The item whose CID has this text. -/
def item (cid : String) : Option StoredItem :=
  match base32.decode cid with
  | .ok bytes => if bytes = cidAt (bytes.length - 33) then log.items[bytes.length - 33]? else none
  | .error _ => none

def files (bucketId : Nat) (cid : String) : Option Bytes :=
  match log.item base32 cid with
  | some (.file bucketId' content) => if bucketId' = bucketId then some content else none
  | _ => none

def nodes (bucketId : Nat) (cid : String) : Option NodeMessage :=
  match log.item base32 cid with
  | some (.node bucketId' message) => if bucketId' = bucketId then some message else none
  | _ => none

/-- A storage over nodes that accept and answer with the next CID of the log. -/
def storage : FileStorage :=
  { plainStorage with
    turns := fun _ => [{ plainTurn none with cidOf := fun _ => cidAt log.items.length }] }

def notFound : JsError := .rpc { message := "", code := GrpcStatus.notFound.name }

/-- The environment. -/
def env (cli : Cli) (cwd : Location) : Environment CliRequest.Answer CliLog
  | log, .readDagNode uri _ =>
    match uri.cidOrName with
    | .error e => (.error e, log)
    | .ok cid =>
      match log.nodes cli.base32 uri.bucketId cid with
      | some message => (.ok (some (.new cli.base32 cid message)), log)
      | none => (.error notFound, log)
  | log, .readFile uri _ =>
    match uri.cidOrName with
    | .error e => (.error e, log)
    | .ok cid =>
      match log.files cli.base32 uri.bucketId cid with
      | some content => (.ok ⟨[content], none⟩, log)
      | none => (.error notFound, log)
  | log, .storeFile bucketId _ content size options =>
    let run := storeFile log.storage bucketId [content] size options
    match run.outcome with
    | .resolved cid =>
      (.ok (cli.base32.encode cid), log.append (.file bucketId (bodies run.stores).flatten))
    | .rejected e => (.error e, log)
    | .pending => (.error unavailable, log)
  | log, .storeDagNode bucketId node _ =>
    match mapDagNodeToAPI cli.base32 node with
    | .ok message =>
      (.ok (cli.base32.encode (cidAt log.items.length)), log.append (.node bucketId message))
    | .error e => (.error e, log)
  | log, .mkdir path =>
    if log.disk.Blocked (resolve cwd path) then (.error (.error "ENOTDIR"), log)
    else (.ok (), { log with disk := log.disk.withDirs (resolve cwd path) })
  | log, .write path body =>
    match body.error with
    | some e => (.error e, log)
    | none =>
      if log.disk.Writable (resolve cwd path) then
        (.ok (), { log with disk := log.disk.withFile (resolve cwd path) body.chunks.flatten })
      else (.error (.error "ENOENT"), log)
  | log, .date => ("2024-01-01T00:00:00.000Z", log)

/-! ## The laws -/

variable {base32 log} {cli : Cli} {cwd : Location} {bucketId : Nat} {cid : String}

theorem item_encode {i : Nat} : log.item base32 (base32.encode (cidAt i)) = log.items[i]? := by
  unfold item
  rw [base32.decode_encode]
  dsimp only
  rw [length_cidAt, Nat.add_sub_cancel_left, if_pos rfl]

/-- An item stays where it is in the log. -/
theorem item_mono {log' : CliLog} {stored : StoredItem} (h : log.items <+: log'.items)
    (hitem : log.item base32 cid = some stored) : log'.item base32 cid = some stored := by
  obtain ⟨more, hmore⟩ := h
  unfold item at hitem ⊢
  cases hdecode : base32.decode cid with
  | error e =>
    rw [hdecode] at hitem
    cases hitem
  | ok bytes =>
    rw [hdecode] at hitem
    dsimp only at hitem ⊢
    split at hitem
    · next hbytes =>
      have hlt := (List.getElem?_eq_some_iff.mp hitem).1
      rw [if_pos hbytes, ← hmore, List.getElem?_append_left hlt, hitem]
    · cases hitem

theorem files_eq_some {content : Bytes} : log.files base32 bucketId cid = some content ↔
    log.item base32 cid = some (.file bucketId content) := by
  unfold files
  split
  · next bucketId' content' h =>
    rw [h]
    split <;> simp_all
  · next h => simp_all

theorem nodes_eq_some {message : NodeMessage} : log.nodes base32 bucketId cid = some message ↔
    log.item base32 cid = some (.node bucketId message) := by
  unfold nodes
  split
  · next bucketId' message' h =>
    rw [h]
    split <;> simp_all
  · next h => simp_all

/-- What a request can do: the nodes append to the log, and the rest is up to the file system. -/
theorem env_cases (log : CliLog) (cli : Cli) (cwd : Location) (r : CliRequest) : (env cli cwd log r).2 = log ∨
    (∃ stored, (env cli cwd log r).2 = log.append stored) ∨
      r.onDisk = true ∧ (env cli cwd log r).2.items = log.items := by
  cases r with
  | readDagNode uri options =>
    dsimp only [env]
    split
    · exact .inl rfl
    · split <;> exact .inl rfl
  | readFile uri options =>
    dsimp only [env]
    split
    · exact .inl rfl
    · split <;> exact .inl rfl
  | storeFile bucketId path content size options =>
    dsimp only [env]
    split
    · exact .inr (.inl ⟨_, rfl⟩)
    · exact .inl rfl
    · exact .inl rfl
  | storeDagNode bucketId node options =>
    dsimp only [env]
    split
    · exact .inr (.inl ⟨_, rfl⟩)
    · exact .inl rfl
  | mkdir path =>
    refine .inr (.inr ⟨rfl, ?_⟩)
    dsimp only [env]
    split <;> rfl
  | write path body =>
    refine .inr (.inr ⟨rfl, ?_⟩)
    dsimp only [env]
    split
    · rfl
    · split <;> rfl
  | date => exact .inl rfl

/-- No request takes an item out of the log. -/
theorem items_env (r : CliRequest) : log.items <+: (env cli cwd log r).2.items := by
  rcases env_cases log cli cwd r with h | ⟨stored, h⟩ | ⟨-, h⟩
  · rw [h]
  · rw [h]
    exact List.prefix_append log.items [stored]
  · rw [h]

/-- The nodes do nothing to the file system. -/
theorem disk_env {r : CliRequest} (hr : r.onDisk = false) :
    (env cli cwd log r).2.disk = log.disk := by
  rcases env_cases log cli cwd r with h | ⟨stored, h⟩ | ⟨h, -⟩
  · rw [h]
  · rw [h]
    rfl
  · rw [hr] at h
    cases h

/-- A file that is stored has the next CID of the log. -/
theorem cid_of_resolved {chunks : List Bytes} {size : Nat} {options : StoreOptions} {bytes : Cid}
    (h : (storeFile log.storage bucketId chunks size options).outcome = .resolved bytes) :
    bytes = cidAt log.items.length := by
  obtain ⟨i, turn, hturn, request, hbytes⟩ := FileStorage.exists_cidOf_store h
  rw [hbytes, List.mem_singleton.mp hturn]

/-- The log is a place where the tool works. -/
def world (cli : Cli) (cwd : Location) : CliWorld cli cwd CliLog where
  env := env cli cwd
  storage := storage
  chunks _ content := [content]
  files := files cli.base32
  nodes := nodes cli.base32
  disk := disk
  accepts _ _ := ⟨_, [], "node", rfl, rfl, rfl⟩
  chunks_flatten _ _ := List.flatten_singleton
  keeps_files log r bucketId cid content h :=
    files_eq_some.mpr (item_mono (items_env r) (files_eq_some.mp h))
  keeps_nodes log r bucketId cid message h :=
    nodes_eq_some.mpr (item_mono (items_env r) (nodes_eq_some.mp h))
  keeps_disk log r h := disk_env h
  storeFile_resolved := by
    intro log bucketId path content size options bytes h
    have hbytes := cid_of_resolved h
    have hstep : env cli cwd log (.storeFile bucketId path content size options)
        = ((.ok (cli.base32.encode bytes) : Except JsError String), log.append (.file bucketId
            (bodies (storeFile log.storage bucketId [content] size options).stores).flatten)) := by
      dsimp only [env]
      rw [h]
      rfl
    refine ⟨congrArg Prod.fst hstep, ?_, ?_⟩
    · rw [hbytes, length_cidAt]
      omega
    · rw [congrArg Prod.snd hstep, files_eq_some, hbytes, item_encode]
      exact List.getElem?_concat_length
  storeFile_rejected := by
    intro log bucketId path content size options e h
    dsimp only [env]
    rw [h]
  storeDagNode := by
    intro log bucketId node options message h
    have hstep : env cli cwd log (.storeDagNode bucketId node options)
        = ((.ok (cli.base32.encode (cidAt log.items.length)) : Except JsError String),
            log.append (.node bucketId message)) := by
      dsimp only [env]
      rw [h]
      rfl
    refine ⟨cidAt log.items.length, congrArg Prod.fst hstep, ?_, ?_⟩
    · rw [length_cidAt]
      omega
    · rw [congrArg Prod.snd hstep, nodes_eq_some, item_encode]
      exact List.getElem?_concat_length
  readFile := by
    intro log uri options cid content huri _ h
    dsimp only [env]
    rw [huri]
    dsimp only
    rw [h]
  readDagNode := by
    intro log uri options cid message huri _ h
    dsimp only [env]
    rw [huri]
    dsimp only
    rw [h]
  mkdir := by
    intro log path h
    dsimp only [env]
    rw [if_neg h]
    exact ⟨rfl, rfl⟩
  write := by
    intro log path chunks h
    dsimp only [env]
    rw [if_pos h]
    exact ⟨rfl, rfl⟩

end CliLog

end CereDdc
