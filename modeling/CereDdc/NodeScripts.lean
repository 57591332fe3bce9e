import CereDdc.SharedNode

/-!
# NodeScripts — the operations of clients that share a node

Any number of clients at one storage node, each with its DAG nodes to store and to
read, which get on one request at a time. A name is stored after the DAG node it
leads to, so whoever reads the name finds the DAG node, whatever the others are at.
-/

namespace CereDdc

open Kit Program Api

/-! ## Operations -/

/-- An operation of a client on DAG nodes. -/
inductive NodeOperation
  | storeDagNode (bucketId : Nat) (node : DagNode) (options : StoreOptions)
  | getDagNode (bucketId : Nat) (cidOrName : String) (options : DagNodeGetOptions)

/-- What an operation comes back with. -/
inductive NodeResult
  | stored (cid : String)
  | read (response : Option DagNodeResponse)
  deriving DecidableEq

def NodeClient.perform (client : NodeClient) : NodeOperation → ApiProgram NodeResult
  | .storeDagNode bucketId node options => do
    let cid ← client.storeDagNode bucketId node options
    return .stored cid
  | .getDagNode bucketId cidOrName options => do
    let response ← client.getDagNode bucketId cidOrName options
    return .read response

namespace NodeOperation

variable (base32 : Base32)

/-- The operation stores the DAG node with this message. -/
def Puts (bucketId : Nat) (message : NodeMessage) (operation : NodeOperation) : Prop :=
  ∃ node options, operation = .storeDagNode bucketId node options ∧
    mapDagNodeToAPI base32 node = .ok message

/-- The operation stores the DAG node with this message under the name. -/
def Names (bucketId : Nat) (name : String) (message : NodeMessage) (operation : NodeOperation) :
    Prop :=
  ∃ node options, operation = .storeDagNode bucketId node options ∧
    mapDagNodeToAPI base32 node = .ok message ∧ options.name.filter (· ≠ "") = some name

end NodeOperation

section

variable {σ : Type} {view : NodeView σ} {origins : Origins} {bucketId : Nat} {cid : Cid}
  {name : String} {message : NodeMessage} {s t : σ} {env : Environment ApiRequest.Answer σ}
  {address : NodeMessage → Cid} {client : NodeClient} {base32 : Base32} {written : Prop}

/-! ## What operations leave -/

/-- What the operations of a client have left. -/
structure Established (view : NodeView σ) (origins : Origins) (base32 : Base32)
    (address : NodeMessage → Cid) (earlier : List NodeOperation) (s : σ) : Prop where
  linked : Linked view origins s
  nodes : ∀ operation ∈ earlier, ∀ bucketId message, operation.Puts base32 bucketId message →
    HasNode view origins bucketId (address message) message s
  names : ∀ operation ∈ earlier, ∀ bucketId name message,
    operation.Names base32 bucketId name message → HasName view origins bucketId name s

variable {earlier : List NodeOperation}

theorem stable_established :
    Stable (Preserves view origins) (Established view origins base32 address earlier) :=
  fun s t hst hs => ⟨stable_linked s t hst hs.linked,
    fun operation h b m hputs => stable_hasNode s t hst (hs.nodes operation h b m hputs),
    fun operation h b n m hnames => stable_hasName s t hst (hs.names operation h b n m hnames)⟩

/-- A reader leaves what was there. -/
theorem Established.read {cidOrName : String} {options : DagNodeGetOptions}
    (hs : Established view origins base32 address earlier s) :
    Established view origins base32 address
      (earlier ++ [.getDagNode bucketId cidOrName options]) s := by
  refine ⟨hs.linked, fun operation hmem b m hputs => ?_, fun operation hmem b n m hnames => ?_⟩
  · rcases List.mem_append.mp hmem with hmem | hmem
    · exact hs.nodes operation hmem b m hputs
    · obtain ⟨node, storeOptions, hoperation, -⟩ := hputs
      rw [List.mem_singleton.mp hmem] at hoperation
      cases hoperation
  · rcases List.mem_append.mp hmem with hmem | hmem
    · exact hs.names operation hmem b n m hnames
    · obtain ⟨node, storeOptions, hoperation, -⟩ := hnames
      rw [List.mem_singleton.mp hmem] at hoperation
      cases hoperation

/-- A DAG node that was stored is there, under its name too. -/
theorem Established.stored {node : DagNode} {options : StoreOptions}
    (hs : Established view origins base32 address earlier s)
    (hputs : ∀ message, mapDagNodeToAPI base32 node = .ok message →
      HasNode view origins bucketId (address message) message s ∧
        ∀ name, options.name.filter (· ≠ "") = some name →
          HasName view origins bucketId name s) :
    Established view origins base32 address
      (earlier ++ [.storeDagNode bucketId node options]) s := by
  refine ⟨hs.linked, fun operation hmem b m hput => ?_, fun operation hmem b n m hname => ?_⟩
  · rcases List.mem_append.mp hmem with hmem | hmem
    · exact hs.nodes operation hmem b m hput
    · obtain ⟨node', storeOptions, hoperation, hmessage⟩ := hput
      rw [List.mem_singleton.mp hmem] at hoperation
      cases hoperation
      exact (hputs m hmessage).1
  · rcases List.mem_append.mp hmem with hmem | hmem
    · exact hs.names operation hmem b n m hname
    · obtain ⟨node', storeOptions, hoperation, hmessage, hn⟩ := hname
      rw [List.mem_singleton.mp hmem] at hoperation
      cases hoperation
      exact (hputs m hmessage).2 n hn

/-- The outcome of an operation, after the earlier ones of its client. A CID is that of the DAG
node, and a DAG node can be read by it; a name that the client has written is there; and a name
that is there is that of a DAG node, which is read. -/
def NodeOperation.Right (view : NodeView σ) (origins : Origins) (base32 : Base32)
    (address : NodeMessage → Cid) (earlier : List NodeOperation) :
    NodeOperation → Except JsError NodeResult → Prop
  | .storeDagNode _ node _, outcome =>
    outcome = (mapDagNodeToAPI base32 node).map fun message =>
      .stored (base32.encode (address message))
  | .getDagNode bucketId cidOrName options, outcome =>
    options.path.filter (· ≠ "") = none →
      (base32.isCid cidOrName = false →
        (outcome = .error (unresolved cidOrName) ∧ ∀ operation ∈ earlier, ∀ message,
          ¬ operation.Names base32 bucketId cidOrName message) ∨
        ∃ cid message, origins.named bucketId cidOrName message ∧
          Cid.contentHash cid = view.hasher.hash message.toBinary ∧
          outcome = .ok (.read (some (.new base32 (base32.encode cid) message)))) ∧
      ∀ operation ∈ earlier, ∀ message, operation.Puts base32 bucketId message →
        base32.decode cidOrName = .ok (address message) →
        outcome = .ok (.read (some (.new base32 cidOrName message)))

theorem triple_storeDagNode (hnode : SharedNode env view address)
    (hclient : client.Granted env view base32) (hdistinct : origins.Distinct view.hasher)
    {node : DagNode} {options : StoreOptions}
    (hknown : ∀ message, mapDagNodeToAPI base32 node = .ok message →
      origins.known bucketId message ∧ ∀ name, options.name.filter (· ≠ "") = some name →
        origins.named bucketId name message) :
    Triple env (Preserves view origins) (Linked view origins)
      (attempt (client.storeDagNode bucketId node options)) fun x s =>
        (∀ message, mapDagNodeToAPI base32 node = .ok message →
          HasNode view origins bucketId (address message) message s ∧
            ∀ name, options.name.filter (· ≠ "") = some name →
              HasName view origins bucketId name s) ∧
        x = (mapDagNodeToAPI base32 node).map fun message => base32.encode (address message) := by
  unfold NodeClient.storeDagNode
  rw [hclient.base32_eq]
  refine .attempt_bind Preserves.refl
    (triple_metaParams hnode hclient stable_linked options.toOperationOptions)
    fun params => .assume ?_
  rintro ⟨head, hhead⟩
  cases hmessage : mapDagNodeToAPI base32 node with
  | error e =>
    refine Triple.done (Stable.and ?_ .pure) fun s _ => ⟨nofun, rfl⟩
    exact fun s t _ _ => nofun
  | ok message =>
    obtain ⟨hmessageKnown, hnamed⟩ := hknown message hmessage
    rw [ofExcept_ok, done_bind]
    refine .attempt_bind Preserves.refl
      (triple_putNode hnode hclient hdistinct hmessageKnown hhead) fun cid => .assume ?_
    rintro rfl
    refine .attempt_bind Preserves.refl (triple_storeName hnode hclient hnamed) fun _ => ?_
    refine Triple.done (Stable.and ?_ .pure) fun s hs => ⟨fun m hm => ?_, rfl⟩
    · rintro s t hst hs m ⟨⟩
      obtain ⟨hthere, hnames⟩ := hs message rfl
      exact ⟨stable_hasNode s t hst hthere, fun name hname =>
        stable_hasName s t hst (hnames name hname)⟩
    · cases hm
      exact hs

/-- A name is read: as it is written, or as nothing if the client has not written it. -/
theorem triple_getDagNode_name (hnode : SharedNode env view address)
    (hclient : client.Granted env view base32) (hname : base32.isCid name = false)
    {options : DagNodeGetOptions} (hpath : options.path.filter (· ≠ "") = none) :
    Triple env (Preserves view origins) (WrittenName view origins bucketId name written)
      (attempt (client.getDagNode bucketId name options)) fun x _ =>
        x = .error (unresolved name) ∧ ¬ written ∨
          ∃ cid message, origins.named bucketId name message ∧
            Cid.contentHash cid = view.hasher.hash message.toBinary ∧
            x = .ok (some (.new base32 (base32.encode cid) message)) := by
  refine .attempt_bind Preserves.refl
    (triple_metaParams hnode hclient stable_writtenName options.toOperationOptions)
    fun params => .assume ?_
  rintro ⟨head, hhead⟩
  refine .attempt_bind_of Preserves.refl (triple_resolveName hnode hclient hname _) ?_ ?_
  · intro text s hs
    rcases hs with ⟨herror, -⟩ | ⟨cid, htext, message, hthere, hnamed⟩
    · cases herror
    · cases htext
      have hread := triple_readNode hnode hclient hhead hpath (base32.decode_encode cid) s hthere
      refine hread.attempt.imp ?_
      rintro x t ⟨response, rfl, hthere', rfl⟩
      exact .inr ⟨cid, message, hnamed, (hthere'.1.nodes _ _ _ hthere'.2).2, rfl⟩
  · rintro e s (⟨herror, hwritten⟩ | ⟨cid, htext, -⟩) t -
    · cases herror
      exact .inl ⟨rfl, hwritten⟩
    · cases htext

/-- A DAG node that is there is read by its CID. -/
theorem triple_getDagNode_cid (hnode : SharedNode env view address)
    (hclient : client.Granted env view base32) {text : String}
    (htext : base32.decode text = .ok (address message))
    {options : DagNodeGetOptions} (hpath : options.path.filter (· ≠ "") = none) :
    Triple env (Preserves view origins)
      (HasNode view origins bucketId (address message) message)
      (attempt (client.getDagNode bucketId text options)) fun x _ =>
        x = .ok (some (.new base32 text message)) := by
  have hcid : client.base32.isCid text = true := by
    rw [hclient.base32_eq]
    exact Base32.isCid_iff.mpr ⟨_, htext, hnode.address_length message⟩
  refine .attempt_bind Preserves.refl
    (triple_metaParams hnode hclient stable_hasNode options.toOperationOptions)
    fun params => .assume ?_
  rintro ⟨head, hhead⟩
  unfold NodeClient.resolveName
  rw [hcid]
  intro s hs
  refine ((triple_readNode hnode hclient hhead hpath htext) s hs).attempt.imp ?_
  rintro x t ⟨response, rfl, -, rfl⟩
  rfl

theorem stable_right {operation : NodeOperation} {outcome : Except JsError NodeResult} :
    Stable (Preserves view origins) fun s =>
      operation.Right view origins base32 address earlier outcome ∧
        Established view origins base32 address (earlier ++ [operation]) s :=
  Stable.pure.and stable_established

theorem triple_perform_store (hnode : SharedNode env view address)
    (hclient : client.Granted env view base32) (hdistinct : origins.Distinct view.hasher)
    {node : DagNode} {options : StoreOptions}
    (hknown : ∀ message, mapDagNodeToAPI base32 node = .ok message →
      origins.known bucketId message ∧ ∀ name, options.name.filter (· ≠ "") = some name →
        origins.named bucketId name message) :
    Triple env (Preserves view origins) (Established view origins base32 address earlier)
      (attempt (client.perform (.storeDagNode bucketId node options))) fun outcome s =>
        NodeOperation.Right view origins base32 address earlier
          (.storeDagNode bucketId node options) outcome ∧
        Established view origins base32 address
          (earlier ++ [.storeDagNode bucketId node options]) s := by
  have hstore := (triple_storeDagNode hnode hclient hdistinct hknown).frame
    (@stable_established _ view origins address base32 earlier)
  refine .attempt_bind_of Preserves.refl (hstore.imp (fun s hs => ⟨hs.linked, hs⟩)
    fun _ _ h => h) ?_ ?_
  · refine fun text => Triple.done stable_right fun s hs => ?_
    obtain ⟨⟨hputs, htext⟩, hs⟩ := hs
    refine ⟨?_, hs.stored hputs⟩
    cases hmessage : mapDagNodeToAPI base32 node with
    | error e =>
      rw [hmessage] at htext
      cases htext
    | ok message =>
      rw [hmessage] at htext
      cases htext
      simp only [NodeOperation.Right, hmessage]
      rfl
  · rintro e s ⟨⟨hputs, htext⟩, hs⟩ t hst
    refine stable_right s t hst ⟨?_, hs.stored hputs⟩
    cases hmessage : mapDagNodeToAPI base32 node with
    | error e' =>
      rw [hmessage] at htext
      cases htext
      simp only [NodeOperation.Right, hmessage]
      rfl
    | ok message =>
      rw [hmessage] at htext
      cases htext

/-- The result of a read, as that of the operation. -/
theorem triple_perform_get {cidOrName : String} {options : DagNodeGetOptions}
    {Q : Except JsError (Option DagNodeResponse) → Prop}
    (hread : Triple env (Preserves view origins)
      (Established view origins base32 address earlier)
      (attempt (client.getDagNode bucketId cidOrName options)) fun x s =>
        Q x ∧ Established view origins base32 address earlier s)
    (hQ : ∀ x, Q x → NodeOperation.Right view origins base32 address earlier
      (.getDagNode bucketId cidOrName options) (x.map .read)) :
    Triple env (Preserves view origins) (Established view origins base32 address earlier)
      (attempt (client.perform (.getDagNode bucketId cidOrName options))) fun outcome s =>
        NodeOperation.Right view origins base32 address earlier
          (.getDagNode bucketId cidOrName options) outcome ∧
        Established view origins base32 address
          (earlier ++ [.getDagNode bucketId cidOrName options]) s := by
  refine .attempt_bind_of Preserves.refl hread ?_ ?_
  · exact fun response => Triple.done stable_right fun s hs => ⟨hQ _ hs.1, hs.2.read⟩
  · exact fun e s hs t hst => stable_right s t hst ⟨hQ _ hs.1, hs.2.read⟩

/-- A read that nothing is promised of. -/
theorem triple_perform_unknown (hnode : SharedNode env view address)
    (hclient : client.Granted env view base32) {cidOrName : String} {options : DagNodeGetOptions}
    (hright : ∀ x, NodeOperation.Right view origins base32 address earlier
      (.getDagNode bucketId cidOrName options) x) :
    Triple env (Preserves view origins) (Established view origins base32 address earlier)
      (attempt (client.perform (.getDagNode bucketId cidOrName options))) fun outcome s =>
        NodeOperation.Right view origins base32 address earlier
          (.getDagNode bucketId cidOrName options) outcome ∧
        Established view origins base32 address
          (earlier ++ [.getDagNode bucketId cidOrName options]) s := by
  have hread := (@reads_getDagNode bucketId client cidOrName options).triple
    (@stable_established _ view origins address base32 earlier)
    fun r hr s _ => preserves_reads hnode hclient hr s
  refine triple_perform_get (Q := fun _ => True)
    (hread.imp (fun _ hs => hs) fun _ _ hs => ⟨trivial, hs⟩) ?_
  exact fun x _ => hright _

theorem triple_perform_name (hnode : SharedNode env view address)
    (hclient : client.Granted env view base32) (hname : base32.isCid name = false)
    {options : DagNodeGetOptions} (hpath : options.path.filter (· ≠ "") = none) :
    Triple env (Preserves view origins) (Established view origins base32 address earlier)
      (attempt (client.perform (.getDagNode bucketId name options))) fun outcome s =>
        NodeOperation.Right view origins base32 address earlier
          (.getDagNode bucketId name options) outcome ∧
        Established view origins base32 address
          (earlier ++ [.getDagNode bucketId name options]) s := by
  let written := ∃ operation ∈ earlier, ∃ message,
    NodeOperation.Names base32 bucketId name message operation
  have hwritten : ∀ s, Established view origins base32 address earlier s →
      WrittenName view origins bucketId name written s := by
    refine fun s hs => ⟨hs.linked, ?_⟩
    rintro ⟨operation, hmem, message, hnames⟩
    exact hs.names operation hmem bucketId name message hnames
  refine triple_perform_get (((triple_getDagNode_name hnode hclient hname hpath).frame
    stable_established).imp (fun s hs => ⟨hwritten s hs, hs⟩) fun _ _ h => h) ?_
  intro x hx _
  refine ⟨fun _ => ?_, fun operation _ message _ htext => ?_⟩
  · rcases hx with ⟨rfl, hnot⟩ | ⟨cid, message, hnamed, hhash, rfl⟩
    · exact .inl ⟨rfl, fun operation hmem message hnames =>
        hnot ⟨operation, hmem, message, hnames⟩⟩
    · exact .inr ⟨cid, message, hnamed, hhash, rfl⟩
  · have hcid := Base32.isCid_iff.mpr ⟨_, htext, hnode.address_length message⟩
    rw [hname] at hcid
    cases hcid

theorem triple_perform_cid (hnode : SharedNode env view address)
    (hclient : client.Granted env view base32) {operation : NodeOperation}
    (hmem : operation ∈ earlier) (hput : operation.Puts base32 bucketId message) {text : String}
    (htext : base32.decode text = .ok (address message))
    {options : DagNodeGetOptions} (hpath : options.path.filter (· ≠ "") = none) :
    Triple env (Preserves view origins) (Established view origins base32 address earlier)
      (attempt (client.perform (.getDagNode bucketId text options))) fun outcome s =>
        NodeOperation.Right view origins base32 address earlier
          (.getDagNode bucketId text options) outcome ∧
        Established view origins base32 address
          (earlier ++ [.getDagNode bucketId text options]) s := by
  -- two DAG nodes with this CID are one
  let same := ∀ operation ∈ earlier, ∀ message',
    NodeOperation.Puts base32 bucketId message' operation →
      base32.decode text = .ok (address message') → message' = message
  have hsame : ∀ s, Established view origins base32 address earlier s → same := by
    intro s hs operation' hmem' message' hput' htext'
    have haddress : address message' = address message :=
      Except.ok.inj (htext'.symm.trans htext)
    have hthere := (hs.nodes operation' hmem' bucketId message' hput').2
    rw [haddress, (hs.nodes operation hmem bucketId message hput).2] at hthere
    exact (Option.some.inj hthere).symm
  have hget : Triple env (Preserves view origins)
      (HasNode view origins bucketId (address message) message)
      (attempt (client.getDagNode bucketId text options)) fun x _ =>
        x = .ok (some (.new base32 text message)) :=
    triple_getDagNode_cid hnode hclient htext hpath
  refine triple_perform_get (Q := fun x => x = .ok (some (.new base32 text message)) ∧ same)
    ((hget.frame ((Stable.pure (P := same)).and stable_established)).imp
      (fun s hs => ⟨hs.nodes operation hmem bucketId message hput, hsame s hs, hs⟩)
      fun _ _ h => ⟨⟨h.1, h.2.1⟩, h.2.2⟩) ?_
  rintro x ⟨rfl, hmessages⟩ _
  refine ⟨fun hnot => ?_, fun operation' hmem' message' hput' htext' => ?_⟩
  · rw [Base32.isCid_iff.mpr ⟨_, htext, hnode.address_length message⟩] at hnot
    cases hnot
  · rw [hmessages operation' hmem' message' hput' htext']
    rfl

theorem triple_perform (hnode : SharedNode env view address)
    (hclient : client.Granted env view base32) (hdistinct : origins.Distinct view.hasher)
    (operation : NodeOperation)
    (hknown : ∀ bucketId message, operation.Puts base32 bucketId message →
      origins.known bucketId message)
    (hnamed : ∀ bucketId name message, operation.Names base32 bucketId name message →
      origins.named bucketId name message) :
    Triple env (Preserves view origins) (Established view origins base32 address earlier)
      (attempt (client.perform operation)) fun outcome s =>
        operation.Right view origins base32 address earlier outcome ∧
          Established view origins base32 address (earlier ++ [operation]) s := by
  cases operation with
  | storeDagNode bucketId node options =>
    refine triple_perform_store hnode hclient hdistinct fun message hmessage => ⟨?_, ?_⟩
    · exact hknown bucketId message ⟨node, options, rfl, hmessage⟩
    · exact fun name hname => hnamed bucketId name message ⟨node, options, rfl, hmessage, hname⟩
  | getDagNode bucketId text options =>
    by_cases hpath : options.path.filter (· ≠ "") = none
    · by_cases hputs : ∃ operation ∈ earlier, ∃ message,
          NodeOperation.Puts base32 bucketId message operation ∧
            base32.decode text = .ok (address message)
      · obtain ⟨operation, hmem, message, hput, htext⟩ := hputs
        exact triple_perform_cid hnode hclient hmem hput htext hpath
      · cases hisCid : base32.isCid text with
        | false => exact triple_perform_name hnode hclient hisCid hpath
        | true =>
          refine triple_perform_unknown hnode hclient fun x _ => ⟨fun hnot => ?_, ?_⟩
          · rw [hisCid] at hnot
            cases hnot
          · exact fun operation hmem message hput htext =>
              absurd ⟨operation, hmem, message, hput, htext⟩ hputs
    · exact triple_perform_unknown hnode hclient fun x hnone => absurd hnone hpath

end

/-! ## Scripts -/

section

variable {σ : Type} {env : Environment ApiRequest.Answer σ} {view : NodeView σ}

/-- What the node has in a state: DAG nodes where their hashes are, and signed records that lead
to them. -/
structure NodeView.Sound (view : NodeView σ) (s : σ) : Prop where
  nodes : ∀ bucketId cid message, view.nodes s bucketId cid = some message →
    Cid.contentHash cid = view.hasher.hash message.toBinary
  records : ∀ bucketId name record, view.records s bucketId name = some record →
    record.signature.isSome = true ∧ (view.nodes s bucketId record.cid).isSome

/-- The operations of a client, in their order. -/
structure ClientScript where
  client : NodeClient
  operations : List NodeOperation

/-- The DAG nodes that are there in `s`, or that one of the clients stores. -/
def Origins.of (view : NodeView σ) (base32 : Base32) (scripts : List ClientScript) (s : σ) :
    Origins where
  known bucketId message := (∃ cid, view.nodes s bucketId cid = some message) ∨
    ∃ c ∈ scripts, ∃ operation ∈ c.operations, operation.Puts base32 bucketId message
  named bucketId name message :=
    (∃ record, view.records s bucketId name = some record ∧
      view.nodes s bucketId record.cid = some message) ∨
    ∃ c ∈ scripts, ∃ operation ∈ c.operations, operation.Names base32 bucketId name message

/-- The clients with their scripts, side by side. -/
def sharedScripts (scripts : List ClientScript) :
    List (ApiProgram (List (Except JsError NodeResult))) :=
  scripts.map fun c => script c.client.perform c.operations

theorem NodeView.Sound.linked {base32 : Base32} {scripts : List ClientScript} {s : σ}
    (h : view.Sound s) : Linked view (.of view base32 scripts s) s where
  nodes := fun bucketId cid message hthere =>
    ⟨.inl ⟨cid, hthere⟩, h.nodes bucketId cid message hthere⟩
  records := by
    intro bucketId name record hrecord
    obtain ⟨hsigned, hsome⟩ := h.records bucketId name record hrecord
    obtain ⟨message, hthere⟩ := Option.isSome_iff_exists.mp hsome
    exact ⟨hsigned, message, hthere, .inl ⟨record, hrecord, hthere⟩⟩

end

/-- However the clients of a node take turns, each of their operations has the right outcome, and
no script is ever stuck. -/
theorem NodeClient.scripts_right {σ : Type} (env : Environment ApiRequest.Answer σ)
    (view : NodeView σ) (address : NodeMessage → Cid) (base32 : Base32)
    (scripts : List ClientScript) (s : σ) (hnode : SharedNode env view address)
    (hclients : ∀ c ∈ scripts, c.client.Granted env view base32) (hsound : view.Sound s)
    (hdistinct : (Origins.of view base32 scripts s).Distinct view.hasher) (is : List Nat) :
    (∃ more, (results (turns env (is ++ more) (sharedScripts scripts) s).1).isSome) ∧
    ∀ (i : Nat) client operations outcomes, scripts[i]? = some ⟨client, operations⟩ →
      (turns env is (sharedScripts scripts) s).1[i]? = some (done outcomes) →
      outcomes.length = operations.length ∧
        ∀ (k : Nat) operation outcome, operations[k]? = some operation →
          outcomes[k]? = some outcome →
          operation.Right view (.of view base32 scripts s) base32 address (operations.take k)
            outcome := by
  let origins := Origins.of view base32 scripts s
  have hscript : ∀ c ∈ scripts, Sure env (Preserves view origins)
      (fun outcomes _ => AllRight (NodeOperation.Right view origins base32 address) [] c.operations
        outcomes) (script c.client.perform c.operations) s := by
    intro c hc
    have hstart : Established view origins base32 address [] s :=
      ⟨hsound.linked, by simp, by simp⟩
    refine Triple.script Preserves.refl (fun earlier operation hmem => ?_) s hstart
    refine triple_perform hnode (hclients c hc) hdistinct operation ?_ ?_
    · exact fun bucketId message hputs => .inr ⟨c, hc, operation, hmem, hputs⟩
    · exact fun bucketId name message hnames => .inr ⟨c, hc, operation, hmem, hnames⟩
  have hsure : AllSure env (Preserves view origins)
      (fun i outcomes _ => ∃ c, scripts[i]? = some c ∧
        AllRight (NodeOperation.Right view origins base32 address) [] c.operations outcomes)
      (sharedScripts scripts) s := by
    intro i p hp
    rw [sharedScripts, List.getElem?_map] at hp
    obtain ⟨c, hc, rfl⟩ := Option.map_eq_some_iff.mp hp
    exact (hscript c (List.mem_of_getElem? hc)).imp fun outcomes _ hright => ⟨c, hc, hright⟩
  obtain ⟨-, hafter⟩ := hsure.turns Preserves.refl Preserves.trans is
  constructor
  · obtain ⟨more, hmore⟩ := hafter.exists_results Preserves.refl Preserves.trans
    exact ⟨more, by rwa [turns_append]⟩
  · intro i client operations outcomes hi hend
    obtain ⟨c, hc, hright⟩ := hafter i _ hend _ (Preserves.refl _)
    cases hi.symm.trans hc
    exact ⟨hright.length, fun k operation outcome hop hout => hright.get hop hout⟩

/-- A hash that keeps the first 32 bytes. -/
def shortHash (data : Bytes) : Bytes := (data ++ List.replicate 32 0).take 32

def shortAddress (message : NodeMessage) : Cid := 0 :: shortHash message.toBinary

abbrev BucketContents := (Nat → String → Option RecordMessage) × (Nat → Cid → Option NodeMessage)

def bucketView : NodeView BucketContents := ⟨.buffered shortHash, Prod.fst, Prod.snd⟩

/-- A node that keeps records and DAG nodes, with everything granted. -/
def bucketNode : Environment ApiRequest.Answer BucketContents :=
  fun s r =>
    match r with
    | .rpc _ (.dagPut bucketId (some message) _) =>
      (.ok (shortAddress message), s.1, fun b c =>
        if b = bucketId ∧ c = shortAddress message then some message else s.2 b c)
    | .rpc _ (.dagGet request) => (.ok (s.2 request.bucketId request.cid), s)
    | r => ((cnsNode s.1 r).1, (cnsNode s.1 r).2, s.2)

theorem length_shortHash (data : Bytes) : (shortHash data).length = 32 := by
  simp [shortHash]

theorem bucketNode_shared : SharedNode bucketNode bucketView shortAddress where
  cnsPut := fun _ _ _ _ => rfl
  cnsMissing := by
    intro s info bucketId name hmissing
    have hnone : s.1 bucketId name = none := hmissing
    right
    refine ⟨.rpc { code := GrpcStatus.unknown.name, message := "no result" }, ?_, by decide⟩
    show (cnsNode s.1 _).1 = _
    unfold cnsNode
    dsimp only
    rw [hnone]
  dagPut := fun _ _ _ _ _ => rfl
  dagPutNodes := fun _ _ _ _ _ _ _ => rfl
  dagKeep := by
    intro s r hr
    cases r with
    | rpc info method =>
      cases method with
      | dagPut bucketId message cid => exact absurd rfl (hr info bucketId message cid)
      | _ => rfl
    | _ => rfl
  dagGet := fun _ _ _ _ _ hthere => congrArg Except.ok hthere
  address_hash := fun message => by
    have hlength := length_shortHash message.toBinary
    show (shortAddress message).drop ((shortAddress message).length - 32) = _
    rw [shortAddress, List.length_cons, hlength]
    rfl
  address_length := fun message => by
    rw [shortAddress, List.length_cons, length_shortHash]
    decide

/-- A client of that node. -/
def bucketClient : NodeClient := { plainClient with hasher := bucketView.hasher }

theorem bucketClient_granted : bucketClient.Granted bucketNode bucketView .rfc4648 where
  put := fun s info bucketId record _ => by simp [bucketNode, cnsNode, bucketView]
  keep := fun s bucketId name r hr => by
    have hcns := (cnsNode_environment plainClient_head).keep s.1 bucketId name r hr
    cases r with
    | rpc info method =>
      cases method with
      | dagPut bucketId message cid => cases message <;> rfl
      | cnsPut bucketId record => exact hcns
      | _ => rfl
    | _ => rfl
  get := fun s info bucketId name record hrecord =>
    (cnsNode_environment plainClient_head).get s.1 info bucketId name record hrecord
  authToken := fun s accessToken => ⟨_, _, rfl, plainClient_head⟩
  ready := fun s account => rfl
  sign := fun s account message => ⟨[], rfl⟩
  signer := ⟨_, plainClient_head⟩
  hasher_eq := rfl
  base32_eq := rfl

/-- A client that reads what it has stored under a name, beside one that reads the same name. -/
theorem NodeClient.scripts_right_album :
    let store : NodeOperation := .storeDagNode 1 { data := [7] } { name := some "album" }
    let get : NodeOperation := .getDagNode 1 "album" {}
    let scripts : List ClientScript := [⟨bucketClient, [store, get]⟩, ⟨bucketClient, [get]⟩]
    ∃ turnsTaken outcomes others cid message,
      (turns bucketNode turnsTaken (sharedScripts scripts) (fun _ _ => none, fun _ _ => none)).1
        = [done outcomes, done others] ∧
      outcomes[1]? =
        some (.ok (.read (some (.new .rfc4648 (Base32.rfc4648.encode cid) message)))) := by
  intro store get scripts
  let s : BucketContents := (fun _ _ => none, fun _ _ => none)
  have hknown : ∀ bucketId message,
      (Origins.of bucketView .rfc4648 scripts s).known bucketId message →
        message = ⟨[7], [], []⟩ := by
    rintro bucketId message (⟨cid, hthere⟩ | ⟨c, hc, operation, hoperation, node, options, rfl, h⟩)
    · cases hthere
    · rcases List.mem_pair.mp hc with rfl | rfl
      · rcases List.mem_pair.mp hoperation with heq | heq
        · cases (NodeOperation.storeDagNode.inj heq).2.1
          exact (Except.ok.inj h).symm
        · exact NodeOperation.noConfusion heq
      · exact NodeOperation.noConfusion (List.mem_singleton.mp hoperation)
  have hscripts := NodeClient.scripts_right bucketNode bucketView shortAddress .rfc4648 scripts s
    bucketNode_shared (by simp [scripts, bucketClient_granted]) ⟨nofun, nofun⟩
    fun b m m' hm hm' _ => (hknown b m hm).trans (hknown b m' hm').symm
  obtain ⟨more, hmore⟩ := (hscripts []).1
  obtain ⟨all, hall⟩ := Option.isSome_iff_exists.mp hmore
  have hend := results_eq_some.mp hall
  have hlength := congrArg List.length hend
  rw [turns_length, List.length_map] at hlength
  obtain ⟨outcomes, others, rfl⟩ := List.length_eq_two.mp hlength.symm
  obtain ⟨hcount, hright⟩ := (hscripts more).2 0 bucketClient [store, get] outcomes rfl
    (congrArg (·[0]?) hend)
  obtain ⟨first, second, rfl⟩ := List.length_eq_two.mp hcount
  have hread := (hright 1 get second rfl rfl rfl).1 (by decide +kernel)
  rcases hread with ⟨-, hnever⟩ | ⟨cid, message, -, -, hread⟩
  · exact absurd ⟨{ data := [7] }, { name := some "album" }, rfl, rfl, rfl⟩
      (hnever store (by simp) ⟨[7], [], []⟩)
  · exact ⟨more, [first, second], others, cid, message, hend, congrArg some hread⟩

end CereDdc
