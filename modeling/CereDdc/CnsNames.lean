import CereDdc.NodeClient

/-!
# CnsNames — names that are stored and read back

A node that keeps the last record of each name, and what the operations on a name
come to there: a text that can be read as a CID is never looked up.
-/

namespace CereDdc

open Kit Program Api

/-! ## A node with records -/

/-- The request puts a record under the name. -/
def ApiRequest.Stores (bucketId : Nat) (name : String) : ApiRequest → Prop
  | rpc _ (.cnsPut bucketId' record) => bucketId' = bucketId ∧ record.name = name
  | _ => False

/-- The CID of the file or the DAG node that is asked for. -/
def ApiRequest.entity : ApiRequest → Option Cid
  | rpc _ (.getFile request) => some request.cid
  | rpc _ (.dagGet request) => some request.cid
  | _ => none

/-- An environment that grants what `keys` needs, with a node that keeps the last record of each
name; `records` are those it has in a state. -/
structure CnsEnvironment {σ : Type} (env : Environment ApiRequest.Answer σ) (keys : Keys)
    (records : σ → Nat → String → Option RecordMessage) : Prop where
  put : ∀ s info bucketId record, (env s (.rpc info (.cnsPut bucketId record))).1 = .ok () →
    records (env s (.rpc info (.cnsPut bucketId record))).2 bucketId record.name = some record
  keep : ∀ s bucketId name r, ¬ r.Stores bucketId name →
    records (env s r).2 bucketId name = records s bucketId name
  get : ∀ s info bucketId name record, records s bucketId name = some record →
    (env s (.rpc info (.cnsGet bucketId name))).1 = .ok (some record)
  authToken : ∀ s accessToken, ∃ token head, (env s (.authToken accessToken)).1 = .ok token ∧
    signatureHead (keys.account (some token)) = .ok head
  ready : ∀ s account, (env s (.ready account)).1 = .ok ()
  sign : ∀ s account message, ∃ signature, (env s (.sign account message)).1 = .ok signature

/-- The requests that store no record and ask for no content. -/
def ApiRequest.Quiet (r : ApiRequest) : Prop :=
  r.entity = none ∧ ∀ bucketId name, ¬ r.Stores bucketId name

section

variable {σ : Type} {env : Environment ApiRequest.Answer σ} {keys : Keys}
  {records : σ → Nat → String → Option RecordMessage} {s t : σ} {token : Option AuthToken}
  {head : SignatureAlgorithm × PublicKey}

theorem prepares_quiet {options : Option Keys} : Prepares ApiRequest.Quiet options token where
  now := ⟨rfl, fun _ _ h => h⟩
  uuid := ⟨rfl, fun _ _ h => h⟩
  ready := fun _ _ => ⟨rfl, fun _ _ h => h⟩
  sign := fun _ _ _ _ _ => ⟨rfl, fun _ _ h => h⟩

theorem run_ofExcept_ok {α : Type} {x : Except JsError α} {a : α} (h : x = .ok a) :
    run env (ofExcept x) s = (.ok a, s) := by
  rw [h]
  rfl

/-- An answer that is awaited. -/
theorem run_await {α : Type} {p : ApiProgram (Except JsError α)} {a : α}
    (h : run env p s = (.ok (.ok a), t)) : run env (await p) s = (.ok a, t) :=
  (run_bind_ok h).trans rfl

theorem run_createSignature_ok (h : CnsEnvironment env keys records) {message : Bytes}
    (hhead : signatureHead (keys.account token) = .ok head) :
    ∃ signature u, run env (Api.createSignature keys message token) s = (.ok signature, u) := by
  have hready : run env (Api.ready (keys.account token)) s = _ :=
    run_await (congrArg (fun x => (Except.ok x, _)) (h.ready s _))
  obtain ⟨value, hvalue⟩ := h.sign (env s (.ready (keys.account token))).2
    (keys.account token) message
  have hsign : run env (Api.sign (keys.account token) message) _ = _ :=
    run_await (congrArg (fun x => (Except.ok x, _)) hvalue)
  exact ⟨⟨head.1, head.2, value⟩, _, (run_bind_ok hready).trans
    ((run_bind_ok (run_ofExcept_ok hhead)).trans ((run_bind_ok hsign).trans rfl))⟩

theorem run_createActivityRequest_ok (h : CnsEnvironment env keys records)
    {fields : ActivityFields} (hsize : ¬ fields.size.getD 0 < 0)
    (hhead : signatureHead (keys.account token) = .ok head) :
    ∃ request u, run env (createActivityRequest keys fields token) s = (.ok request, u) := by
  let request := fields.create (env s .now).1 (env (env s .now).2 .uuid).1
  obtain ⟨signature, u, hsignature⟩ : ∃ signature u,
      run env (Api.createSignature keys request.toBinary token) (env (env s .now).2 .uuid).2
        = (.ok signature, u) := run_createSignature_ok h hhead
  refine ⟨{ request with signature := some signature }, u, ?_⟩
  change run env (if fields.size.getD 0 < 0 then _ else _) _ = _
  rw [if_neg hsize]
  exact (run_bind_ok hsignature).trans rfl

theorem quiet_uuid : ApiRequest.Quiet .uuid := ⟨rfl, fun _ _ h => h⟩

theorem ends_create (params : MetaParams) :
    ∃ info u, Ends env ApiRequest.Quiet params.create s info u ∧ info.token = params.token := by
  have hmeets := @meets_create _ params quiet_uuid
  have hrun : ∃ info u, run env params.create s = (.ok info, u) := by
    unfold MetaParams.create createRpcMeta
    cases params.correlationId.filter (· ≠ "") with
    | some id => exact ⟨_, _, rfl⟩
    | none => exact ⟨_, _, rfl⟩
  obtain ⟨info, u, hrun⟩ := hrun
  exact ⟨info, u, hmeets.ends hrun, (hmeets.result hrun).1⟩

theorem ends_signMeta (h : CnsEnvironment env keys records) {fields : ActivityFields}
    (hsize : ¬ fields.size.getD 0 < 0) {info : ApiMeta}
    (hhead : signatureHead (keys.account info.token) = .ok head) :
    ∃ signed u, Ends env ApiRequest.Quiet (signMeta (some keys) fields info) s signed u := by
  obtain ⟨request, u, hrequest⟩ := run_createActivityRequest_ok h hsize hhead (s := s)
  exact ⟨_, u, (meets_signMeta prepares_quiet).ends ((run_bind_ok hrequest).trans rfl)⟩

theorem ends_authToken (h : CnsEnvironment env keys records) (accessToken : Option TokenInput) :
    ∃ token head u, Ends env ApiRequest.Quiet (Api.createAuthToken accessToken) s token u ∧
      signatureHead (keys.account (some token)) = .ok head := by
  obtain ⟨token, head, htoken, hhead⟩ := h.authToken s accessToken
  refine ⟨token, head, (env s (.authToken accessToken)).2, ⟨?_, ?_⟩, hhead⟩
  · exact run_await (congrArg (fun x => (Except.ok x, _)) htoken)
  · refine Meets.requests (Q := fun _ => True) (meets_await ⟨?_, fun _ _ _ => trivial⟩)
    exact ⟨rfl, fun _ _ h => h⟩

theorem ends_metaParams (h : CnsEnvironment env keys records) (options : OperationOptions) :
    ∃ params head u, Ends env ApiRequest.Quiet (NodeClient.metaParams options) s params u ∧
      signatureHead (keys.account params.token) = .ok head := by
  obtain ⟨token, head, t, htoken, hhead⟩ := ends_authToken h options.accessToken (s := s)
  have hid : ∃ id u, Ends env ApiRequest.Quiet (NodeClient.correlationId options) t id u := by
    unfold NodeClient.correlationId
    cases options.correlationId.filter (· ≠ "") with
    | some id => exact ⟨id, t, .done⟩
    | none => exact ⟨_, _, .request quiet_uuid⟩
  obtain ⟨id, u, hid⟩ := hid
  exact ⟨⟨some token, some id⟩, head, u, htoken.bind (hid.bind .done), hhead⟩

/-! ## Reading a name -/

variable {node : NodeClient} {bucketId : Nat} {name : String} {record : RecordMessage}

/-- Quiet requests leave every record as it is. -/
theorem CnsEnvironment.records_ends (h : CnsEnvironment env keys records) {α : Type}
    {p : ApiProgram α} {a : α} (hp : Ends env ApiRequest.Quiet p s a t) :
    records t bucketId name = records s bucketId name :=
  hp.preserves (v := fun s => records s bucketId name)
    fun s r hr => h.keep s bucketId name r (hr.2 bucketId name)

/-- A record that is there is found. -/
theorem ends_getRecord (h : CnsEnvironment env node.keys records) (params : MetaParams)
    (hhead : signatureHead (node.keys.account params.token) = .ok head)
    (hrecord : records s bucketId name = some record) (hsigned : record.signature.isSome = true)
    (cacheControl : Option String) :
    ∃ u, Ends env ApiRequest.Quiet
      (CnsApi.getRecord node.options params bucketId name cacheControl) s (some record) u := by
  obtain ⟨info, t, hinfo, htoken⟩ := @ends_create _ env s params
  obtain ⟨signed, u, hsign⟩ : ∃ signed u, Ends env ApiRequest.Quiet
      (signMeta node.options.keys { bucketId, requestType := .get }
        { info with cacheControl := cacheControl.filter (· ≠ "") }) t signed u :=
    ends_signMeta h (by simp) (by rw [htoken]; exact hhead)
  have hkept : records u bucketId name = some record := by
    rw [h.records_ends hsign, h.records_ends hinfo, hrecord]
  have hget := h.get u signed bucketId name record hkept
  refine ⟨(env u (.rpc signed (.cnsGet bucketId name))).2, hinfo.bind (hsign.bind ?_)⟩
  have hrequest : Ends env ApiRequest.Quiet (rpc signed (.cnsGet bucketId name)) u
      (.ok (some record)) (env u (.rpc signed (.cnsGet bucketId name))).2 := by
    rw [← hget]
    exact .request ⟨rfl, fun _ _ h => h⟩
  refine hrequest.bind ?_
  have hfilter : (some record).filter (·.signature.isSome) = some record := by simp [hsigned]
  change Ends env _ (Program.done ((some record).filter (·.signature.isSome))) _ _ _
  rw [hfilter]
  exact .done

/-- And so is its CID, under a name that is no CID. -/
theorem ends_resolveName (h : CnsEnvironment env node.keys records)
    (hname : node.base32.isCid name = false)
    (hrecord : records s bucketId name = some record) (hsigned : record.signature.isSome = true)
    (options : CnsRecordGetOptions) :
    ∃ u, Ends env ApiRequest.Quiet (node.resolveName bucketId name options) s
      (node.base32.encode record.cid) u := by
  obtain ⟨token, head, t, htoken, hhead⟩ := ends_authToken h options.accessToken (s := s)
  have hid : ∃ id u, Ends env ApiRequest.Quiet
      (NodeClient.defaultCorrelationId options.toOperationOptions) t id u := by
    unfold NodeClient.defaultCorrelationId
    cases options.correlationId with
    | some id => exact ⟨id, t, .done⟩
    | none => exact ⟨_, _, .request quiet_uuid⟩
  obtain ⟨id, u, hid⟩ := hid
  have hkept : records u bucketId name = some record := by
    rw [h.records_ends hid, h.records_ends htoken, hrecord]
  obtain ⟨v, hget⟩ := ends_getRecord h ⟨some token, some id⟩ hhead hkept hsigned
    options.cacheControl
  have hfound : Ends env ApiRequest.Quiet (node.getCnsRecord bucketId name options) s
      (some { cid := node.base32.encode record.cid, name := record.name,
              signature := record.signature }) v :=
    htoken.bind (hid.bind (hget.bind .done))
  refine ⟨v, ?_⟩
  unfold NodeClient.resolveName
  rw [hname]
  exact hfound.bind .done

/-! ## Storing a name -/

theorem run_await_eq_ok {α : Type} {p : ApiProgram (Except JsError α)} {a : α}
    (h : run env (await p) s = (.ok a, t)) : run env p s = (.ok (.ok a), t) := by
  obtain ⟨x, u, hp, hx⟩ := run_bind_eq_ok h
  obtain ⟨rfl, rfl⟩ := run_ofExcept_eq_ok hx
  exact hp

theorem run_rpc_eq_ok {info : ApiMeta} {method : RpcMethod} {a : method.Response}
    (h : run env (call info method) s = (.ok a, t)) :
    (env s (.rpc info method)).1 = .ok a ∧ (env s (.rpc info method)).2 = t := by
  have hrun := run_await_eq_ok h
  exact ⟨Except.ok.inj (congrArg Prod.fst hrun), congrArg Prod.snd hrun⟩

/-- Once a record is stored, it is the one of its name, with a signature. -/
theorem records_of_putRecord (h : CnsEnvironment env node.keys records) {params : MetaParams}
    {stored : RecordMessage}
    (hrun : run env (CnsApi.putRecord node.options params bucketId record) s = (.ok stored, t)) :
    ∃ signature, records t bucketId record.name
      = some { record with signature := some signature } := by
  obtain ⟨info, s₁, -, hrun⟩ := run_bind_eq_ok hrun
  obtain ⟨signature, s₂, -, hrun⟩ := run_bind_eq_ok hrun
  obtain ⟨request, s₃, -, hrun⟩ := run_bind_eq_ok hrun
  obtain ⟨_, s₄, hput, hrun⟩ := run_bind_eq_ok hrun
  obtain ⟨hanswer, rfl⟩ := run_rpc_eq_ok hput
  cases hrun
  exact ⟨signature, h.put s₃ _ bucketId _ hanswer⟩

theorem records_of_storeCnsRecord (h : CnsEnvironment env node.keys records) {cid : String}
    {options : OperationOptions} {stored : RecordMessage}
    (hrun : run env (node.storeCnsRecord bucketId ⟨cid, name⟩ options) s = (.ok stored, t)) :
    ∃ bytes signature, node.base32.decode cid = .ok bytes ∧
      records t bucketId name = some { cid := bytes, name, signature := some signature } := by
  obtain ⟨params, s₁, -, hrun⟩ := run_bind_eq_ok hrun
  obtain ⟨message, s₂, hmessage, hrun⟩ := run_bind_eq_ok hrun
  obtain ⟨hmessage, -⟩ := run_ofExcept_eq_ok hmessage
  unfold mapCnsRecordToAPI at hmessage
  cases hdecode : node.base32.decode cid with
  | error e =>
    rw [hdecode] at hmessage
    cases hmessage
  | ok bytes =>
    rw [hdecode] at hmessage
    cases hmessage
    obtain ⟨signature, hrecord⟩ := records_of_putRecord h hrun
    exact ⟨bytes, signature, rfl, hrecord⟩

/-! ## Reading what a name is for -/

theorem entity_of_quiet (r : ApiRequest) (h : r.Quiet) : r.entity = none := h.1

/-- The last call of a program, when nothing is asked for after it. -/
theorem entities_call {α : Type} {info : ApiMeta} {method : RpcMethod}
    {f : method.Response → ApiProgram α} (hf : ∀ a, (f a).All fun _ => False) :
    (Program.requests env (call info method >>= f) s).filterMap ApiRequest.entity
      = ((ApiRequest.rpc info method).entity).toList := by
  have hrest : ∀ x : Except JsError method.Response,
      (Program.ofExcept x >>= f : ApiProgram α).All fun _ => False := by
    intro x
    cases x with
    | error e => trivial
    | ok a => exact hf a
  let request := ApiRequest.rpc info method
  have hrequests : Program.requests env (call info method >>= f) s = [request] :=
    congrArg (request :: ·) (requests_eq_nil (hrest (env s request).1))
  rw [hrequests]
  cases hentity : request.entity <;> simp [request] at hentity <;> simp [request, hentity]

/-- The range can be put into a request. -/
def ReadFileRange.Valid (range : ReadFileRange) : Prop := range.start ≤ range.end_ + 1

theorem entities_getFile (h : CnsEnvironment env node.keys records) {params : MetaParams}
    (hhead : signatureHead (node.keys.account params.token) = .ok head) {cid : Cid}
    {range : Option ReadFileRange} (hrange : ∀ r ∈ range, r.Valid) :
    (Program.requests env
      (FileApi.getFile node.hasher node.options params bucketId cid range) s).filterMap
        ApiRequest.entity = [cid] := by
  obtain ⟨info, t, hinfo, htoken⟩ := @ends_create _ env (env s .uuid).2 params
  obtain ⟨signed, u, hsign⟩ : ∃ signed u, Ends env ApiRequest.Quiet
      (signMeta node.options.keys
        { requestId := some (env s .uuid).1, id := some cid, bucketId,
          offset := range.map (·.start),
          size := range.map fun range => range.end_ - range.start + 1, requestType := .get }
        info) t signed u := by
    refine ends_signMeta h ?_ (by rw [htoken]; exact hhead)
    cases range with
    | none => simp
    | some r =>
      have hvalid : r.start ≤ r.end_ + 1 := hrange r rfl
      simp only [Option.map_some, Option.getD_some]
      omega
  have huuid : Ends env ApiRequest.Quiet Api.uuid s (env s .uuid).1 (env s .uuid).2 :=
    .request quiet_uuid
  refine (huuid.filterMap_requests_bind entity_of_quiet).trans ?_
  refine (hinfo.filterMap_requests_bind entity_of_quiet).trans ?_
  refine (hsign.filterMap_requests_bind entity_of_quiet).trans ?_
  exact entities_call fun _ => trivial

theorem entities_getNode (h : CnsEnvironment env node.keys records) {params : MetaParams}
    (hhead : signatureHead (node.keys.account params.token) = .ok head)
    {request : DagGetMessage} :
    (Program.requests env (DagApi.getNode node.hasher node.options params request) s).filterMap
      ApiRequest.entity = [request.cid] := by
  obtain ⟨info, t, hinfo, htoken⟩ := @ends_create _ env s params
  obtain ⟨signed, u, hsign⟩ : ∃ signed u, Ends env ApiRequest.Quiet
      (signMeta node.options.keys
        { id := some request.cid, bucketId := request.bucketId, requestType := .get } info)
        t signed u := ends_signMeta h (by simp) (by rw [htoken]; exact hhead)
  refine (hinfo.filterMap_requests_bind entity_of_quiet).trans ?_
  refine (hsign.filterMap_requests_bind entity_of_quiet).trans ?_
  refine entities_call fun response => ?_
  exact .bind (meets_ofExcept fun _ _ => trivial) fun _ _ => trivial

/-! ## Reading it by its name -/

/-- The name leads to a record of this CID, and if it is a CID itself, to that one. -/
structure Leads (records : σ → Nat → String → Option RecordMessage) (base32 : Base32)
    (bucketId : Nat) (name : String) (bytes : Cid) (s : σ) : Prop where
  record : ∃ record, records s bucketId name = some record ∧ record.cid = bytes ∧
    record.signature.isSome = true
  text : base32.isCid name = false ∨ base32.decode name = .ok bytes

variable {bytes : Cid}

theorem Leads.ends {α : Type} {p : ApiProgram α} {a : α}
    (hlead : Leads records node.base32 bucketId name bytes s)
    (h : CnsEnvironment env keys records) (hp : Ends env ApiRequest.Quiet p s a t) :
    Leads records node.base32 bucketId name bytes t :=
  ⟨by rw [h.records_ends hp]; exact hlead.record, hlead.text⟩

theorem Leads.resolveName (hlead : Leads records node.base32 bucketId name bytes s)
    (h : CnsEnvironment env node.keys records) (options : CnsRecordGetOptions) :
    ∃ text u, Ends env ApiRequest.Quiet (node.resolveName bucketId name options) s text u ∧
      node.base32.decode text = .ok bytes := by
  obtain ⟨⟨record, hrecord, rfl, hsigned⟩, htext⟩ := hlead
  cases hname : node.base32.isCid name with
  | false =>
    obtain ⟨u, hends⟩ := ends_resolveName h hname hrecord hsigned options
    exact ⟨_, u, hends, node.base32.decode_encode record.cid⟩
  | true =>
    rw [hname] at htext
    refine ⟨name, s, ?_, htext.resolve_left Bool.noConfusion⟩
    unfold NodeClient.resolveName
    rw [hname]
    exact .done

theorem Leads.readPiece (hlead : Leads records node.base32 bucketId name bytes s)
    (h : CnsEnvironment env node.keys records) {options : PieceReadOptions}
    (hrange : ∀ range ∈ options.range, range.Valid) :
    (Program.requests env (node.readPiece bucketId name options) s).filterMap ApiRequest.entity
      = [bytes] := by
  obtain ⟨params, head, t, hparams, hhead⟩ := ends_metaParams h options.toOperationOptions (s := s)
  obtain ⟨text, u, hresolve, hdecode⟩ := (hlead.ends h hparams).resolveName h
    { options.toOperationOptions with cacheControl := options.cacheControl }
  refine (hparams.filterMap_requests_bind entity_of_quiet).trans ?_
  refine (hresolve.filterMap_requests_bind entity_of_quiet).trans ?_
  rw [hdecode, ofExcept_ok, done_bind]
  rw [requests_bind_eq_left]
  · exact entities_getFile h hhead hrange
  · exact fun _ => trivial

theorem Leads.getDagNode (hlead : Leads records node.base32 bucketId name bytes s)
    (h : CnsEnvironment env node.keys records) {options : DagNodeGetOptions} :
    (Program.requests env (node.getDagNode bucketId name options) s).filterMap ApiRequest.entity
      = [bytes] := by
  obtain ⟨params, head, t, hparams, hhead⟩ := ends_metaParams h options.toOperationOptions (s := s)
  obtain ⟨text, u, hresolve, hdecode⟩ := (hlead.ends h hparams).resolveName h
    { options.toOperationOptions with cacheControl := options.cacheControl }
  refine (hparams.filterMap_requests_bind entity_of_quiet).trans ?_
  refine (hresolve.filterMap_requests_bind entity_of_quiet).trans ?_
  rw [hdecode, ofExcept_ok, done_bind]
  rw [requests_bind_eq_left]
  · exact entities_getNode h hhead
  · exact fun _ => trivial

/-- A URI that is built from the name is read at the CID. -/
theorem Leads.read (hlead : Leads records node.base32 bucketId name bytes s)
    (h : CnsEnvironment env node.keys records) (hname : name ≠ "") {entity : DdcEntity}
    {fileOptions : PieceReadOptions} {nodeOptions : DagNodeGetOptions}
    (hrange : ∀ range ∈ fileOptions.range, range.Valid) :
    (Program.requests env
      (node.read (.new node.base32 bucketId name entity) fileOptions nodeOptions) s).filterMap
        ApiRequest.entity = [bytes] := by
  unfold NodeClient.read
  rw [DdcUri.cidOrName_new hname, ofExcept_ok, done_bind]
  have hentity : (DdcUri.new node.base32 bucketId name entity).entity = entity := by
    unfold DdcUri.new
    split <;> rfl
  have hbucket : (DdcUri.new node.base32 bucketId name entity).bucketId = bucketId := by
    unfold DdcUri.new
    split <;> rfl
  rw [hentity, hbucket]
  cases entity with
  | file =>
    rw [requests_bind_eq_left]
    · exact hlead.readPiece h hrange
    · exact fun _ => trivial
  | dagNode =>
    rw [requests_bind_eq_left]
    · exact hlead.getDagNode h
    · exact fun _ => trivial

/-! ## Storing comes to an end -/

theorem run_storeCnsRecord_ok (bucketId : Nat) (name : String)
    (h : CnsEnvironment env node.keys records)
    (hput : ∀ s info bucketId record,
      (env s (.rpc info (.cnsPut bucketId record))).1 = .ok ())
    (hsigner : signatureHead node.keys.signer.toAccount = .ok head) {cid : String}
    (hcid : node.base32.decode cid = .ok bytes) :
    ∃ stored u, run env (node.storeCnsRecord bucketId ⟨cid, name⟩) s = (.ok stored, u) := by
  obtain ⟨params, paramsHead, s₁, hparams, hhead⟩ := ends_metaParams h {} (s := s)
  let record : RecordMessage := { cid := bytes, name }
  have hmessage : mapCnsRecordToAPI node.base32 ⟨cid, name⟩ = .ok record := by
    unfold mapCnsRecordToAPI
    rw [hcid]
    rfl
  obtain ⟨info, s₂, hinfo, -⟩ := @ends_create _ env s₁ params
  obtain ⟨signature, s₃, hsignature⟩ : ∃ signature s₃,
      run env (Api.createSignature node.keys record.toBinary params.token) s₂
        = (.ok signature, s₃) := run_createSignature_ok h hhead
  obtain ⟨request, s₄, hrequest⟩ : ∃ request s₄,
      run env (createActivityRequest node.keys
        { bucketId, size := some record.toBinary.length, requestType := .store } none) s₃
        = (.ok request, s₄) := run_createActivityRequest_ok h (by simp) hsigner
  have hcall : run env (call { info with request := some request }
      (.cnsPut bucketId { record with signature := some signature })) s₄ = (.ok (), _) :=
    run_await (congrArg (fun x => (Except.ok x, _)) (hput s₄ _ bucketId _))
  have hrecord : run env (CnsApi.putRecord node.options params bucketId record) s₁
      = (.ok { record with signature := some signature }, _) :=
    (run_bind_ok hinfo.run).trans ((run_bind_ok hsignature).trans
      ((run_bind_ok hrequest).trans ((run_bind_ok hcall).trans rfl)))
  exact ⟨_, _, (run_bind_ok hparams.run).trans
    ((run_bind_ok (run_ofExcept_ok hmessage)).trans hrecord)⟩

end

/-- A node that keeps its records, with everything granted. -/
def cnsNode : Environment ApiRequest.Answer (Nat → String → Option RecordMessage) :=
  fun records r =>
    match r with
    | .rpc _ (.cnsPut bucketId record) =>
      (.ok (), fun b n => if b = bucketId ∧ n = record.name then some record else records b n)
    | .rpc _ (.cnsGet bucketId name) =>
      (match records bucketId name with
        | some record => .ok (some record)
        | none => .error (.rpc { code := GrpcStatus.unknown.name, message := "no result" }),
        records)
    | .authToken _ => (.ok (.root none { operations := [] }), records)
    | _ => (default, records)

theorem cnsNode_environment {keys : Keys} {head : SignatureAlgorithm × PublicKey}
    (h : signatureHead keys.signer.toAccount = .ok head) :
    CnsEnvironment cnsNode keys id where
  put := fun s info bucketId record _ => by simp [cnsNode]
  keep := fun s bucketId name r hr => by
    cases r with
    | rpc info method =>
      cases method with
      | cnsPut bucketId' record =>
        refine if_neg fun hkey => hr ⟨hkey.1.symm, hkey.2.symm⟩
      | _ => rfl
    | _ => rfl
  get := fun s info bucketId name record hrecord => by
    have hfound : s bucketId name = some record := hrecord
    unfold cnsNode
    dsimp only
    rw [hfound]
  authToken := fun s accessToken => ⟨_, head, rfl, h⟩
  ready := fun s account => rfl
  sign := fun s account message => ⟨[], rfl⟩

/-! ## Reading back -/

/-- Once a record of the CID is stored under the name, and as long as no other is, the name
resolves to the CID and what is read at a URI of the name is asked for by it. -/
def NodeClient.ReadsBack (node : NodeClient) (bucketId : Nat) (cid name : String) : Prop :=
  ∀ (σ : Type) (env : Environment ApiRequest.Answer σ)
    (records : σ → Nat → String → Option RecordMessage), CnsEnvironment env node.keys records →
  ∀ (s t : σ) (storeOptions : OperationOptions) (stored : RecordMessage),
    run env (node.storeCnsRecord bucketId ⟨cid, name⟩ storeOptions) s = (.ok stored, t) →
  ∀ rs : List ApiRequest, (∀ r ∈ rs, ¬ r.Stores bucketId name) →
    (∀ options, ∃ text u,
      run env (node.resolveName bucketId name options) (after env t rs) = (.ok text, u) ∧
        node.base32.SameCid text cid) ∧
    ∀ entity (fileOptions : PieceReadOptions) nodeOptions,
      (∀ range ∈ fileOptions.range, range.Valid) →
      ∃ bytes, node.base32.decode cid = .ok bytes ∧
        (Program.requests env (node.read (.new node.base32 bucketId name entity) fileOptions
          nodeOptions) (after env t rs)).filterMap ApiRequest.entity = [bytes]

section

variable {node : NodeClient} {bucketId : Nat} {cid name : String}
  {head : SignatureAlgorithm × PublicKey}

theorem NodeClient.readsBack_of (hname : name ≠ "")
    (h : node.base32.isCid name = false ∨ node.base32.SameCid name cid) :
    node.ReadsBack bucketId cid name := by
  intro σ env records henv s t storeOptions stored hstore rs hrs
  obtain ⟨bytes, signature, hcid, hrecord⟩ := records_of_storeCnsRecord henv hstore
  have hkept : records (after env t rs) bucketId name = records t bucketId name :=
    after_preserves (v := fun s => records s bucketId name) hrs
      fun s r hr => henv.keep s bucketId name r hr
  have hlead : Leads records node.base32 bucketId name bytes (after env t rs) :=
    ⟨⟨_, hkept.trans hrecord, rfl, rfl⟩, h.imp_right fun hsame => Eq.trans hsame hcid⟩
  refine ⟨fun options => ?_, fun entity fileOptions nodeOptions hrange => ?_⟩
  · obtain ⟨text, u, hends, hdecode⟩ := hlead.resolveName henv options
    exact ⟨text, u, hends.run, hdecode.trans hcid.symm⟩
  · exact ⟨bytes, hcid, hlead.read henv hname hrange⟩

/-- A name that is taken for a CID resolves to itself. -/
theorem NodeClient.ReadsBack.sameCid (h : node.ReadsBack bucketId cid name)
    (hcid : node.base32.isCid cid = true)
    (hsigner : signatureHead node.keys.signer.toAccount = .ok head)
    (hname : node.base32.isCid name = true) : node.base32.SameCid name cid := by
  obtain ⟨bytes, hdecode, -⟩ := Base32.isCid_iff.mp hcid
  have henv := cnsNode_environment hsigner
  obtain ⟨stored, t, hstore⟩ : ∃ stored t,
      run cnsNode (node.storeCnsRecord bucketId ⟨cid, name⟩) (fun _ _ => none)
        = (.ok stored, t) :=
    run_storeCnsRecord_ok bucketId name henv (fun _ _ _ _ => rfl) hsigner hdecode
  obtain ⟨text, u, hresolve, hsame⟩ :=
    (h _ cnsNode id henv _ t {} stored hstore [] (by simp)).1 {}
  unfold NodeClient.resolveName at hresolve
  rw [hname] at hresolve
  cases hresolve
  exact hsame

/-- What is stored under a name is read back by it exactly when the name is not taken for a CID,
or is the CID itself. -/
theorem NodeClient.readsBack_iff (node : NodeClient) (bucketId : Nat) (cid name : String)
    (hcid : node.base32.isCid cid = true) (hname : name ≠ "")
    (hsigner : ∃ head, signatureHead node.keys.signer.toAccount = .ok head) :
    node.ReadsBack bucketId cid name ↔
      node.base32.isCid name = false ∨ node.base32.SameCid name cid := by
  constructor
  · intro h
    obtain ⟨head, hhead⟩ := hsigner
    cases hread : node.base32.isCid name with
    | false => exact .inl rfl
    | true => exact .inr (h.sameCid hcid hhead hread)
  · exact NodeClient.readsBack_of hname

end

/-- A node of a signer that DDC accepts. -/
def plainClient : NodeClient :=
  { keys := ⟨UriSigner (plainPair .sr25519 2), []⟩, base32 := .rfc4648, hasher := .buffered id }

/-- The text of the CID with these bytes. -/
def cidOfBytes (byte : UInt8) : String := Base32.rfc4648.encode (List.replicate 33 byte)

theorem decode_cidOfBytes (byte : UInt8) :
    Base32.rfc4648.decode (cidOfBytes byte) = .ok (List.replicate 33 byte) := by
  rw [cidOfBytes, Base32.decode_encode]

theorem isCid_cidOfBytes (byte : UInt8) : Base32.rfc4648.isCid (cidOfBytes byte) = true :=
  Base32.isCid_iff.mpr ⟨_, decode_cidOfBytes byte, by simp⟩

theorem plainClient_head :
    signatureHead plainClient.keys.signer.toAccount = .ok (.sr25519, [2]) := rfl

theorem NodeClient.readsBack_iff_slash :
    plainClient.ReadsBack 1 (cidOfBytes 0) "photos/cat" ↔
      plainClient.base32.isCid "photos/cat" = false ∨
        plainClient.base32.SameCid "photos/cat" (cidOfBytes 0) :=
  NodeClient.readsBack_iff plainClient 1 (cidOfBytes 0) "photos/cat" (isCid_cidOfBytes 0)
    (by decide) ⟨_, plainClient_head⟩

/-- A name that has the form of another CID is read at that CID. -/
theorem NodeClient.cidName_not_readBack :
    ¬ plainClient.ReadsBack 1 (cidOfBytes 0) (cidOfBytes 1) := by
  intro h
  have hsame := h.sameCid (isCid_cidOfBytes 0) plainClient_head (isCid_cidOfBytes 1)
  have hdecode : Base32.rfc4648.decode (cidOfBytes 1) = Base32.rfc4648.decode (cidOfBytes 0) :=
    hsame
  rw [decode_cidOfBytes, decode_cidOfBytes] at hdecode
  exact absurd (Except.ok.inj hdecode) (by decide)

end CereDdc
