import CereDdc.Kit.RelyGuarantee
import CereDdc.CnsNames
import CereDdc.VerifiedContent

/-!
# SharedNode — a storage node with many clients

What the clients of a storage node can rely on while others store DAG nodes and
names there, and the operations of `nodes/StorageNode.ts` under it: what each of
them does to the node, one request at a time, and what it comes to.
-/

namespace CereDdc

open Kit Program Api

/-! ## The storage node -/

/-- A storage node as its clients see it: the hash in its CIDs, and the records and DAG nodes that
it has in a state. -/
structure NodeView (σ : Type) where
  hasher : Hasher
  records : σ → Nat → String → Option RecordMessage
  nodes : σ → Nat → Cid → Option NodeMessage

/-- An environment with a storage node that keeps its records by their names and its DAG nodes by
their CIDs, which `address` gives them. -/
structure SharedNode {σ : Type} (env : Environment ApiRequest.Answer σ) (view : NodeView σ)
    (address : NodeMessage → Cid) : Prop where
  cnsPut : ∀ s info bucketId record, (env s (.rpc info (.cnsPut bucketId record))).1 = .ok ()
  cnsMissing : ∀ s info bucketId name, view.records s bucketId name = none →
    (env s (.rpc info (.cnsGet bucketId name))).1 = .ok none ∨
      ∃ e, (env s (.rpc info (.cnsGet bucketId name))).1 = .error e ∧ CnsApi.isNotFound e = true
  dagPut : ∀ s info bucketId message cid,
    (env s (.rpc info (.dagPut bucketId (some message) cid))).1 = .ok (address message)
  dagPutNodes : ∀ s info bucketId message cid bucketId' cid',
    view.nodes (env s (.rpc info (.dagPut bucketId (some message) cid))).2 bucketId' cid' =
      if bucketId' = bucketId ∧ cid' = address message then some message
      else view.nodes s bucketId' cid'
  dagKeep : ∀ s r, (∀ info bucketId message cid, r ≠ .rpc info (.dagPut bucketId message cid)) →
    view.nodes (env s r).2 = view.nodes s
  dagGet : ∀ s info (request : DagGetMessage) message, request.path.filter (· ≠ "") = none →
    view.nodes s request.bucketId request.cid = some message →
    (env s (.rpc info (.dagGet request))).1 = .ok (some message)
  address_hash : ∀ message, (address message).contentHash = view.hasher.hash message.toBinary
  address_length : ∀ message, 32 < (address message).length

/-- A client whose signers the node accepts, and the packages it uses. -/
structure NodeClient.Granted {σ : Type} (client : NodeClient)
    (env : Environment ApiRequest.Answer σ) (view : NodeView σ) (base32 : Base32) : Prop
    extends CnsEnvironment env client.keys view.records where
  signer : ∃ head, signatureHead client.keys.signer.toAccount = .ok head
  hasher_eq : client.hasher = view.hasher
  base32_eq : client.base32 = base32

/-! ## What is kept -/

/-- The DAG nodes there may be in a bucket, and those that a name may lead to. -/
structure Origins where
  known : Nat → NodeMessage → Prop
  named : Nat → String → NodeMessage → Prop

/-- No two of the DAG nodes have the same hash. -/
def Origins.Distinct (origins : Origins) (hasher : Hasher) : Prop :=
  ∀ bucketId message message', origins.known bucketId message → origins.known bucketId message' →
    hasher.hash message.toBinary = hasher.hash message'.toBinary → message = message'

section

variable {σ : Type} (view : NodeView σ) (origins : Origins)

/-- Every DAG node is where its hash is, and every name leads to a DAG node. -/
structure Linked (s : σ) : Prop where
  nodes : ∀ bucketId cid message, view.nodes s bucketId cid = some message →
    origins.known bucketId message ∧ Cid.contentHash cid = view.hasher.hash message.toBinary
  records : ∀ bucketId name record, view.records s bucketId name = some record →
    record.signature.isSome = true ∧ ∃ message,
      view.nodes s bucketId record.cid = some message ∧ origins.named bucketId name message

/-- What clients leave each other: a linked state stays linked, and keeps its DAG nodes and its
names. -/
def Preserves (s t : σ) : Prop :=
  Linked view origins s → Linked view origins t ∧
    (∀ bucketId cid message, view.nodes s bucketId cid = some message →
      view.nodes t bucketId cid = some message) ∧
    ∀ bucketId name, (view.records s bucketId name).isSome → (view.records t bucketId name).isSome

/-- The DAG node is there. -/
def HasNode (bucketId : Nat) (cid : Cid) (message : NodeMessage) (s : σ) : Prop :=
  Linked view origins s ∧ view.nodes s bucketId cid = some message

/-- The name is there. -/
def HasName (bucketId : Nat) (name : String) (s : σ) : Prop :=
  Linked view origins s ∧ (view.records s bucketId name).isSome

end

section

variable {σ : Type} {view : NodeView σ} {origins : Origins} {bucketId : Nat} {cid : Cid}
  {name : String} {message : NodeMessage} {s t : σ}

theorem Preserves.refl (s : σ) : Preserves view origins s s :=
  fun h => ⟨h, fun _ _ _ h => h, fun _ _ h => h⟩

theorem Preserves.trans (s t u : σ) (hst : Preserves view origins s t)
    (htu : Preserves view origins t u) : Preserves view origins s u := by
  intro hs
  obtain ⟨ht, hnodes, hrecords⟩ := hst hs
  obtain ⟨hu, hnodes', hrecords'⟩ := htu ht
  exact ⟨hu, fun b c m h => hnodes' b c m (hnodes b c m h),
    fun b n h => hrecords' b n (hrecords b n h)⟩

theorem stable_linked : Stable (Preserves view origins) (Linked view origins) :=
  fun _ _ hst hs => (hst hs).1

theorem stable_hasNode :
    Stable (Preserves view origins) (HasNode view origins bucketId cid message) :=
  fun _ _ hst hs => ⟨(hst hs.1).1, (hst hs.1).2.1 bucketId cid message hs.2⟩

theorem stable_hasName : Stable (Preserves view origins) (HasName view origins bucketId name) :=
  fun _ _ hst hs => ⟨(hst hs.1).1, (hst hs.1).2.2 bucketId name hs.2⟩

/-! ## Steps -/

/-- The requests that store nothing. -/
def ApiRequest.Reads (r : ApiRequest) : Prop :=
  (∀ bucketId name, ¬ r.Stores bucketId name) ∧
    ∀ info bucketId message cid, r ≠ .rpc info (.dagPut bucketId message cid)

theorem reads_of {r : ApiRequest} (h : ∀ info method, r ≠ .rpc info method) : r.Reads := by
  constructor
  · intro bucketId name hstores
    cases r with
    | rpc info method => exact h info method rfl
    | _ => exact hstores
  · exact fun info bucketId message cid => h info _

theorem reads_cnsGet {info : ApiMeta} : ApiRequest.Reads (.rpc info (.cnsGet bucketId name)) :=
  ⟨fun _ _ h => h, by simp⟩

theorem reads_dagGet {info : ApiMeta} {request : DagGetMessage} :
    ApiRequest.Reads (.rpc info (.dagGet request)) :=
  ⟨fun _ _ h => h, by simp⟩

variable {env : Environment ApiRequest.Answer σ} {address : NodeMessage → Cid}
  {client : NodeClient} {base32 : Base32}

theorem preserves_of_eq (hrecords : view.records t = view.records s)
    (hnodes : view.nodes t = view.nodes s) : Preserves view origins s t := by
  intro hs
  refine ⟨⟨?_, ?_⟩, ?_, ?_⟩
  · rw [hnodes]
    exact hs.nodes
  · rw [hnodes, hrecords]
    exact hs.records
  · rw [hnodes]
    exact fun _ _ _ h => h
  · rw [hrecords]
    exact fun _ _ h => h

theorem records_keep (hclient : client.Granted env view base32) {r : ApiRequest}
    (hr : ∀ bucketId name, ¬ r.Stores bucketId name) : view.records (env s r).2 = view.records s :=
  funext fun b => funext fun n => hclient.keep s b n r (hr b n)

theorem preserves_reads (hnode : SharedNode env view address)
    (hclient : client.Granted env view base32) {r : ApiRequest} (hr : r.Reads) (s : σ) :
    Preserves view origins s (env s r).2 :=
  preserves_of_eq (records_keep hclient hr.1) (hnode.dagKeep s r hr.2)

/-- A known DAG node is stored where nothing else is. -/
theorem preserves_dagPut (hnode : SharedNode env view address)
    (hclient : client.Granted env view base32) (hdistinct : origins.Distinct view.hasher)
    (hknown : origins.known bucketId message) (info : ApiMeta) (cid : Option Cid) (s : σ) :
    let t := (env s (.rpc info (.dagPut bucketId (some message) cid))).2
    Preserves view origins s t ∧
      (Linked view origins s → HasNode view origins bucketId (address message) message t) := by
  intro t
  have hrecords : view.records t = view.records s := records_keep hclient fun _ _ h => h
  have hnodes := hnode.dagPutNodes s info bucketId message cid
  have hthere : view.nodes t bucketId (address message) = some message := by
    rw [hnodes, if_pos ⟨rfl, rfl⟩]
  suffices hkept : Preserves view origins s t by
    exact ⟨hkept, fun hs => ⟨(hkept hs).1, hthere⟩⟩
  intro hs
  have hgrow : ∀ b c m, view.nodes s b c = some m → view.nodes t b c = some m := by
    intro b c m hm
    rw [hnodes]
    split
    · next heq =>
      obtain ⟨rfl, rfl⟩ := heq
      obtain ⟨hknown', hhash⟩ := hs.nodes _ _ _ hm
      rw [hnode.address_hash] at hhash
      exact congrArg some (hdistinct _ _ _ hknown hknown' hhash)
    · exact hm
  refine ⟨⟨?_, ?_⟩, hgrow, ?_⟩
  · intro b c m hm
    rw [hnodes] at hm
    split at hm
    · next heq =>
      obtain ⟨rfl, rfl⟩ := heq
      cases hm
      exact ⟨hknown, hnode.address_hash message⟩
    · exact hs.nodes b c m hm
  · intro b n record hrecord
    rw [hrecords] at hrecord
    obtain ⟨hsigned, m, hm, hnamed⟩ := hs.records b n record hrecord
    exact ⟨hsigned, m, hgrow _ _ _ hm, hnamed⟩
  · rw [hrecords]
    exact fun _ _ h => h

/-- A name is stored once the DAG node is there. -/
theorem preserves_cnsPut (hnode : SharedNode env view address)
    (hclient : client.Granted env view base32) (hnamed : origins.named bucketId name message)
    (info : ApiMeta) (signature : Signature) (hs : HasNode view origins bucketId cid message s) :
    let t := (env s (.rpc info
      (.cnsPut bucketId { cid, name, signature := some signature }))).2
    Preserves view origins s t ∧ HasName view origins bucketId name t := by
  intro t
  have hnodes : view.nodes t = view.nodes s := hnode.dagKeep s _ (by simp)
  have hthere : view.records t bucketId name = some { cid, name, signature := some signature } :=
    hclient.put s info bucketId _ (hnode.cnsPut s info bucketId _)
  have hothers : ∀ b n, ¬ (b = bucketId ∧ n = name) →
      view.records t b n = view.records s b n := by
    intro b n hne
    exact hclient.keep s b n _ fun hstores => hne ⟨hstores.1.symm, hstores.2.symm⟩
  suffices hkept : Preserves view origins s t by
    refine ⟨hkept, (hkept hs.1).1, ?_⟩
    rw [hthere]
    rfl
  intro hlinked
  refine ⟨⟨?_, ?_⟩, ?_, ?_⟩
  · rw [hnodes]
    exact hlinked.nodes
  · intro b n record hrecord
    rw [hnodes]
    by_cases heq : b = bucketId ∧ n = name
    · obtain ⟨rfl, rfl⟩ := heq
      rw [hthere] at hrecord
      cases hrecord
      exact ⟨rfl, message, hs.2, hnamed⟩
    · rw [hothers b n heq] at hrecord
      exact hlinked.records b n record hrecord
  · rw [hnodes]
    exact fun _ _ _ h => h
  · intro b n hsome
    by_cases heq : b = bucketId ∧ n = name
    · obtain ⟨rfl, rfl⟩ := heq
      rw [hthere]
      rfl
    · rwa [hothers b n heq]

/-! ## What an operation asks before its call -/

variable {A : σ → Prop} {token : Option AuthToken} {head : SignatureAlgorithm × PublicKey}

/-- A request that stores nothing, where `T` holds of every answer. -/
theorem triple_request (hnode : SharedNode env view address)
    (hclient : client.Granted env view base32) (hA : Stable (Preserves view origins) A)
    {r : ApiRequest} (hr : r.Reads) {T : r.Answer → Prop} (hT : ∀ s, A s → T (env s r).1) :
    Triple env (Preserves view origins) A (.request r : ApiProgram r.Answer)
      fun a s => A s ∧ T a := by
  refine .request hA (fun a => hA.and .pure) fun s hs => ?_
  have hstep : Preserves view origins s (env s r).2 := preserves_reads hnode hclient hr s
  exact ⟨hstep, hA _ _ hstep hs, hT s hs⟩

theorem triple_await {α : Type} {p : ApiProgram (Except JsError α)} {T : α → Prop}
    (hA : Stable (Preserves view origins) A)
    (h : Triple env (Preserves view origins) A p fun x s => A s ∧ ∃ a, x = .ok a ∧ T a) :
    Triple env (Preserves view origins) A (await p) fun a s => A s ∧ T a := by
  refine .bind Preserves.refl h fun x => .assume ?_
  rintro ⟨a, rfl, ha⟩
  exact .done (hA.and .pure) fun s hs => ⟨hs, ha⟩

theorem triple_createSignature (hnode : SharedNode env view address)
    (hclient : client.Granted env view base32) (hA : Stable (Preserves view origins) A)
    {message : Bytes} (hhead : signatureHead (client.keys.account token) = .ok head) :
    Triple env (Preserves view origins) A (Api.createSignature client.keys message token)
      fun _ => A := by
  have hready : Triple env (Preserves view origins) A (Api.ready (client.keys.account token))
      fun _ s => A s ∧ True :=
    triple_await hA (triple_request hnode hclient hA (reads_of (by simp))
      fun s _ => ⟨(), hclient.ready s _, trivial⟩)
  have hsign : Triple env (Preserves view origins) A (Api.sign (client.keys.account token) message)
      fun _ s => A s ∧ True := by
    refine triple_await hA (triple_request hnode hclient hA (reads_of (by simp)) ?_)
    intro s _
    obtain ⟨value, hvalue⟩ := hclient.sign s (client.keys.account token) message
    exact ⟨value, hvalue, trivial⟩
  refine .bind Preserves.refl hready fun _ => .assume fun _ => ?_
  refine .bind Preserves.refl (.ofExcept_ok hhead hA) fun _ => .assume fun _ => ?_
  exact .bind Preserves.refl hsign fun _ => .assume fun _ => .done hA fun _ hs => hs

theorem triple_createActivityRequest (hnode : SharedNode env view address)
    (hclient : client.Granted env view base32) (hA : Stable (Preserves view origins) A)
    {fields : ActivityFields} (hsize : ¬ fields.size.getD 0 < 0)
    (hhead : signatureHead (client.keys.account token) = .ok head) :
    Triple env (Preserves view origins) A (createActivityRequest client.keys fields token)
      fun _ => A := by
  have hnow : Triple env (Preserves view origins) A Api.now fun _ s => A s ∧ True :=
    triple_request hnode hclient hA (reads_of (by simp)) fun _ _ => trivial
  have huuid : Triple env (Preserves view origins) A Api.uuid fun _ s => A s ∧ True :=
    triple_request hnode hclient hA (reads_of (by simp)) fun _ _ => trivial
  unfold createActivityRequest
  refine .bind Preserves.refl hnow fun timestamp => .assume fun _ => ?_
  refine .bind Preserves.refl huuid fun requestId => .assume fun _ => ?_
  rw [if_neg hsize]
  exact .bind Preserves.refl (triple_createSignature hnode hclient hA hhead) fun _ =>
    .done hA fun _ hs => hs

theorem triple_signMeta (hnode : SharedNode env view address)
    (hclient : client.Granted env view base32) (hA : Stable (Preserves view origins) A)
    {fields : ActivityFields} (hsize : ¬ fields.size.getD 0 < 0) {info : ApiMeta}
    (hhead : signatureHead (client.keys.account info.token) = .ok head) :
    Triple env (Preserves view origins) A (signMeta client.options.keys fields info)
      fun _ => A :=
  .bind Preserves.refl (triple_createActivityRequest hnode hclient hA hsize hhead) fun _ =>
    .done hA fun _ hs => hs

theorem triple_create (hnode : SharedNode env view address)
    (hclient : client.Granted env view base32) (hA : Stable (Preserves view origins) A)
    (params : MetaParams) :
    Triple env (Preserves view origins) A params.create
      fun info s => A s ∧ info.token = params.token := by
  unfold MetaParams.create createRpcMeta
  cases params.correlationId.filter (· ≠ "") with
  | some id => exact .done (hA.and .pure) fun _ hs => ⟨hs, rfl⟩
  | none =>
    have huuid : Triple env (Preserves view origins) A Api.uuid fun _ s => A s ∧ True :=
      triple_request hnode hclient hA (reads_of (by simp)) fun _ _ => trivial
    exact .bind Preserves.refl huuid fun _ => .assume fun _ =>
      .done (hA.and .pure) fun _ hs => ⟨hs, rfl⟩

/-- An id that is made where the caller has none. -/
theorem triple_orUuid (hnode : SharedNode env view address)
    (hclient : client.Granted env view base32) (hA : Stable (Preserves view origins) A)
    (given : Option String) :
    Triple env (Preserves view origins) A
      (match given with | some id => return id | none => uuid) fun _ => A := by
  cases given with
  | some id => exact .done hA fun _ hs => hs
  | none =>
    exact (triple_request hnode hclient hA (reads_of (by simp)) (T := fun _ => True)
      fun _ _ => trivial).imp (fun _ hs => hs) fun _ _ hs => hs.1

theorem triple_authToken (hnode : SharedNode env view address)
    (hclient : client.Granted env view base32) (hA : Stable (Preserves view origins) A)
    (accessToken : Option TokenInput) :
    Triple env (Preserves view origins) A (Api.createAuthToken accessToken) fun token s =>
      A s ∧ ∃ head, signatureHead (client.keys.account (some token)) = .ok head := by
  refine triple_await hA (triple_request hnode hclient hA (reads_of (by simp)) ?_)
  intro s _
  obtain ⟨token, head, htoken, hhead⟩ := hclient.authToken s accessToken
  exact ⟨token, htoken, head, hhead⟩

theorem triple_metaParams (hnode : SharedNode env view address)
    (hclient : client.Granted env view base32) (hA : Stable (Preserves view origins) A)
    (options : OperationOptions) :
    Triple env (Preserves view origins) A (NodeClient.metaParams options) fun params s =>
      A s ∧ ∃ head, signatureHead (client.keys.account params.token) = .ok head := by
  refine .bind Preserves.refl (triple_authToken hnode hclient hA options.accessToken)
    fun token => .assume fun hhead => ?_
  refine .bind Preserves.refl (triple_orUuid hnode hclient hA _) fun id => ?_
  exact .done (hA.and .pure) fun _ hs => ⟨hs, hhead⟩

/-! ## Reading -/

/-- The name is there, if it was written. -/
def WrittenName (view : NodeView σ) (origins : Origins) (bucketId : Nat) (name : String)
    (written : Prop) (s : σ) : Prop :=
  Linked view origins s ∧ (written → HasName view origins bucketId name s)

/-- What a name leads to: a DAG node that may have it, or nothing if it was not written. -/
def LeadsTo (view : NodeView σ) (origins : Origins) (bucketId : Nat) (name : String)
    (written : Prop) : Option Cid → σ → Prop
  | none, _ => ¬ written
  | some cid, s => ∃ message, HasNode view origins bucketId cid message s ∧
      origins.named bucketId name message

variable {written : Prop}

theorem stable_writtenName :
    Stable (Preserves view origins) (WrittenName view origins bucketId name written) :=
  fun s t hst hs => ⟨(hst hs.1).1, fun h => stable_hasName s t hst (hs.2 h)⟩

theorem stable_leadsTo {result : Option Cid} :
    Stable (Preserves view origins) (LeadsTo view origins bucketId name written result) := by
  intro s t hst hs
  cases result with
  | none => exact hs
  | some cid =>
    obtain ⟨message, hthere, hnamed⟩ := hs
    exact ⟨message, stable_hasNode s t hst hthere, hnamed⟩

/-- How the node answers to the request for a record. -/
theorem cnsGet_answer (hnode : SharedNode env view address)
    (hclient : client.Granted env view base32) {info : ApiMeta}
    (hs : WrittenName view origins bucketId name written s) :
    (∃ record, (env s (.rpc info (.cnsGet bucketId name))).1 = .ok (some record) ∧
      record.signature.isSome = true ∧
      LeadsTo view origins bucketId name written (some record.cid) s) ∨
    ((env s (.rpc info (.cnsGet bucketId name))).1 = .ok none ∨
      ∃ e, (env s (.rpc info (.cnsGet bucketId name))).1 = .error e ∧
        CnsApi.isNotFound e = true) ∧ LeadsTo view origins bucketId name written none s := by
  cases hrecord : view.records s bucketId name with
  | some record =>
    obtain ⟨hsigned, message, hthere, hnamed⟩ := hs.1.records bucketId name record hrecord
    exact .inl ⟨record, hclient.get s info bucketId name record hrecord, hsigned, message,
      ⟨hs.1, hthere⟩, hnamed⟩
  | none =>
    refine .inr ⟨hnode.cnsMissing s info bucketId name hrecord, fun hwritten => ?_⟩
    have hsome := (hs.2 hwritten).2
    rw [hrecord] at hsome
    cases hsome

theorem triple_getRecord (hnode : SharedNode env view address)
    (hclient : client.Granted env view base32) {params : MetaParams}
    (hhead : signatureHead (client.keys.account params.token) = .ok head)
    (cacheControl : Option String) :
    Triple env (Preserves view origins) (WrittenName view origins bucketId name written)
      (CnsApi.getRecord client.options params bucketId name cacheControl) fun result =>
        LeadsTo view origins bucketId name written (result.map (·.cid)) := by
  unfold CnsApi.getRecord
  refine .bind Preserves.refl (triple_create hnode hclient stable_writtenName params)
    fun info => .assume fun htoken => ?_
  refine .bind Preserves.refl (triple_signMeta hnode hclient stable_writtenName (by simp)
    (by rw [htoken]; exact hhead)) fun signed => ?_
  let Answered (x : Except JsError (Option RecordMessage)) (s : σ) : Prop :=
    (∃ record, x = .ok (some record) ∧ record.signature.isSome = true ∧
      LeadsTo view origins bucketId name written (some record.cid) s) ∨
    (x = .ok none ∨ ∃ e, x = .error e ∧ CnsApi.isNotFound e = true) ∧
      LeadsTo view origins bucketId name written none s
  have hstable : ∀ x, Stable (Preserves view origins) (Answered x) := by
    rintro x s t hst (⟨record, hx, hsigned, hlead⟩ | ⟨hx, hlead⟩)
    · exact .inl ⟨record, hx, hsigned, stable_leadsTo s t hst hlead⟩
    · exact .inr ⟨hx, hlead⟩
  have hrpc : Triple env (Preserves view origins)
      (WrittenName view origins bucketId name written) (Api.rpc signed (.cnsGet bucketId name))
      Answered := by
    refine .request stable_writtenName hstable fun s hs => ?_
    have hstep : Preserves view origins s (env s (.rpc signed (.cnsGet bucketId name))).2 :=
      preserves_reads hnode hclient reads_cnsGet s
    exact ⟨hstep, hstable _ s _ hstep (cnsGet_answer hnode hclient hs)⟩
  refine .bind Preserves.refl hrpc fun x => ?_
  cases x with
  | error e =>
    intro s hs
    rcases hs with ⟨record, hrecord, -, -⟩ | ⟨hnone | ⟨e', he, hnotFound⟩, hlead⟩
    · cases hrecord
    · cases hnone
    · cases he
      dsimp only
      rw [if_pos hnotFound]
      exact fun t _ => hlead
  | ok found =>
    cases found with
    | none =>
      refine .done stable_leadsTo fun s hs => ?_
      rcases hs with ⟨record, hrecord, -, -⟩ | ⟨-, hlead⟩
      · cases hrecord
      · exact hlead
    | some record =>
      refine .done stable_leadsTo fun s hs => ?_
      rcases hs with ⟨record', hrecord, hsigned, hlead⟩ | ⟨hnone | ⟨e, he, -⟩, -⟩
      · cases hrecord
        rw [Option.filter_some, if_pos hsigned]
        exact hlead
      · cases hnone
      · cases he

/-- The error of a name that nothing is stored under. -/
def unresolved (name : String) : JsError := .error s!"Cannot resolve CNS name: \"{name}\""

theorem triple_resolveName (hnode : SharedNode env view address)
    (hclient : client.Granted env view base32) (hname : base32.isCid name = false)
    (options : CnsRecordGetOptions) :
    Triple env (Preserves view origins) (WrittenName view origins bucketId name written)
      (attempt (client.resolveName bucketId name options)) fun x s =>
        x = .error (unresolved name) ∧ ¬ written ∨
          ∃ cid, x = .ok (base32.encode cid) ∧
            LeadsTo view origins bucketId name written (some cid) s := by
  have hread : Triple env (Preserves view origins)
      (WrittenName view origins bucketId name written) (client.getCnsRecord bucketId name options)
      fun result s => ∃ found : Option Cid, result.map (·.cid) = found.map base32.encode ∧
        LeadsTo view origins bucketId name written found s := by
    unfold NodeClient.getCnsRecord NodeClient.defaultCorrelationId
    rw [hclient.base32_eq]
    refine .bind Preserves.refl (triple_authToken hnode hclient stable_writtenName _)
      fun token => .assume ?_
    rintro ⟨head, hhead⟩
    refine .bind Preserves.refl (triple_orUuid hnode hclient stable_writtenName _) fun id => ?_
    refine .bind Preserves.refl (triple_getRecord hnode hclient hhead _) fun record => ?_
    have hstable : ∀ result : Option CnsRecordResponse, Stable (Preserves view origins)
        fun s => ∃ found : Option Cid, result.map (·.cid) = found.map base32.encode ∧
          LeadsTo view origins bucketId name written found s := by
      rintro result s t hst ⟨found, hresult, hlead⟩
      exact ⟨found, hresult, stable_leadsTo s t hst hlead⟩
    refine .done (hstable _) fun s hs => ⟨record.map (·.cid), ?_, hs⟩
    rw [Option.map_map, Option.map_map]
    rfl
  have hstable : ∀ x : Except JsError String, Stable (Preserves view origins) fun s =>
      x = .error (unresolved name) ∧ ¬ written ∨ ∃ cid, x = .ok (base32.encode cid) ∧
        LeadsTo view origins bucketId name written (some cid) s := by
    rintro x s t hst (h | ⟨cid, hx, hlead⟩)
    · exact .inl h
    · exact .inr ⟨cid, hx, stable_leadsTo s t hst hlead⟩
  unfold NodeClient.resolveName
  rw [hclient.base32_eq, hname]
  refine .attempt_bind Preserves.refl hread fun result => ?_
  cases result with
  | none =>
    refine .done (hstable _) fun s hs => .inl ⟨rfl, ?_⟩
    obtain ⟨found, hresult, hlead⟩ := hs
    cases found with
    | none => exact hlead
    | some cid => cases hresult
  | some record =>
    refine .done (hstable _) fun s hs => .inr ?_
    obtain ⟨found, hresult, hlead⟩ := hs
    cases found with
    | none => cases hresult
    | some cid => exact ⟨cid, congrArg Except.ok (Option.some.inj hresult), hlead⟩

/-- A DAG node that is there is read, and passes the check of its content. -/
theorem triple_getNode (hnode : SharedNode env view address)
    (hclient : client.Granted env view base32) {params : MetaParams}
    (hhead : signatureHead (client.keys.account params.token) = .ok head)
    {path : Option String} (hpath : path.filter (· ≠ "") = none) :
    Triple env (Preserves view origins) (HasNode view origins bucketId cid message)
      (DagApi.getNode client.hasher client.options params { bucketId, cid, path })
      fun result s => HasNode view origins bucketId cid message s ∧ result = some message := by
  let request : DagGetMessage := { bucketId, cid, path }
  have hfetch : Triple env (Preserves view origins) (HasNode view origins bucketId cid message)
      (fetchNode client.options params request)
      fun result s => HasNode view origins bucketId cid message s ∧ result = some message := by
    refine .bind Preserves.refl (triple_create hnode hclient stable_hasNode params)
      fun info => .assume fun htoken => ?_
    refine .bind Preserves.refl (triple_signMeta hnode hclient stable_hasNode (by simp)
      (by rw [htoken]; exact hhead)) fun signed => ?_
    refine triple_await stable_hasNode
      (triple_request hnode hclient stable_hasNode reads_dagGet ?_)
    exact fun s hs => ⟨some message, hnode.dagGet s signed request message hpath hs.2, rfl⟩
  rw [getNode_eq _ rfl]
  refine .bind Preserves.refl hfetch fun result => .assume ?_
  rintro rfl s hs
  have hcheck : checkNode client.hasher cid (client.options.authenticates &&
      (path.filter (· ≠ "")).isNone) (some message) = .ok () := by
    cases client.options.authenticates && (path.filter (· ≠ "")).isNone with
    | false => exact checkNode_false
    | true =>
      rw [checkNode_eq_ok, hclient.hasher_eq]
      exact (hs.1.nodes bucketId cid message hs.2).2.symm
  rw [hcheck]
  exact Triple.done (stable_hasNode.and .pure) (fun t ht => ⟨ht, rfl⟩) s hs

/-- The rest of `getDagNode`, once the text of the CID is known. -/
theorem triple_readNode (hnode : SharedNode env view address)
    (hclient : client.Granted env view base32) {params : MetaParams}
    (hhead : signatureHead (client.keys.account params.token) = .ok head)
    {path : Option String} (hpath : path.filter (· ≠ "") = none) {text : String}
    (htext : base32.decode text = .ok cid) :
    Triple env (Preserves view origins) (HasNode view origins bucketId cid message)
      (Program.ofExcept (client.base32.decode text) >>= fun bytes =>
        DagApi.getNode client.hasher client.options params { bucketId, cid := bytes, path } >>=
          fun result => pure (result.map (DagNodeResponse.new client.base32 text)))
      fun response s => HasNode view origins bucketId cid message s ∧
        response = some (DagNodeResponse.new base32 text message) := by
  rw [hclient.base32_eq]
  refine .bind Preserves.refl (.ofExcept_ok htext stable_hasNode) fun bytes => .assume ?_
  rintro rfl
  refine .bind Preserves.refl (triple_getNode hnode hclient hhead hpath) fun result => .assume ?_
  rintro rfl
  exact .done (stable_hasNode.and .pure) fun s hs => ⟨hs, rfl⟩

theorem prepares_reads {keys : Option Keys} : Prepares ApiRequest.Reads keys token where
  now := reads_of (by simp)
  uuid := reads_of (by simp)
  ready := fun _ _ => reads_of (by simp)
  sign := fun _ _ _ _ _ => reads_of (by simp)

theorem reads_authToken {accessToken : Option TokenInput} :
    (Api.createAuthToken accessToken).All ApiRequest.Reads :=
  meets_await ⟨reads_of (by simp), fun _ _ _ => trivial⟩

/-- An id that is made where the caller has none. -/
theorem reads_orUuid {given : Option String} :
    (match given with | some id => return id | none => uuid : ApiProgram String).All
      ApiRequest.Reads := by
  cases given with
  | some id => trivial
  | none => exact ⟨reads_of (by simp), fun _ => trivial⟩

theorem reads_metaParams {options : OperationOptions} :
    (NodeClient.metaParams options).All ApiRequest.Reads := by
  refine .bind reads_authToken fun token _ => ?_
  exact .bind (Q := fun _ => True) reads_orUuid fun _ _ => trivial

theorem reads_create {params : MetaParams} : params.create.All ApiRequest.Reads :=
  (meets_createRpcMeta (reads_of (by simp))).all

theorem reads_signMeta {keys : Option Keys} {fields : ActivityFields} {info : ApiMeta} :
    (signMeta keys fields info).All ApiRequest.Reads :=
  (meets_signMeta prepares_reads).all

theorem reads_getCnsRecord {options : CnsRecordGetOptions} :
    (client.getCnsRecord bucketId name options).All ApiRequest.Reads := by
  refine .bind reads_authToken fun token _ => ?_
  refine .bind (Q := fun _ => True) reads_orUuid fun id _ => ?_
  refine .bind (Q := fun _ => True) ?_ fun _ _ => trivial
  refine .bind reads_create fun info _ => .bind reads_signMeta fun info _ => ?_
  refine .bind (Q := fun _ => True) ⟨reads_cnsGet, fun _ => trivial⟩ fun x _ => ?_
  cases x with
  | error e => dsimp only; split <;> trivial
  | ok record => trivial

theorem reads_resolveName {cidOrName : String} {options : CnsRecordGetOptions} :
    (client.resolveName bucketId cidOrName options).All ApiRequest.Reads := by
  unfold NodeClient.resolveName
  split
  · trivial
  · exact .bind reads_getCnsRecord fun record _ => by cases record <;> trivial

/-- Reading a DAG node stores nothing, whatever it comes to. -/
theorem reads_getDagNode {cidOrName : String} {options : DagNodeGetOptions} :
    (client.getDagNode bucketId cidOrName options).All ApiRequest.Reads := by
  refine .bind reads_metaParams fun params _ => .bind reads_resolveName fun cid _ => ?_
  refine .bind (Q := fun _ => True) (Program.meets_ofExcept fun _ _ => trivial) fun bytes _ => ?_
  refine .bind (Q := fun _ => True) ?_ fun _ _ => trivial
  refine .bind reads_create fun info _ => .bind reads_signMeta fun info _ => ?_
  refine .bind (all_call reads_dagGet) fun result _ => ?_
  exact .bind (Q := fun _ => True) (Program.meets_ofExcept fun _ _ => trivial) fun _ _ => trivial

/-! ## Storing -/

theorem triple_putNode (hnode : SharedNode env view address)
    (hclient : client.Granted env view base32) (hdistinct : origins.Distinct view.hasher)
    (hknown : origins.known bucketId message) {params : MetaParams}
    (hhead : signatureHead (client.keys.account params.token) = .ok head) :
    Triple env (Preserves view origins) (Linked view origins)
      (DagApi.putNode client.options params bucketId (some message) none) fun cid s =>
        HasNode view origins bucketId (address message) message s ∧ cid = address message := by
  refine .bind Preserves.refl (triple_create hnode hclient stable_linked params)
    fun info => .assume fun htoken => ?_
  refine .bind Preserves.refl (triple_signMeta hnode hclient stable_linked
    (Int.not_lt.mpr (Int.natCast_nonneg _)) (by rw [htoken]; exact hhead)) fun signed => ?_
  have hrpc : Triple env (Preserves view origins) (Linked view origins)
      (Api.rpc signed (.dagPut bucketId (some message) none)) fun x s =>
        HasNode view origins bucketId (address message) message s ∧ ∃ cid, x = .ok cid ∧
          cid = address message := by
    refine .request stable_linked (fun _ => stable_hasNode.and .pure) fun s hs => ?_
    obtain ⟨hstep, hthere⟩ := preserves_dagPut hnode hclient hdistinct hknown signed none s
    exact ⟨hstep, hthere hs, _, hnode.dagPut s signed bucketId message none, rfl⟩
  refine .bind Preserves.refl hrpc fun x => .assume ?_
  rintro ⟨cid, rfl, rfl⟩
  exact .done (stable_hasNode.and .pure) fun s hs => ⟨hs, rfl⟩

theorem triple_storeCnsRecord (hnode : SharedNode env view address)
    (hclient : client.Granted env view base32) (hnamed : origins.named bucketId name message)
    (options : OperationOptions) :
    Triple env (Preserves view origins) (HasNode view origins bucketId cid message)
      (client.storeCnsRecord bucketId ⟨base32.encode cid, name⟩ options) fun _ s =>
        HasNode view origins bucketId cid message s ∧ HasName view origins bucketId name s := by
  have hstable := @stable_hasNode _ view origins bucketId cid message
  have hmessage : mapCnsRecordToAPI client.base32 ⟨base32.encode cid, name⟩
      = .ok { cid, name } := by
    unfold mapCnsRecordToAPI
    rw [hclient.base32_eq, base32.decode_encode]
    rfl
  obtain ⟨signerHead, hsigner⟩ := hclient.signer
  refine .bind Preserves.refl (triple_metaParams hnode hclient hstable options)
    fun params => .assume ?_
  rintro ⟨head, hhead⟩
  refine .bind Preserves.refl (.ofExcept_ok hmessage hstable) fun record => .assume ?_
  rintro rfl
  refine .bind Preserves.refl (triple_create hnode hclient hstable params)
    fun info => .assume fun _ => ?_
  refine .bind Preserves.refl (triple_createSignature hnode hclient hstable hhead)
    fun signature => ?_
  refine .bind Preserves.refl (triple_createActivityRequest hnode hclient hstable
    (Int.not_lt.mpr (Int.natCast_nonneg _)) hsigner) fun request => ?_
  have hrpc : Triple env (Preserves view origins) (HasNode view origins bucketId cid message)
      (Api.rpc { info with request := some request }
        (.cnsPut bucketId { cid, name, signature := some signature })) fun x s =>
          (HasNode view origins bucketId cid message s ∧ HasName view origins bucketId name s) ∧
            x = .ok () := by
    refine .request hstable (fun _ => (hstable.and stable_hasName).and .pure) fun s hs => ?_
    obtain ⟨hstep, hname⟩ := preserves_cnsPut hnode hclient hnamed
      { info with request := some request } signature hs
    exact ⟨hstep, ⟨hstable _ _ hstep hs, hname⟩, hnode.cnsPut s _ bucketId _⟩
  have hcall : Triple env (Preserves view origins) (HasNode view origins bucketId cid message)
      (Api.call { info with request := some request }
        (.cnsPut bucketId { cid, name, signature := some signature })) fun _ s =>
          HasNode view origins bucketId cid message s ∧ HasName view origins bucketId name s := by
    refine .bind Preserves.refl hrpc fun x => .assume ?_
    rintro rfl
    exact .done (hstable.and stable_hasName) fun s hs => hs
  exact .bind Preserves.refl hcall fun _ => .done (hstable.and stable_hasName) fun s hs => hs

theorem triple_storeName (hnode : SharedNode env view address)
    (hclient : client.Granted env view base32) {options : StoreOptions}
    (hnamed : ∀ name, options.name.filter (· ≠ "") = some name →
      origins.named bucketId name message) :
    Triple env (Preserves view origins) (HasNode view origins bucketId cid message)
      (client.storeName bucketId (base32.encode cid) options) fun _ s =>
        HasNode view origins bucketId cid message s ∧
          ∀ name, options.name.filter (· ≠ "") = some name →
            HasName view origins bucketId name s := by
  have hstable : Stable (Preserves view origins) fun s =>
      ∀ name, options.name.filter (· ≠ "") = some name → HasName view origins bucketId name s :=
    fun s t hst hs name hname => stable_hasName s t hst (hs name hname)
  unfold NodeClient.storeName
  cases hname : options.name.filter (· ≠ "") with
  | none =>
    refine .done (stable_hasNode.and ?_) fun s hs => ⟨hs, nofun⟩
    exact fun s t _ _ name hname => by cases hname
  | some name =>
    rw [hname] at hstable
    refine .bind Preserves.refl (triple_storeCnsRecord hnode hclient (hnamed name hname) _)
      fun _ => .done (stable_hasNode.and hstable) fun s hs => ⟨hs.1, fun name' hname' => ?_⟩
    cases hname'
    exact hs.2

end

end CereDdc
