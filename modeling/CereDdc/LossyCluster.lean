import CereDdc.Kit.Tries
import CereDdc.RetriedStores

/-!
# LossyCluster — clients of nodes that lose calls

Any number of clients at the nodes of a cluster, whose operations `withRetry` tries
again. They take turns request by request; a call may fail before it took effect or
after, and a record may come out of a cache. What resolves can be relied on all the
same.
-/

namespace CereDdc

open Kit Program Api

/-! ## The cluster -/

/-- A record that is asked for with `cacheControl` does not come out of a cache. -/
def ApiMeta.Fresh (info : ApiMeta) : Prop := info.cacheControl = some "no-cache"

/-- The nodes of a cluster, whose answers are true but for what is in a cache: `cached` says what a
node may answer for a name because the name once led there. -/
structure LossyCluster {σ : Type} (env : Environment ApiRequest.Answer σ) (view : σ → Buckets)
    (cached : σ → Nat → String → Option Cid → Prop) (address : NodeMessage → Cid) : Prop
    extends LossyNode env view address where
  dagGet : ∀ s info (request : DagGetMessage) found, request.path.filter (· ≠ "") = none →
    (env s (.rpc info (.dagGet request))).1 = .ok found →
    found = (view s).nodes request.bucketId request.cid
  cnsGet : ∀ s info bucketId name found,
    (env s (.rpc info (.cnsGet bucketId name))).1 = .ok found →
    (∀ record, found = some record → record.signature.isSome = true) ∧
      ((view s).names bucketId name = found.map (·.cid) ∨
        ¬ info.Fresh ∧ cached s bucketId name (found.map (·.cid)))
  cnsMissing : ∀ s info bucketId name e,
    (env s (.rpc info (.cnsGet bucketId name))).1 = .error e → CnsApi.isNotFound e = true →
    (view s).names bucketId name = none ∨ ¬ info.Fresh ∧ cached s bucketId name none
  caches : ∀ s r bucketId name found, cached (env s r).2 bucketId name found →
    cached s bucketId name found ∨ (view s).names bucketId name = found ∨
      (view (env s r).2).names bucketId name = found

/-! ## What is kept -/

/-- Where things in the buckets may come from: the DAG nodes, those that were stored under a name,
and the records that were stored on their own. -/
structure Sources where
  known : Nat → NodeMessage → Prop
  named : Nat → String → NodeMessage → Prop
  recorded : Nat → String → Cid → Prop

section

variable {σ : Type} (view : σ → Buckets) (cached : σ → Nat → String → Option Cid → Prop)
  (address : NodeMessage → Cid) (sources : Sources)

/-- A name may lead to the CID: of a record, or of a DAG node that is there. -/
def Sources.Leads (v : Buckets) (bucketId : Nat) (name : String) (cid : Cid) : Prop :=
  sources.recorded bucketId name cid ∨
    ∃ message, cid = address message ∧ sources.named bucketId name message ∧
      v.nodes bucketId cid = some message

/-- Everything in the buckets and in the caches has its source. -/
structure Sourced (s : σ) : Prop where
  nodes : ∀ bucketId cid message, (view s).nodes bucketId cid = some message →
    cid = address message ∧ sources.known bucketId message
  names : ∀ bucketId name cid, (view s).names bucketId name = some cid →
    sources.Leads address (view s) bucketId name cid
  caches : ∀ bucketId name cid, cached s bucketId name (some cid) →
    sources.Leads address (view s) bucketId name cid

/-- Nothing is taken away. -/
structure Buckets.Grows (v w : Buckets) : Prop where
  nodes : ∀ bucketId cid message, v.nodes bucketId cid = some message →
    w.nodes bucketId cid = some message
  names : ∀ bucketId name, (v.names bucketId name).isSome → (w.names bucketId name).isSome

/-- What clients leave each other. -/
def Leaves (s t : σ) : Prop :=
  Sourced view cached address sources s →
    Sourced view cached address sources t ∧ (view s).Grows (view t)

/-- The DAG node is there. -/
def NodeThere (bucketId : Nat) (message : NodeMessage) (s : σ) : Prop :=
  Sourced view cached address sources s ∧
    (view s).nodes bucketId (address message) = some message

/-- The name is there. -/
def NameThere (bucketId : Nat) (name : String) (s : σ) : Prop :=
  Sourced view cached address sources s ∧ ((view s).names bucketId name).isSome

/-- The name may be given to the CID. -/
def MayLead (bucketId : Nat) (name : String) (cid : Cid) (s : σ) : Prop :=
  Sourced view cached address sources s ∧ sources.Leads address (view s) bucketId name cid

end

section

variable {σ : Type} {view : σ → Buckets} {cached : σ → Nat → String → Option Cid → Prop}
  {address : NodeMessage → Cid} {sources : Sources} {v w : Buckets} {bucketId : Nat} {cid : Cid}
  {name : String} {message : NodeMessage} {s t : σ}

theorem Buckets.Grows.refl (v : Buckets) : v.Grows v := ⟨fun _ _ _ h => h, fun _ _ h => h⟩

theorem Buckets.Grows.trans {u : Buckets} (h : v.Grows w) (h' : w.Grows u) : v.Grows u :=
  ⟨fun b c m hm => h'.nodes b c m (h.nodes b c m hm), fun b n hn => h'.names b n (h.names b n hn)⟩

theorem Sources.Leads.grows (h : sources.Leads address v bucketId name cid) (hgrows : v.Grows w) :
    sources.Leads address w bucketId name cid := by
  rcases h with hrecorded | ⟨message, hcid, hnamed, hthere⟩
  · exact .inl hrecorded
  · exact .inr ⟨message, hcid, hnamed, hgrows.nodes _ _ _ hthere⟩

theorem Leaves.refl (s : σ) : Leaves view cached address sources s s := fun h => ⟨h, .refl _⟩

theorem Leaves.trans (s t u : σ) (hst : Leaves view cached address sources s t)
    (htu : Leaves view cached address sources t u) : Leaves view cached address sources s u := by
  intro hs
  obtain ⟨ht, hgrows⟩ := hst hs
  obtain ⟨hu, hgrows'⟩ := htu ht
  exact ⟨hu, hgrows.trans hgrows'⟩

theorem stable_sourced :
    Stable (Leaves view cached address sources) (Sourced view cached address sources) :=
  fun _ _ hst hs => (hst hs).1

theorem stable_nodeThere : Stable (Leaves view cached address sources)
    (NodeThere view cached address sources bucketId message) :=
  fun _ _ hst hs => ⟨(hst hs.1).1, (hst hs.1).2.nodes _ _ _ hs.2⟩

theorem stable_nameThere : Stable (Leaves view cached address sources)
    (NameThere view cached address sources bucketId name) :=
  fun _ _ hst hs => ⟨(hst hs.1).1, (hst hs.1).2.names _ _ hs.2⟩

theorem stable_mayLead : Stable (Leaves view cached address sources)
    (MayLead view cached address sources bucketId name cid) :=
  fun _ _ hst hs => ⟨(hst hs.1).1, hs.2.grows (hst hs.1).2⟩

/-! ## Steps -/

variable {env : Environment ApiRequest.Answer σ} {base32 : Base32} {node : NodeClient}

/-- A step after which the buckets have grown, and have in them what has its source. -/
theorem leaves_of (hcluster : LossyCluster env view cached address) (r : ApiRequest)
    (hgrows : (view s).Grows (view (env s r).2))
    (hnodes : ∀ bucketId cid message, (view (env s r).2).nodes bucketId cid = some message →
      (view s).nodes bucketId cid = some message ∨
        cid = address message ∧ sources.known bucketId message)
    (hnames : ∀ bucketId name cid, (view (env s r).2).names bucketId name = some cid →
      (view s).names bucketId name = some cid ∨
        sources.Leads address (view s) bucketId name cid) :
    Leaves view cached address sources s (env s r).2 := by
  intro hs
  have hleads : ∀ b n c, (view (env s r).2).names b n = some c →
      sources.Leads address (view (env s r).2) b n c := by
    intro b n c hc
    rcases hnames b n c hc with hold | hnew
    · exact (hs.names b n c hold).grows hgrows
    · exact hnew.grows hgrows
  refine ⟨⟨fun b c m hm => (hnodes b c m hm).elim (hs.nodes b c m) id, hleads, ?_⟩, hgrows⟩
  intro b n c hc
  rcases hcluster.caches s r b n (some c) hc with hold | hbefore | hafter
  · exact (hs.caches b n c hold).grows hgrows
  · exact (hs.names b n c hbefore).grows hgrows
  · exact hleads b n c hafter

/-- A call that took no effect. -/
theorem leaves_of_eq (hcluster : LossyCluster env view cached address) {r : ApiRequest}
    (h : view (env s r).2 = view s) : Leaves view cached address sources s (env s r).2 := by
  refine leaves_of hcluster r (by rw [h]; exact .refl _) ?_ ?_
  · intro b c m hm
    exact .inl (h ▸ hm)
  · intro b n c hc
    exact .inl (h ▸ hc)

theorem leaves_reads (hcluster : LossyCluster env view cached address) {r : ApiRequest}
    (hr : r.Reads) (s : σ) : Leaves view cached address sources s (env s r).2 :=
  leaves_of_eq hcluster (hcluster.keep s r hr)

/-- No two of the DAG nodes there may be have the same CID. -/
def Sources.Distinct (sources : Sources) (address : NodeMessage → Cid) : Prop :=
  ∀ bucketId message message', sources.known bucketId message → sources.known bucketId message' →
    address message = address message' → message = message'

/-- A call that stores a known DAG node, whether it gets lost or not. -/
theorem leaves_dagPut (hcluster : LossyCluster env view cached address)
    (hdistinct : sources.Distinct address) (hknown : sources.known bucketId message)
    (info : ApiMeta) (hs : Sourced view cached address sources s) :
    let r := env s (.rpc info (.dagPut bucketId (some message) none))
    Leaves view cached address sources s r.2 ∧ ∀ cid, r.1 = .ok cid →
      NodeThere view cached address sources bucketId message r.2 ∧ cid = address message := by
  intro r
  rcases hcluster.dagPut s info bucketId message none with ⟨hput, hcid⟩ | ⟨hlost, e, he⟩
  · have hthere : (view r.2).nodes bucketId (address message) = some message := by
      show (view (env s _).2).nodes _ _ = _
      rw [hput]
      exact if_pos ⟨rfl, rfl⟩
    have hleaves : Leaves view cached address sources s r.2 := by
      refine leaves_of hcluster _ ⟨?_, ?_⟩ ?_ ?_
      · intro b c m hm
        rw [hput]
        show (if _ then _ else _) = _
        split
        · next heq =>
          obtain ⟨rfl, rfl⟩ := heq
          obtain ⟨haddress, hknown'⟩ := hs.nodes _ _ _ hm
          exact congrArg some (hdistinct _ _ _ hknown hknown' haddress)
        · exact hm
      · intro b n hn
        rw [hput]
        exact hn
      · intro b c m hm
        rw [hput] at hm
        have hm' : (if b = bucketId ∧ c = address message then some message
          else (view s).nodes b c) = some m := hm
        split at hm'
        · next heq =>
          obtain ⟨rfl, rfl⟩ := heq
          cases hm'
          exact .inr ⟨rfl, hknown⟩
        · exact .inl hm'
      · intro b n c hc
        rw [hput] at hc
        exact .inl hc
    exact ⟨hleaves, fun cid hok => ⟨⟨(hleaves hs).1, hthere⟩, hcid cid hok⟩⟩
  · exact ⟨leaves_of_eq hcluster hlost, fun cid hok => by cases he.symm.trans hok⟩

/-- A call that stores a record of a CID that the name may lead to. -/
theorem leaves_cnsPut (hcluster : LossyCluster env view cached address) {record : RecordMessage}
    (info : ApiMeta)
    (hs : MayLead view cached address sources bucketId record.name record.cid s) :
    let r := env s (.rpc info (.cnsPut bucketId record))
    Leaves view cached address sources s r.2 ∧ ∀ answer, r.1 = .ok answer →
      NameThere view cached address sources bucketId record.name r.2 := by
  intro r
  rcases hcluster.cnsPut s info bucketId record with hput | ⟨hlost, e, he⟩
  · have hleaves : Leaves view cached address sources s r.2 := by
      refine leaves_of hcluster _ ⟨?_, ?_⟩ ?_ ?_
      · intro b c m hm
        rw [hput]
        exact hm
      · intro b n hn
        rw [hput]
        show (if _ then _ else _ : Option Cid).isSome
        split
        · rfl
        · exact hn
      · intro b c m hm
        rw [hput] at hm
        exact .inl hm
      · intro b n c hc
        rw [hput] at hc
        have hc' : (if b = bucketId ∧ n = record.name then some record.cid
          else (view s).names b n) = some c := hc
        split at hc'
        · next heq =>
          obtain ⟨rfl, rfl⟩ := heq
          cases hc'
          exact .inr hs.2
        · exact .inl hc'
    refine ⟨hleaves, fun _ _ => ⟨(hleaves hs.1).1, ?_⟩⟩
    show ((view (env s _).2).names _ _).isSome
    rw [hput]
    show (if _ then _ else _ : Option Cid).isSome
    rw [if_pos ⟨rfl, rfl⟩]
    rfl
  · exact ⟨leaves_of_eq hcluster hlost, fun answer hok => by cases he.symm.trans hok⟩

/-! ## Storing -/

variable {A : σ → Prop} {α : Type}

/-- What a program asks before it stores or reads. -/
theorem tries_after (hcluster : LossyCluster env view cached address)
    {p : ApiProgram α} {T : α → Prop} (hp : p.Meets ApiRequest.Reads T)
    (hA : Stable (Leaves view cached address sources) A) {β : Type} {f : α → ApiProgram β}
    {Q : β → σ → Prop}
    (hf : ∀ a, T a → Tries env (Leaves view cached address sources) A (f a) Q) :
    Tries env (Leaves view cached address sources) A (p >>= f) Q :=
  .after Leaves.refl hp hA (fun _ hr s _ => leaves_reads hcluster hr s) hf

/-- A call, where `Q` holds of an answer that is not an error. -/
theorem tries_call (hA : Stable (Leaves view cached address sources) A) {info : ApiMeta}
    {method : RpcMethod} {Q : method.Response → σ → Prop}
    (hQ : ∀ a, Stable (Leaves view cached address sources) (Q a))
    (h : ∀ s, A s → Leaves view cached address sources s (env s (.rpc info method)).2 ∧
      ∀ a, (env s (.rpc info method)).1 = .ok a → Q a (env s (.rpc info method)).2) :
    Tries env (Leaves view cached address sources) A (call info method) Q := by
  have hrpc : Triple env (Leaves view cached address sources) A (rpc info method)
      fun x s => ∀ a, x = .ok a → Q a s :=
    .request hA (fun x s t hst hs a ha => hQ a s t hst (hs a ha)) h
  refine .bind Leaves.refl hrpc.tries fun x => ?_
  cases x with
  | ok a => exact .done (hQ a) fun s hs => hs a rfl
  | error e => exact .fail

theorem tries_putNode (hcluster : LossyCluster env view cached address)
    (hdistinct : sources.Distinct address) (hknown : sources.known bucketId message)
    {options : ApiOptions} {params : MetaParams} :
    Tries env (Leaves view cached address sources) (Sourced view cached address sources)
      (DagApi.putNode options params bucketId (some message) none) fun cid s =>
        NodeThere view cached address sources bucketId message s ∧ cid = address message := by
  refine tries_after hcluster reads_create stable_sourced fun info _ => ?_
  refine tries_after hcluster reads_signMeta stable_sourced fun info _ => ?_
  exact tries_call stable_sourced (fun _ => stable_nodeThere.and .pure)
    fun s hs => leaves_dagPut hcluster hdistinct hknown info hs

theorem tries_putRecord (hcluster : LossyCluster env view cached address) {options : ApiOptions}
    {params : MetaParams} (record : RecordMessage) :
    Tries env (Leaves view cached address sources)
      (MayLead view cached address sources bucketId record.name record.cid)
      (CnsApi.putRecord options params bucketId record) fun stored s =>
        NameThere view cached address sources bucketId record.name s ∧
          ∃ signature, stored = { record with signature := some signature } := by
  refine tries_after hcluster reads_create stable_mayLead fun info _ => ?_
  cases options.keys with
  | none => exact .fail
  | some keys =>
    refine tries_after hcluster (all_createSignature prepares_reads) stable_mayLead
      fun signature _ => ?_
    refine tries_after hcluster (all_createActivityRequest prepares_reads) stable_mayLead
      fun request _ => ?_
    have hput : Tries env (Leaves view cached address sources)
        (MayLead view cached address sources bucketId record.name record.cid)
        (call { info with request := some request }
          (.cnsPut bucketId { record with signature := some signature })) fun _ s =>
            NameThere view cached address sources bucketId record.name s :=
      tries_call stable_mayLead (fun _ => stable_nameThere) fun s hs =>
        leaves_cnsPut hcluster _ hs
    exact .bind Leaves.refl hput fun _ =>
      .done (stable_nameThere.and .pure) fun s hs => ⟨hs, signature, rfl⟩

theorem tries_storeCnsRecord (hcluster : LossyCluster env view cached address)
    {record : CnsEntry} (hcid : node.base32.decode record.cid = .ok cid)
    {options : OperationOptions} :
    Tries env (Leaves view cached address sources)
      (MayLead view cached address sources bucketId record.name cid)
      (node.storeCnsRecord bucketId record options) fun stored s =>
        NameThere view cached address sources bucketId record.name s ∧
          ∃ signature, stored = { cid, name := record.name, signature := some signature } := by
  have hmessage : mapCnsRecordToAPI node.base32 record = .ok { cid, name := record.name } := by
    unfold mapCnsRecordToAPI
    rw [hcid]
    rfl
  refine tries_after hcluster reads_metaParams stable_mayLead fun params _ => ?_
  rw [hmessage, ofExcept_ok, done_bind]
  exact tries_putRecord hcluster { cid, name := record.name }

theorem tries_storeName (hcluster : LossyCluster env view cached address)
    {options : StoreOptions} (hnamed : ∀ name, options.name.filter (· ≠ "") = some name →
      sources.named bucketId name message) :
    Tries env (Leaves view cached address sources)
      (NodeThere view cached address sources bucketId message)
      (node.storeName bucketId (node.base32.encode (address message)) options) fun _ s =>
        NodeThere view cached address sources bucketId message s ∧
          ∀ name, options.name.filter (· ≠ "") = some name →
            NameThere view cached address sources bucketId name s := by
  have hnames : Stable (Leaves view cached address sources) fun s =>
      ∀ name, options.name.filter (· ≠ "") = some name →
        NameThere view cached address sources bucketId name s :=
    fun s t hst hs name hname => stable_nameThere s t hst (hs name hname)
  unfold NodeClient.storeName
  cases hname : options.name.filter (· ≠ "") with
  | none =>
    rw [hname] at hnames
    exact .done (stable_nodeThere.and hnames) fun s hs => ⟨hs, nofun⟩
  | some name =>
    rw [hname] at hnames
    have hput : Tries env (Leaves view cached address sources)
        (MayLead view cached address sources bucketId name (address message))
        (node.storeCnsRecord bucketId ⟨node.base32.encode (address message), name⟩
          options.toOperationOptions) fun _ s =>
            NameThere view cached address sources bucketId name s :=
      (tries_storeCnsRecord hcluster (node.base32.decode_encode _)).imp (fun _ hs => hs)
        fun _ _ hs => hs.1
    have hboth := hput.frame (@stable_nodeThere _ view cached address sources bucketId message)
    refine .bind Leaves.refl (hboth.imp (fun s hs => ⟨⟨hs.1, .inr ?_⟩, hs⟩) fun _ _ h => h)
      fun _ => .done (stable_nodeThere.and hnames) ?_
    · exact ⟨message, rfl, hnamed name hname, hs.2⟩
    · rintro s ⟨hname, hthere⟩
      refine ⟨hthere, fun given hgiven => ?_⟩
      cases hgiven
      exact hname

theorem tries_storeDagNode (hcluster : LossyCluster env view cached address)
    (hdistinct : sources.Distinct address) {dagNode : DagNode} {options : StoreOptions}
    (hmessage : mapDagNodeToAPI node.base32 dagNode = .ok message)
    (hknown : sources.known bucketId message)
    (hnamed : ∀ name, options.name.filter (· ≠ "") = some name →
      sources.named bucketId name message) :
    Tries env (Leaves view cached address sources) (Sourced view cached address sources)
      (node.storeDagNode bucketId dagNode options) fun text s =>
        (NodeThere view cached address sources bucketId message s ∧
          ∀ name, options.name.filter (· ≠ "") = some name →
            NameThere view cached address sources bucketId name s) ∧
        text = node.base32.encode (address message) := by
  have hnames : Stable (Leaves view cached address sources) fun s =>
      ∀ name, options.name.filter (· ≠ "") = some name →
        NameThere view cached address sources bucketId name s :=
    fun s t hst hs name hname => stable_nameThere s t hst (hs name hname)
  refine tries_after hcluster reads_metaParams stable_sourced fun params _ => ?_
  rw [hmessage, ofExcept_ok, done_bind]
  refine .bind Leaves.refl (tries_putNode hcluster hdistinct hknown) fun stored => .assume ?_
  rintro rfl
  exact .bind Leaves.refl (tries_storeName hcluster hnamed) fun _ =>
    .done ((stable_nodeThere.and hnames).and .pure) fun s hs => ⟨hs, rfl⟩

/-! ## Reading -/

/-- What a name is found to lead to: a CID that it may lead to, or nothing if the client has not
written it, or does not ask for what is not in a cache. -/
def Found (view : σ → Buckets) (cached : σ → Nat → String → Option Cid → Prop)
    (address : NodeMessage → Cid) (sources : Sources) (bucketId : Nat) (name : String)
    (written fresh : Prop) : Option Cid → σ → Prop
  | none, _ => fresh → ¬ written
  | some cid, s => MayLead view cached address sources bucketId name cid s

/-- The name is there, if it was written. -/
def IfWritten (view : σ → Buckets) (cached : σ → Nat → String → Option Cid → Prop)
    (address : NodeMessage → Cid) (sources : Sources) (bucketId : Nat) (name : String)
    (written : Prop) (s : σ) : Prop :=
  Sourced view cached address sources s ∧
    (written → NameThere view cached address sources bucketId name s)

variable {written fresh : Prop}

theorem stable_found {found : Option Cid} : Stable (Leaves view cached address sources)
    (Found view cached address sources bucketId name written fresh found) := by
  intro s t hst hs
  cases found with
  | none => exact hs
  | some cid => exact stable_mayLead s t hst hs

theorem stable_ifWritten : Stable (Leaves view cached address sources)
    (IfWritten view cached address sources bucketId name written) :=
  fun s t hst hs => ⟨stable_sourced s t hst hs.1, fun h => stable_nameThere s t hst (hs.2 h)⟩

/-- What an answer of the cluster says about a name. -/
theorem found_of_answer {found : Option Cid} {asked : Prop} (hasked : fresh → asked)
    (hs : IfWritten view cached address sources bucketId name written s)
    (h : (view s).names bucketId name = found ∨ ¬ asked ∧ cached s bucketId name found) :
    Found view cached address sources bucketId name written fresh found s := by
  cases found with
  | some cid =>
    refine ⟨hs.1, ?_⟩
    exact h.elim (hs.1.names bucketId name cid) fun hcached => hs.1.caches _ _ _ hcached.2
  | none =>
    intro hfresh hwritten
    rcases h with hnone | ⟨hnot, -⟩
    · have hsome := (hs.2 hwritten).2
      rw [hnone] at hsome
      cases hsome
    · exact hnot (hasked hfresh)

theorem reads_signMeta_cacheControl {keys : Option Keys} {fields : ActivityFields}
    {info : ApiMeta} : (signMeta keys fields info).Meets ApiRequest.Reads
      fun signed => signed.cacheControl = info.cacheControl := by
  cases keys with
  | none => exact rfl
  | some keys => exact .bind (all_createActivityRequest prepares_reads) fun _ _ => rfl

theorem tries_getRecord (hcluster : LossyCluster env view cached address) {options : ApiOptions}
    {params : MetaParams} {cacheControl : Option String} :
    Tries env (Leaves view cached address sources)
      (IfWritten view cached address sources bucketId name written)
      (CnsApi.getRecord options params bucketId name cacheControl) fun result =>
        Found view cached address sources bucketId name written
          (cacheControl = some "no-cache") (result.map (·.cid)) := by
  refine tries_after hcluster reads_create stable_ifWritten fun info _ => ?_
  refine tries_after hcluster reads_signMeta_cacheControl stable_ifWritten fun signed hsigned => ?_
  have hasked : cacheControl = some "no-cache" → signed.Fresh := by
    rintro rfl
    exact hsigned
  let Answered (x : Except JsError (Option RecordMessage)) (s : σ) : Prop :=
    (∀ found, x = .ok found →
      Found view cached address sources bucketId name written (cacheControl = some "no-cache")
        ((found.filter (·.signature.isSome)).map (·.cid)) s) ∧
    ∀ e, x = .error e → CnsApi.isNotFound e = true →
      Found view cached address sources bucketId name written (cacheControl = some "no-cache")
        none s
  have hstable : ∀ x, Stable (Leaves view cached address sources) (Answered x) := by
    refine fun x s t hst hs => ⟨fun found hfound => ?_, fun e he hmissing => ?_⟩
    · exact stable_found s t hst (hs.1 found hfound)
    · exact stable_found s t hst (hs.2 e he hmissing)
  have hrpc : Triple env (Leaves view cached address sources)
      (IfWritten view cached address sources bucketId name written)
      (rpc signed (.cnsGet bucketId name)) Answered := by
    refine .request stable_ifWritten hstable fun s hs => ?_
    have hstep : Leaves view cached address sources s
        (env s (.rpc signed (.cnsGet bucketId name))).2 := leaves_reads hcluster reads_cnsGet s
    refine ⟨hstep, hstable _ s _ hstep ⟨fun found hfound => ?_, fun e he hmissing => ?_⟩⟩
    · obtain ⟨hsignatures, hnames⟩ := hcluster.cnsGet s signed bucketId name found hfound
      have hkept : found.filter (·.signature.isSome) = found := by
        cases found with
        | none => rfl
        | some record => rw [Option.filter_some, if_pos (hsignatures record rfl)]
      rw [hkept]
      exact found_of_answer hasked hs hnames
    · exact found_of_answer hasked hs (hcluster.cnsMissing s signed bucketId name e he hmissing)
  refine .bind Leaves.refl hrpc.tries fun x => ?_
  cases x with
  | ok found => exact .done stable_found fun s hs => hs.1 found rfl
  | error e =>
    dsimp only
    split
    · next hmissing => exact .done stable_found fun s hs => hs.2 e rfl hmissing
    · exact .fail

theorem tries_getCnsRecord (hcluster : LossyCluster env view cached address)
    {options : CnsRecordGetOptions} :
    Tries env (Leaves view cached address sources)
      (IfWritten view cached address sources bucketId name written)
      (node.getCnsRecord bucketId name options) fun result s =>
        ∃ found : Option Cid, result.map (·.cid) = found.map node.base32.encode ∧
          Found view cached address sources bucketId name written
            (options.cacheControl = some "no-cache") found s := by
  have hstable : ∀ result : Option CnsRecordResponse, Stable (Leaves view cached address sources)
      fun s => ∃ found : Option Cid, result.map (·.cid) = found.map node.base32.encode ∧
        Found view cached address sources bucketId name written
          (options.cacheControl = some "no-cache") found s := by
    rintro result s t hst ⟨found, hresult, hfound⟩
    exact ⟨found, hresult, stable_found s t hst hfound⟩
  refine tries_after hcluster reads_authToken stable_ifWritten fun token _ => ?_
  refine tries_after hcluster reads_orUuid stable_ifWritten fun id _ => ?_
  refine .bind Leaves.refl (tries_getRecord hcluster) fun record => ?_
  refine .done (hstable _) fun s hs => ⟨record.map (·.cid), ?_, hs⟩
  rw [Option.map_map, Option.map_map]
  rfl

/-- What a text was resolved to: a CID to itself, a name to what it may lead to. -/
structure ResolvedTo (view : σ → Buckets) (cached : σ → Nat → String → Option Cid → Prop)
    (address : NodeMessage → Cid) (sources : Sources) (base32 : Base32) (bucketId : Nat)
    (text resolved : String) (s : σ) : Prop where
  sourced : Sourced view cached address sources s
  asCid : base32.isCid text = true → resolved = text
  asName : base32.isCid text = false → ∃ cid, resolved = base32.encode cid ∧
    MayLead view cached address sources bucketId text cid s

theorem stable_resolvedTo {text resolved : String} : Stable (Leaves view cached address sources)
    (ResolvedTo view cached address sources base32 bucketId text resolved) := by
  refine fun s t hst hs => ⟨stable_sourced s t hst hs.sourced, hs.asCid, fun hnot => ?_⟩
  obtain ⟨cid, hresolved, hlead⟩ := hs.asName hnot
  exact ⟨cid, hresolved, stable_mayLead s t hst hlead⟩

theorem tries_resolveName (hcluster : LossyCluster env view cached address) {text : String}
    {options : CnsRecordGetOptions} :
    Tries env (Leaves view cached address sources)
      (IfWritten view cached address sources bucketId text written)
      (node.resolveName bucketId text options)
      (ResolvedTo view cached address sources node.base32 bucketId text) := by
  unfold NodeClient.resolveName
  split
  · next hcid =>
    refine .done stable_resolvedTo fun s hs => ⟨hs.1, fun _ => rfl, fun hnot => ?_⟩
    rw [hcid] at hnot
    cases hnot
  · next hnot =>
    refine .bind Leaves.refl (tries_getCnsRecord hcluster) fun record => ?_
    cases record with
    | none => exact .fail
    | some record =>
      refine .done stable_resolvedTo fun s hs => ?_
      obtain ⟨found, hrecord, hfound⟩ := hs
      cases found with
      | none => cases hrecord
      | some cid =>
        exact ⟨hfound.1, fun hcid => absurd hcid hnot,
          fun _ => ⟨cid, Option.some.inj hrecord, hfound⟩⟩

theorem tries_getNode (hcluster : LossyCluster env view cached address)
    {hasher : Hasher} {options : ApiOptions} {params : MetaParams} {path : Option String}
    (hpath : path.filter (· ≠ "") = none) (hA : Stable (Leaves view cached address sources) A)
    {Q : Option NodeMessage → σ → Prop}
    (hQ : ∀ found, Stable (Leaves view cached address sources) (Q found))
    (h : ∀ s, A s → Q ((view s).nodes bucketId cid) s) :
    Tries env (Leaves view cached address sources) A
      (DagApi.getNode hasher options params { bucketId, cid, path }) Q := by
  refine tries_after hcluster reads_create hA fun info _ => ?_
  refine tries_after hcluster reads_signMeta hA fun signed _ => ?_
  have hcall : Tries env (Leaves view cached address sources) A
      (call signed (.dagGet { bucketId, cid, path })) Q := by
    refine tries_call hA hQ fun s hs => ?_
    have hstep : Leaves view cached address sources s
        (env s (.rpc signed (.dagGet { bucketId, cid, path }))).2 :=
      leaves_reads hcluster reads_dagGet s
    refine ⟨hstep, fun found hfound => hQ found s _ hstep ?_⟩
    rw [hcluster.dagGet s signed { bucketId, cid, path } found hpath hfound]
    exact h s hs
  refine .bind Leaves.refl hcall fun found => ?_
  refine .bind Leaves.refl (Tries.ofExcept (hQ found)) fun _ => .assume fun _ => ?_
  exact .done (hQ found) fun s hs => hs

end

/-! ## Operations -/

namespace BucketOperation

variable (base32 : Base32) (address : NodeMessage → Cid)

/-- The operation stores the DAG node with this message. -/
def Puts (bucketId : Nat) (message : NodeMessage) (operation : BucketOperation) : Prop :=
  ∃ node options, operation = .storeDagNode bucketId node options ∧
    mapDagNodeToAPI base32 node = .ok message

/-- The operation stores the DAG node with this message under the name. -/
def Names (bucketId : Nat) (name : String) (message : NodeMessage)
    (operation : BucketOperation) : Prop :=
  ∃ node options, operation = .storeDagNode bucketId node options ∧
    mapDagNodeToAPI base32 node = .ok message ∧ options.name.filter (· ≠ "") = some name

/-- The operation stores a record of the CID under the name. -/
def Records (bucketId : Nat) (name : String) (cid : Cid) (operation : BucketOperation) : Prop :=
  ∃ text options, operation = .storeCnsRecord bucketId ⟨text, name⟩ options ∧
    base32.decode text = .ok cid

/-- The operation writes the name. -/
def Writes (bucketId : Nat) (name : String) (operation : BucketOperation) : Prop :=
  (∃ message, operation.Names base32 bucketId name message) ∨
    ∃ cid, operation.Records base32 bucketId name cid

/-- What the operation stores has its source in it. -/
structure Within (sources : Sources) (operation : BucketOperation) : Prop where
  puts : ∀ bucketId message, operation.Puts base32 bucketId message →
    sources.known bucketId message
  names : ∀ bucketId name message, operation.Names base32 bucketId name message →
    sources.named bucketId name message
  records : ∀ bucketId name cid, operation.Records base32 bucketId name cid →
    sources.recorded bucketId name cid

end BucketOperation

/-- The operations of a client so far, with their outcomes. -/
abbrev Earlier := List (BucketOperation × Outcome JsError BucketResult)

namespace Earlier

variable (base32 : Base32) (earlier : Earlier)

/-- An earlier operation has resolved, and stores the DAG node with this message. -/
def Put (bucketId : Nat) (message : NodeMessage) : Prop :=
  ∃ operation result, (operation, Outcome.resolved result) ∈ earlier ∧
    operation.Puts base32 bucketId message

/-- An earlier operation has resolved, and writes the name. -/
def Wrote (bucketId : Nat) (name : String) : Prop :=
  ∃ operation result, (operation, Outcome.resolved result) ∈ earlier ∧
    operation.Writes base32 bucketId name

end Earlier

/-! ## Results that can be relied on -/

section

variable {σ : Type} (view : σ → Buckets) (cached : σ → Nat → String → Option Cid → Prop)
  (address : NodeMessage → Cid) (sources : Sources) (base32 : Base32) (earlier : Earlier)

/-- A name led to the CID of a DAG node with the name, or of a record; or to nothing, but not if
the client has written it, unless it makes do with a cache. -/
def Sources.LedTo (bucketId : Nat) (name : String) (cacheControl : Option String) :
    Option Cid → Prop
  | some cid => sources.recorded bucketId name cid ∨
      ∃ message, cid = address message ∧ sources.named bucketId name message
  | none => cacheControl = some "no-cache" → ¬ earlier.Wrote base32 bucketId name

/-- What was read for a text: for a name a DAG node with the name, or what is stored at the CID of a
record; in any case one that was stored, and the one that the client has stored there itself. -/
structure Sources.ReadAs (bucketId : Nat) (text resolved : String) (cid : Cid)
    (found : Option NodeMessage) : Prop where
  decoded : base32.decode resolved = .ok cid
  asCid : base32.isCid text = true → resolved = text
  asName : base32.isCid text = false → sources.recorded bucketId text cid ∨
    ∃ message, sources.named bucketId text message ∧ found = some message
  source : ∀ message, found = some message →
    cid = address message ∧ sources.known bucketId message
  own : ∀ message, earlier.Put base32 bucketId message → cid = address message →
    found = some message

/-- The result of an operation, after the earlier ones of its client. -/
def BucketOperation.Safe : BucketOperation → BucketResult → Prop
  | .getDagNode bucketId text options, result => options.path.filter (· ≠ "") = none →
      ∃ resolved cid found, sources.ReadAs address base32 earlier bucketId text resolved cid found ∧
        result = .node (found.map (DagNodeResponse.new base32 resolved))
  | .getCnsRecord bucketId name options, result => ∃ response found, result = .found response ∧
      response.map (·.cid) = (found : Option Cid).map base32.encode ∧
      sources.LedTo address base32 earlier bucketId name options.cacheControl found
  | .resolveName bucketId text options, result => ∃ resolved, result = .cid resolved ∧
      (base32.isCid text = true → resolved = text) ∧
      (base32.isCid text = false → ∃ cid, resolved = base32.encode cid ∧
        sources.LedTo address base32 earlier bucketId text options.cacheControl (some cid))
  | operation, result => operation.Reports base32 address result

/-- What the operations that have resolved have stored is there. -/
structure Remains (s : σ) : Prop where
  sourced : Sourced view cached address sources s
  nodes : ∀ bucketId message, earlier.Put base32 bucketId message →
    (view s).nodes bucketId (address message) = some message
  names : ∀ bucketId name, earlier.Wrote base32 bucketId name →
    ((view s).names bucketId name).isSome

end

section

variable {σ : Type} {env : Environment ApiRequest.Answer σ} {view : σ → Buckets}
  {cached : σ → Nat → String → Option Cid → Prop} {address : NodeMessage → Cid}
  {sources : Sources} {base32 : Base32} {earlier : Earlier} {bucketId : Nat} {cid : Cid}
  {name text : String} {message : NodeMessage} {s t : σ} {node : NodeClient}
  {operation : BucketOperation} {outcome : Outcome JsError BucketResult} {result : BucketResult}

theorem stable_remains : Stable (Leaves view cached address sources)
    (Remains view cached address sources base32 earlier) :=
  fun s t hst hs => ⟨stable_sourced s t hst hs.sourced,
    fun b m hput => (hst hs.sourced).2.nodes _ _ _ (hs.nodes b m hput),
    fun b n hwrote => (hst hs.sourced).2.names _ _ (hs.names b n hwrote)⟩

/-- What an operation that has resolved stores is there. -/
structure Stands (view : σ → Buckets) (address : NodeMessage → Cid) (base32 : Base32)
    (operation : BucketOperation) (s : σ) : Prop where
  nodes : ∀ bucketId message, operation.Puts base32 bucketId message →
    (view s).nodes bucketId (address message) = some message
  names : ∀ bucketId name, operation.Writes base32 bucketId name →
    ((view s).names bucketId name).isSome

theorem Remains.add (hs : Remains view cached address sources base32 earlier s)
    (h : ∀ result, outcome = .resolved result → Stands view address base32 operation s) :
    Remains view cached address sources base32 (earlier ++ [(operation, outcome)]) s := by
  refine ⟨hs.sourced, ?_, ?_⟩
  · rintro b m ⟨operation', result, hmem, hputs⟩
    rcases List.mem_append.mp hmem with hold | hnew
    · exact hs.nodes b m ⟨operation', result, hold, hputs⟩
    · cases List.mem_singleton.mp hnew
      exact (h result rfl).nodes b m hputs
  · rintro b n ⟨operation', result, hmem, hwrites⟩
    rcases List.mem_append.mp hmem with hold | hnew
    · exact hs.names b n ⟨operation', result, hold, hwrites⟩
    · cases List.mem_singleton.mp hnew
      exact (h result rfl).names b n hwrites

theorem stable_outcome {P : Prop} : Stable (Leaves view cached address sources) fun s =>
    (P ∧ Stands view address base32 operation s) ∧
      Remains view cached address sources base32 earlier s := by
  rintro s t hst ⟨⟨hP, hstands⟩, hs⟩
  have hgrows := (hst hs.sourced).2
  exact ⟨⟨hP, fun b m h => hgrows.nodes _ _ _ (hstands.nodes b m h),
    fun b n h => hgrows.names _ _ (hstands.names b n h)⟩, stable_remains s t hst hs⟩

/-- An operation that stores nothing. -/
theorem stands_of_reads (hputs : ∀ bucketId node options,
      operation ≠ .storeDagNode bucketId node options)
    (hrecords : ∀ bucketId record options, operation ≠ .storeCnsRecord bucketId record options) :
    Stands view address base32 operation s where
  nodes := by
    rintro b m ⟨node, options, heq, -⟩
    exact absurd heq (hputs b node options)
  names := by
    rintro b n (⟨m, node, options, heq, -⟩ | ⟨cid, text, options, heq, -⟩)
    · exact absurd heq (hputs b node options)
    · exact absurd heq (hrecords b _ options)

/-- The client may have written the name. -/
theorem Remains.ifWritten (hs : Remains view cached address sources base32 earlier s) :
    IfWritten view cached address sources bucketId name
      (earlier.Wrote base32 bucketId name) s :=
  ⟨hs.sourced, fun h => ⟨hs.sourced, hs.names bucketId name h⟩⟩

theorem Found.ledTo {cacheControl : Option String} {found : Option Cid}
    (h : Found view cached address sources bucketId name (earlier.Wrote base32 bucketId name)
      (cacheControl = some "no-cache") found s) :
    sources.LedTo address base32 earlier bucketId name cacheControl found := by
  cases found with
  | none => exact h
  | some cid =>
    rcases h.2 with hrecorded | ⟨message, hcid, hnamed, -⟩
    · exact .inl hrecorded
    · exact .inr ⟨message, hcid, hnamed⟩

theorem tries_program_storeDagNode (hcluster : LossyCluster env view cached address)
    (hdistinct : sources.Distinct address) {dagNode : DagNode} {options : StoreOptions}
    (hwithin : (BucketOperation.storeDagNode bucketId dagNode options).Within node.base32 sources)
    (filled : OperationOptions) :
    Tries env (Leaves view cached address sources)
      (Remains view cached address sources node.base32 earlier)
      ((BucketOperation.storeDagNode bucketId dagNode options).program filled node)
      fun result s =>
        ((BucketOperation.storeDagNode bucketId dagNode options).Safe address sources node.base32
            earlier result ∧
          Stands view address node.base32 (.storeDagNode bucketId dagNode options) s) ∧
        Remains view cached address sources node.base32 earlier s := by
  cases hmessage : mapDagNodeToAPI node.base32 dagNode with
  | error e =>
    have hnone : Tries env (Leaves view cached address sources)
        (Remains view cached address sources node.base32 earlier)
        (node.storeDagNode bucketId dagNode { options with toOperationOptions := filled })
        fun _ _ => False := by
      refine tries_after hcluster reads_metaParams stable_remains fun params _ => ?_
      rw [hmessage]
      exact .fail
    exact .bind Leaves.refl hnone fun _ _ => False.elim
  | ok message =>
    have hstore := (@tries_storeDagNode _ view cached address sources bucketId message env node
      hcluster hdistinct dagNode { options with toOperationOptions := filled } hmessage
      (hwithin.puts _ _ ⟨dagNode, options, rfl, hmessage⟩)
      fun name hname => hwithin.names _ _ _ ⟨dagNode, options, rfl, hmessage, hname⟩).frame
        (@stable_remains _ view cached address sources node.base32 earlier)
    refine .bind Leaves.refl (hstore.imp (fun s hs => ⟨hs.sourced, hs⟩) fun _ _ h => h)
      fun text => .done stable_outcome ?_
    rintro s ⟨⟨⟨hthere, hnames⟩, rfl⟩, hs⟩
    refine ⟨⟨⟨message, hmessage, rfl⟩, ⟨?_, ?_⟩⟩, hs⟩
    · rintro b m ⟨node', options', heq, hm⟩
      cases heq
      cases hmessage.symm.trans hm
      exact hthere.2
    · rintro b n (⟨m, node', options', heq, -, hname⟩ | ⟨cid, text, options', heq, -⟩)
      · cases heq
        exact (hnames n hname).2
      · cases heq

theorem tries_program_storeCnsRecord (hcluster : LossyCluster env view cached address)
    {record : CnsEntry} {options : OperationOptions}
    (hwithin : (BucketOperation.storeCnsRecord bucketId record options).Within node.base32 sources)
    (filled : OperationOptions) :
    Tries env (Leaves view cached address sources)
      (Remains view cached address sources node.base32 earlier)
      ((BucketOperation.storeCnsRecord bucketId record options).program filled node)
      fun result s =>
        ((BucketOperation.storeCnsRecord bucketId record options).Safe address sources node.base32
            earlier result ∧
          Stands view address node.base32 (.storeCnsRecord bucketId record options) s) ∧
        Remains view cached address sources node.base32 earlier s := by
  cases hcid : node.base32.decode record.cid with
  | error e =>
    have hnone : Tries env (Leaves view cached address sources)
        (Remains view cached address sources node.base32 earlier)
        (node.storeCnsRecord bucketId record filled) fun _ _ => False := by
      refine tries_after hcluster reads_metaParams stable_remains fun params _ => ?_
      unfold mapCnsRecordToAPI
      rw [hcid]
      exact .fail
    exact .bind Leaves.refl hnone fun _ _ => False.elim
  | ok cid =>
    have hrecorded : sources.recorded bucketId record.name cid :=
      hwithin.records _ _ _ ⟨record.cid, options, rfl, hcid⟩
    have hstore := (@tries_storeCnsRecord _ view cached address sources bucketId cid env node
      hcluster record hcid filled).frame
        (@stable_remains _ view cached address sources node.base32 earlier)
    refine .bind Leaves.refl (hstore.imp (fun s hs => ⟨⟨hs.sourced, .inl hrecorded⟩, hs⟩)
      fun _ _ h => h) fun stored => .done stable_outcome ?_
    rintro s ⟨⟨hname, signature, rfl⟩, hs⟩
    refine ⟨⟨⟨cid, signature, hcid, rfl⟩, ⟨?_, ?_⟩⟩, hs⟩
    · rintro b m ⟨node', options', heq, -⟩
      cases heq
    · rintro b n (⟨m, node', options', heq, -⟩ | ⟨cid', text, options', heq, -⟩)
      · cases heq
      · cases heq
        exact hname.2

theorem tries_program_getDagNode (hcluster : LossyCluster env view cached address)
    {options : DagNodeGetOptions} (filled : OperationOptions) :
    Tries env (Leaves view cached address sources)
      (Remains view cached address sources node.base32 earlier)
      (node.getDagNode bucketId text { options with toOperationOptions := filled })
      fun response s => (options.path.filter (· ≠ "") = none → ∃ resolved cid found,
          sources.ReadAs address node.base32 earlier bucketId text resolved cid found ∧
            response = found.map (DagNodeResponse.new node.base32 resolved)) ∧
        Remains view cached address sources node.base32 earlier s := by
  by_cases hpath : options.path.filter (· ≠ "") = none
  · refine tries_after hcluster reads_metaParams stable_remains fun params _ => ?_
    have hresolve := (@tries_resolveName _ view cached address sources bucketId env node
      (earlier.Wrote node.base32 bucketId text) hcluster text
      { filled with cacheControl := options.cacheControl }).frame
        (@stable_remains _ view cached address sources node.base32 earlier)
    refine .bind Leaves.refl (hresolve.imp (fun s hs => ⟨hs.ifWritten, hs⟩) fun _ _ h => h)
      fun resolved => ?_
    have hA := (@stable_resolvedTo _ view cached address sources bucketId node.base32 text
      resolved).and (@stable_remains _ view cached address sources node.base32 earlier)
    refine .bind Leaves.refl (.ofExcept hA) fun cid => .assume fun hdecoded => ?_
    let Q (found : Option NodeMessage) (s : σ) : Prop :=
      sources.ReadAs address node.base32 earlier bucketId text resolved cid found ∧
        Remains view cached address sources node.base32 earlier s
    have hQ : ∀ found, Stable (Leaves view cached address sources) (Q found) :=
      fun found => Stable.pure.and stable_remains
    have hget : Tries env (Leaves view cached address sources) (fun s =>
        ResolvedTo view cached address sources node.base32 bucketId text resolved s ∧
          Remains view cached address sources node.base32 earlier s)
        (DagApi.getNode node.hasher node.options params { bucketId, cid, path := options.path })
        Q := by
      refine tries_getNode hcluster hpath hA hQ fun s hs => ⟨?_, hs.2⟩
      refine ⟨hdecoded, hs.1.asCid, fun hname => ?_, fun m hm => hs.2.sourced.nodes _ _ m hm, ?_⟩
      · obtain ⟨cid', hresolved, -, hlead⟩ := hs.1.asName hname
        rw [hresolved, node.base32.decode_encode] at hdecoded
        cases hdecoded
        rcases hlead with hrecorded | ⟨m, -, hnamed, hthere⟩
        · exact .inl hrecorded
        · exact .inr ⟨m, hnamed, hthere⟩
      · rintro m hput rfl
        exact hs.2.nodes bucketId m hput
    refine .bind Leaves.refl hget fun found => .done (Stable.pure.and stable_remains) ?_
    exact fun s hs => ⟨fun _ => ⟨resolved, cid, found, hs.1, rfl⟩, hs.2⟩
  · have hreads : Tries env (Leaves view cached address sources)
        (Remains view cached address sources node.base32 earlier)
        (node.getDagNode bucketId text { options with toOperationOptions := filled }) fun _ s =>
          Remains view cached address sources node.base32 earlier s ∧ True :=
      reads_getDagNode.tries stable_remains fun r hr s _ => leaves_reads hcluster hr s
    exact hreads.imp (fun _ hs => hs) fun _ s hs => ⟨fun hnone => absurd hnone hpath, hs.1⟩

/-- An operation that resolves has a result that can be relied on, and what it stores is there. -/
theorem tries_program (hcluster : LossyCluster env view cached address)
    (hdistinct : sources.Distinct address) (hbase : node.base32 = base32)
    (hwithin : operation.Within base32 sources) (filled : OperationOptions) :
    Tries env (Leaves view cached address sources)
      (Remains view cached address sources base32 earlier) (operation.program filled node)
      fun result s =>
        (operation.Safe address sources base32 earlier result ∧
          Stands view address base32 operation s) ∧
        Remains view cached address sources base32 earlier s := by
  subst hbase
  cases operation with
  | storeDagNode bucketId dagNode options =>
    exact tries_program_storeDagNode hcluster hdistinct hwithin filled
  | storeCnsRecord bucketId record options =>
    exact tries_program_storeCnsRecord hcluster hwithin filled
  | getDagNode bucketId text options =>
    refine .bind Leaves.refl (tries_program_getDagNode hcluster filled) fun response =>
      .done stable_outcome fun s hs => ?_
    refine ⟨⟨fun hpath => ?_, stands_of_reads nofun nofun⟩, hs.2⟩
    obtain ⟨resolved, cid, found, hread, rfl⟩ := hs.1 hpath
    exact ⟨resolved, cid, found, hread, rfl⟩
  | getCnsRecord bucketId name options =>
    have hget := (@tries_getCnsRecord _ view cached address sources bucketId name env node
      (earlier.Wrote node.base32 bucketId name) hcluster
      { options with toOperationOptions := filled }).frame
        (@stable_remains _ view cached address sources node.base32 earlier)
    refine .bind Leaves.refl (hget.imp (fun s hs => ⟨hs.ifWritten, hs⟩) fun _ _ h => h)
      fun response => .done stable_outcome fun s hs => ?_
    obtain ⟨⟨found, hresponse, hfound⟩, hs⟩ := hs
    exact ⟨⟨⟨response, found, rfl, hresponse, hfound.ledTo⟩, stands_of_reads nofun nofun⟩, hs⟩
  | resolveName bucketId text options =>
    have hresolve := (@tries_resolveName _ view cached address sources bucketId env node
      (earlier.Wrote node.base32 bucketId text) hcluster text
      { options with toOperationOptions := filled }).frame
        (@stable_remains _ view cached address sources node.base32 earlier)
    refine .bind Leaves.refl (hresolve.imp (fun s hs => ⟨hs.ifWritten, hs⟩) fun _ _ h => h)
      fun resolved => .done stable_outcome fun s hs => ?_
    obtain ⟨hresolved, hs⟩ := hs
    refine ⟨⟨⟨resolved, rfl, hresolved.asCid, fun hname => ?_⟩, stands_of_reads nofun nofun⟩, hs⟩
    obtain ⟨cid, htext, -, hlead⟩ := hresolved.asName hname
    refine ⟨cid, htext, ?_⟩
    rcases hlead with hrecorded | ⟨m, hcid, hnamed, -⟩
    · exact .inl hrecorded
    · exact .inr ⟨m, hcid, hnamed⟩

end

end CereDdc
