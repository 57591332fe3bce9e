import CereDdc.FileAuthentication
import CereDdc.SignedMessages
import CereDdc.StoredMessages

/-!
# VerifiedContent — what nodes and resolvers can check

A DAG node that is read with authentication on, and a CNS record that a resolver
has in its binary form.
-/

namespace CereDdc

open Kit Program Api

/-! ## The binary form of a node -/

theorem flatMap_map_bytes {α : Type} (field : Nat) (write : α → Bytes) (values : List α) :
    (values.map (WireValue.bytes ∘ write)).flatMap (WireValue.toBinary field)
      = values.flatMap (bytesField field ∘ write) := by
  rw [List.flatMap_map]
  rfl

def LinkMessage.content (link : LinkMessage) : Nat → List WireValue
  | 1 => bytesContent link.cid
  | 2 => bytesContent (utf8 link.name)
  | 3 => varintContent link.size
  | _ => []

def Tag.content (tag : Tag) : Nat → List WireValue
  | 1 => bytesContent (utf8 tag.key)
  | 2 => bytesContent (utf8 tag.value)
  | _ => []

def NodeMessage.content (node : NodeMessage) : Nat → List WireValue
  | 1 => bytesContent node.data
  | 2 => node.links.map (.bytes ∘ LinkMessage.toBinary)
  | 3 => node.tags.map (.bytes ∘ Tag.toBinary)
  | _ => []

theorem LinkMessage.toBinary_inj {a b : LinkMessage} (h : a.toBinary = b.toBinary) : a = b := by
  have heq : ∀ link : LinkMessage, link.toBinary = contentBinary [1, 2, 3] link.content := by
    intro link
    simp only [contentBinary, List.flatMap_cons, List.flatMap_nil, LinkMessage.content,
      flatMap_bytesContent, flatMap_varintContent, List.append_nil, ← List.append_assoc]
    rfl
  rw [heq, heq] at h
  have hcontent := content_eq (by decide) h
  obtain ⟨cid, name, size⟩ := a
  obtain ⟨cid', name', size'⟩ := b
  cases bytesContent_inj (hcontent 1 (by simp))
  cases utf8_inj (bytesContent_inj (hcontent 2 (by simp)))
  cases varintContent_inj (hcontent 3 (by simp))
  rfl

theorem Tag.toBinary_inj {a b : Tag} (h : a.toBinary = b.toBinary) : a = b := by
  have heq : ∀ tag : Tag, tag.toBinary = contentBinary [1, 2] tag.content := by
    intro tag
    simp only [contentBinary, List.flatMap_cons, List.flatMap_nil, Tag.content,
      flatMap_bytesContent, List.append_nil]
    rfl
  rw [heq, heq] at h
  have hcontent := content_eq (by decide) h
  obtain ⟨key, value⟩ := a
  obtain ⟨key', value'⟩ := b
  cases utf8_inj (bytesContent_inj (hcontent 1 (by simp)))
  cases utf8_inj (bytesContent_inj (hcontent 2 (by simp)))
  rfl

theorem map_bytes_inj {α : Type} {write : α → Bytes} (hwrite : ∀ {a b}, write a = write b → a = b)
    {values values' : List α}
    (h : values.map (WireValue.bytes ∘ write) = values'.map (WireValue.bytes ∘ write)) :
    values = values' :=
  List.map_injective_iff.mpr (fun _ _ heq => hwrite (WireValue.bytes.inj heq)) h

/-- A node is determined by its binary form. -/
theorem NodeMessage.toBinary_inj {a b : NodeMessage} (h : a.toBinary = b.toBinary) : a = b := by
  have heq : ∀ node : NodeMessage, node.toBinary = contentBinary [1, 2, 3] node.content := by
    intro node
    simp only [contentBinary, List.flatMap_cons, List.flatMap_nil, NodeMessage.content,
      flatMap_bytesContent, flatMap_map_bytes, List.append_nil, ← List.append_assoc]
    rfl
  rw [heq, heq] at h
  have hcontent := content_eq (by decide) h
  obtain ⟨data, links, tags⟩ := a
  obtain ⟨data', links', tags'⟩ := b
  cases bytesContent_inj (hcontent 1 (by simp))
  cases map_bytes_inj LinkMessage.toBinary_inj (hcontent 2 (by simp))
  cases map_bytes_inj Tag.toBinary_inj (hcontent 3 (by simp))
  rfl

/-! ## Authenticated reads -/

section

variable {σ : Type} {env : Environment ApiRequest.Answer σ} {s t : σ} {hasher : Hasher}
  {options : ApiOptions} {params : MetaParams} {request : DagGetMessage}
  {result : Option NodeMessage}

/-- The bytes that are hashed for the answer of the node. -/
def hashedBytes (result : Option NodeMessage) : Bytes := (result.map NodeMessage.toBinary).getD []

/-- `getNode` up to the check of its answer. -/
def fetchNode (options : ApiOptions) (params : MetaParams) (request : DagGetMessage) :
    ApiProgram (Option NodeMessage) := do
  let info ← params.create
  let info ← signMeta options.keys
    { id := some request.cid, bucketId := request.bucketId, requestType := .get } info
  call info (.dagGet request)

/-- The check of the answer. -/
def checkNode (hasher : Hasher) (cid : Cid) (authenticate : Bool) (result : Option NodeMessage) :
    Except JsError Unit :=
  let validator := CidValidator.new hasher cid authenticate
  (match result, authenticate with
    | some node, true => validator.update node.toBinary
    | _, _ => validator).validate

theorem getNode_eq (authenticate : Bool)
    (h : (options.authenticates && (request.path.filter (· ≠ "")).isNone) = authenticate) :
    DagApi.getNode hasher options params request = fetchNode options params request >>= fun node =>
      Program.ofExcept (checkNode hasher request.cid authenticate node) >>= fun _ => pure node := by
  have hassoc : ∀ {α β γ : Type} (p : ApiProgram α) (f : α → ApiProgram β) (g : β → ApiProgram γ),
      p >>= (fun a => f a >>= g) = (p >>= f) >>= g := by
    intro α β γ p f g
    induction p with
    | done a => rfl
    | fail e => rfl
    | ask r next ih => exact congrArg (Program.ask r) (funext ih)
  unfold DagApi.getNode fetchNode
  rw [h]
  refine .trans ?_ (hassoc params.create _ _)
  refine congrArg (params.create >>= ·) (funext fun info => ?_)
  refine .trans ?_ (hassoc (signMeta _ _ info) _ _)
  refine congrArg (signMeta _ _ info >>= ·) (funext fun info => ?_)
  refine congrArg (call info (.dagGet request) >>= ·) (funext fun node => ?_)
  cases node with
  | none => rfl
  | some node =>
    cases authenticate with
    | false => rfl
    | true => rfl

theorem checkNode_false {cid : Cid} : checkNode hasher cid false result = .ok () := by
  cases result <;> rfl

theorem checkNode_eq_ok {cid : Cid} :
    checkNode hasher cid true result = .ok () ↔
      hasher.hash (hashedBytes result) = cid.contentHash := by
  unfold checkNode
  cases result with
  | none =>
    show (CidValidator.new hasher cid true).validate = _ ↔ _
    rw [CidValidator.validate_eq_ok rfl]
    exact (congrArg (· = cid.contentHash) (hasher.digest_update [])).to_iff
  | some node =>
    show ((CidValidator.new hasher cid true).update node.toBinary).validate = _ ↔ _
    rw [CidValidator.validate_eq_ok rfl]
    have hdigest := hasher.digest_update [node.toBinary]
    rw [List.flatten_cons, List.flatten_nil, List.append_nil] at hdigest
    exact (congrArg (· = cid.contentHash) hdigest).to_iff

/-- A check that is made of an answer, and does not change it. -/
theorem run_checked {p : ApiProgram (Option NodeMessage)}
    {check : Option NodeMessage → Except JsError Unit} :
    run env (p >>= fun node => Program.ofExcept (check node) >>= fun _ => pure node) s
      = (.ok result, t) ↔ run env p s = (.ok result, t) ∧ check result = .ok () := by
  constructor
  · intro h
    obtain ⟨node, u, hfetch, h⟩ := run_bind_eq_ok h
    obtain ⟨⟨⟩, v, hcheck, h⟩ := run_bind_eq_ok h
    obtain ⟨hvalid, rfl⟩ := run_ofExcept_eq_ok hcheck
    cases h
    exact ⟨hfetch, hvalid⟩
  · rintro ⟨hfetch, hcheck⟩
    rw [run_bind_ok hfetch, hcheck]
    rfl

end

/-- With authentication on, a node that was asked for by its CID is read when it would be read
without, and is the node that was stored. Only for a node without content the answer may be
missing. -/
theorem DagApi.getNode_authentic_iff (hasher : Hasher) (options : ApiOptions) (params : MetaParams)
    (request : DagGetMessage) (stored : NodeMessage) (hauth : options.authenticates = true)
    (hpath : request.path.filter (· ≠ "") = none)
    (hcid : Cid.contentHash request.cid = hasher.hash stored.toBinary)
    (hhash : ∀ data, hasher.hash data = hasher.hash stored.toBinary → data = stored.toBinary)
    {σ : Type} (env : Environment ApiRequest.Answer σ) (s t : σ) (result : Option NodeMessage) :
    run env (DagApi.getNode hasher options params request) s = (.ok result, t) ↔
      run env (DagApi.getNode hasher { options with authenticate := some false } params request) s
        = (.ok result, t) ∧ (result = some stored ∨ result = none ∧ stored = ⟨[], [], []⟩) := by
  have hresult : hasher.hash (hashedBytes result) = Cid.contentHash request.cid ↔
      result = some stored ∨ result = none ∧ stored = ⟨[], [], []⟩ := by
    rw [hcid]
    constructor
    · intro heq
      have hbytes := hhash _ heq
      cases result with
      | none => exact .inr ⟨rfl, NodeMessage.toBinary_inj hbytes.symm⟩
      | some node => exact .inl (congrArg some (NodeMessage.toBinary_inj hbytes))
    · rintro (rfl | ⟨rfl, rfl⟩)
      · rfl
      · rfl
  rw [getNode_eq true (by rw [hauth, hpath]; rfl), getNode_eq false rfl, run_checked, run_checked,
    checkNode_eq_ok, hresult]
  exact ⟨fun h => ⟨⟨h.1, checkNode_false⟩, h.2⟩, fun h => ⟨h.1.1, h.2⟩⟩

/-- A node that has one DAG node to answer with. -/
def dagNode (node : NodeMessage) : Environment ApiRequest.Answer Unit
  | _, .rpc _ (.dagGet _) => (.ok (some node), ())
  | _, _ => (default, ())

theorem DagApi.getNode_authentic_data :
    let stored : NodeMessage := ⟨List.replicate 30 7, [], []⟩
    let hasher := Hasher.buffered id
    let request : DagGetMessage := ⟨1, [1, 85, 160, 228, 2, 32] ++ stored.toBinary, none⟩
    run (dagNode stored) (DagApi.getNode hasher readingClient {} request) ()
      = (.ok (some stored), ()) := by
  intro stored hasher request
  exact (DagApi.getNode_authentic_iff hasher readingClient {} request stored rfl rfl
    (by decide +kernel) (fun data h => h) (dagNode stored) () () _).mpr ⟨rfl, .inl rfl⟩

end CereDdc
