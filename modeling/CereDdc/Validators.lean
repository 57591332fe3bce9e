import CereDdc.ApiMessages

/-!
# Validators — `validators`

The checks on content that comes back from a node. The hash function is a
parameter: an incremental hasher, whose digest of the chunks it was updated with
is the hash of their concatenation.
-/

namespace CereDdc

/-! ## The hasher -/

/-- An incremental hash, with the hash of a whole input it computes. -/
structure Hasher where
  State : Type
  init : State
  update : State → Bytes → State
  digest : State → Bytes
  hash : Bytes → Bytes
  digest_update : ∀ chunks : List Bytes, digest (chunks.foldl update init) = hash chunks.flatten

/-- The hasher that keeps everything, and hashes it at the end. -/
def Hasher.buffered (hash : Bytes → Bytes) : Hasher where
  State := Bytes
  init := []
  update := (· ++ ·)
  digest := hash
  hash := hash
  digest_update := fun chunks => by
    have happend : ∀ (start : Bytes),
        chunks.foldl (fun state chunk => state ++ chunk) start = start ++ chunks.flatten := by
      induction chunks with
      | nil => simp
      | cons chunk chunks ih =>
        intro start
        rw [List.foldl_cons, ih, List.flatten_cons, List.append_assoc]
    exact congrArg hash (happend [])

/-! ## Hexadecimal texts -/

def hexDigit (n : Nat) : Char := Char.ofNat (if n < 10 then 48 + n else 87 + n)

def hexByte (b : UInt8) : List Char := [hexDigit (b.toNat / 16), hexDigit (b.toNat % 16)]

/-- `toString('hex')` -/
def toHex (bytes : Bytes) : List Char := bytes.flatMap hexByte

theorem hexDigit_injective {m n : Nat} (hm : m < 16) (hn : n < 16)
    (h : hexDigit m = hexDigit n) : m = n := by
  have hall : ∀ m < 16, ∀ n < 16, hexDigit m = hexDigit n → m = n := by decide
  exact hall m hm n hn h

theorem hexByte_injective {a b : UInt8} (h : hexByte a = hexByte b) : a = b := by
  have ha := a.toNat_lt
  have hb := b.toNat_lt
  simp only [hexByte, List.cons.injEq, and_true] at h
  have hhigh := hexDigit_injective (by omega) (by omega) h.1
  have hlow := hexDigit_injective (by omega) (by omega) h.2
  exact UInt8.toNat_inj.mp (by omega)

theorem toHex_injective {a b : Bytes} (h : toHex a = toHex b) : a = b := by
  induction a generalizing b with
  | nil =>
    cases b with
    | nil => rfl
    | cons y b => cases h
  | cons x a ih =>
    cases b with
    | nil => cases h
    | cons y b =>
      have happend : hexByte x ++ toHex a = hexByte y ++ toHex b := h
      obtain ⟨hhead, htail⟩ := List.append_inj happend rfl
      rw [hexByte_injective hhead, ih htail]

/-! ## `CidValidator` -/

/-- A `CidValidator`: the CID, whether it is enabled, and its hasher. -/
structure CidValidator (hasher : Hasher) where
  cid : Cid
  enable : Bool
  state : hasher.State

namespace CidValidator

variable {hasher : Hasher}

def new (hasher : Hasher) (cid : Cid) (enable : Bool) : CidValidator hasher :=
  { cid, enable, state := hasher.init }

def update (validator : CidValidator hasher) (chunk : Bytes) : CidValidator hasher :=
  if validator.enable then { validator with state := hasher.update validator.state chunk }
  else validator

def validate (validator : CidValidator hasher) : Except JsError Unit :=
  if validator.enable then
    let receivedHash := toHex (hasher.digest validator.state)
    let expectedHash := toHex validator.cid.contentHash
    if receivedHash ≠ expectedHash then
      .error (.error "Received content is not valid - hash does not match")
    else .ok ()
  else .ok ()

end CidValidator

/-! ## `FileValidator` -/

/-- A `FileValidator`: a `CidValidator` with the range of the read and the flag that proofs set. -/
structure FileValidator (hasher : Hasher) extends CidValidator hasher where
  range : Option ReadFileRange
  isProved : Bool

namespace FileValidator

variable {hasher : Hasher}

def new (hasher : Hasher) (cid : Cid) (enable : Bool) (range : Option ReadFileRange) :
    FileValidator hasher :=
  { CidValidator.new hasher cid enable with range, isProved := false }

def update (validator : FileValidator hasher) (chunk : Bytes) : FileValidator hasher :=
  { validator with toCidValidator := validator.toCidValidator.update chunk }

/-- `prove({ proof })`: the proof itself is not looked at. -/
def prove (validator : FileValidator hasher) (proof : List Bytes) : FileValidator hasher :=
  { validator with isProved := decide (0 < proof.length) }

def validate (validator : FileValidator hasher) : Except JsError Unit :=
  if validator.isProved || validator.range.isSome then .ok ()
  else validator.toCidValidator.validate

/-- A message of the response stream, as it reaches the validator. -/
def receive (validator : FileValidator hasher) : GetFileResponse → FileValidator hasher
  | .data data => validator.update data
  | .proof proof => validator.prove proof
  | .undefined => validator

end FileValidator

/-! ## What a stream of messages leaves behind -/

/-- The data among the messages, in its chunks. -/
def dataChunks (messages : List GetFileResponse) : List Bytes :=
  messages.filterMap fun
    | .data data => some data
    | _ => none

/-- The last proof among the messages is not empty. -/
def lastProofShown (messages : List GetFileResponse) : Bool :=
  messages.foldl (fun shown message =>
    match message with
    | .proof proof => decide (0 < proof.length)
    | _ => shown) false

section

variable {hasher : Hasher} {validator : FileValidator hasher} {message : GetFileResponse}
  {messages : List GetFileResponse} {cid : Cid}

@[simp] theorem dataChunks_nil : dataChunks [] = [] := rfl

@[simp] theorem dataChunks_data {data : Bytes} :
    dataChunks (.data data :: messages) = data :: dataChunks messages := rfl

@[simp] theorem dataChunks_proof {proof : List Bytes} :
    dataChunks (.proof proof :: messages) = dataChunks messages := rfl

@[simp] theorem dataChunks_undefined :
    dataChunks (.undefined :: messages) = dataChunks messages := rfl

@[simp] theorem receive_cid : (validator.receive message).cid = validator.cid := by
  cases message with
  | data data =>
    simp only [FileValidator.receive, FileValidator.update, CidValidator.update]
    split <;> rfl
  | proof proof => rfl
  | undefined => rfl

@[simp] theorem receive_enable : (validator.receive message).enable = validator.enable := by
  cases message with
  | data data =>
    simp only [FileValidator.receive, FileValidator.update, CidValidator.update]
    split <;> rfl
  | proof proof => rfl
  | undefined => rfl

@[simp] theorem receive_range : (validator.receive message).range = validator.range := by
  cases message <;> rfl

theorem foldl_receive_cid : (messages.foldl FileValidator.receive validator).cid = validator.cid := by
  induction messages generalizing validator with
  | nil => rfl
  | cons message messages ih => rw [List.foldl_cons, ih, receive_cid]

theorem foldl_receive_enable :
    (messages.foldl FileValidator.receive validator).enable = validator.enable := by
  induction messages generalizing validator with
  | nil => rfl
  | cons message messages ih => rw [List.foldl_cons, ih, receive_enable]

theorem foldl_receive_range :
    (messages.foldl FileValidator.receive validator).range = validator.range := by
  induction messages generalizing validator with
  | nil => rfl
  | cons message messages ih => rw [List.foldl_cons, ih, receive_range]

/-- An enabled validator has hashed the data of the messages, chunk by chunk. -/
theorem foldl_receive_state (h : validator.enable) :
    (messages.foldl FileValidator.receive validator).state =
      (dataChunks messages).foldl hasher.update validator.state := by
  induction messages generalizing validator with
  | nil => rfl
  | cons message messages ih =>
    rw [List.foldl_cons, ih (by rwa [receive_enable])]
    cases message with
    | data data => simp [FileValidator.receive, FileValidator.update, CidValidator.update, h]
    | proof proof => rfl
    | undefined => rfl

/-- The flag is that of the last proof. -/
theorem foldl_receive_isProved :
    (messages.foldl FileValidator.receive validator).isProved =
      messages.foldl (fun shown message =>
        match message with
        | .proof proof => decide (0 < proof.length)
        | _ => shown) validator.isProved := by
  induction messages generalizing validator with
  | nil => rfl
  | cons message messages ih =>
    rw [List.foldl_cons, ih, List.foldl_cons]
    cases message <;> rfl

/-- An enabled `CidValidator` passes exactly the content whose hash is that of its CID. -/
theorem CidValidator.validate_eq_ok {validator : CidValidator hasher} (h : validator.enable) :
    validator.validate = .ok () ↔ hasher.digest validator.state = validator.cid.contentHash := by
  unfold CidValidator.validate
  rw [if_pos h]
  by_cases hhash : toHex (hasher.digest validator.state) = toHex validator.cid.contentHash
  · simp [toHex_injective hhash]
  · have hne : hasher.digest validator.state ≠ validator.cid.contentHash :=
      fun heq => hhash (congrArg toHex heq)
    simp [hhash, hne]

/-- What an authenticated read of a whole file accepts: the content of the CID, or anything
under a proof that is not empty. -/
theorem FileValidator.validate_receive_eq_ok :
    (messages.foldl FileValidator.receive
        (FileValidator.new hasher cid true none)).validate = .ok () ↔
      lastProofShown messages = true ∨
        hasher.hash (dataChunks messages).flatten = cid.contentHash := by
  unfold FileValidator.validate
  rw [foldl_receive_range, foldl_receive_isProved]
  change (if lastProofShown messages || false then _ else _) = _ ↔ _
  cases lastProofShown messages with
  | true => simp
  | false =>
    rw [Bool.or_false, if_neg Bool.false_ne_true, CidValidator.validate_eq_ok
      (by rw [foldl_receive_enable]; rfl), foldl_receive_state (by rfl), foldl_receive_cid]
    simp [FileValidator.new, CidValidator.new, hasher.digest_update]

end

end CereDdc
