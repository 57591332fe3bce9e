import CereDdc.AuthToken

/-!
# Token signatures — `auth/AuthToken.ts`

A token is signed in place. A `sign` call signs the binary form that the token has
when the call begins, and that form holds the signature of the call before.
-/

namespace CereDdc

namespace AuthToken

/-- The token without its signature. -/
def unsigned : AuthToken → AuthToken
  | .bare _ => .bare none
  | .root _ payload => .root none payload
  | .linked _ payload prev => .linked none payload prev

variable {token u : AuthToken} {signature : Signature} {signer : Signer}

@[simp] theorem unsigned_withSignature :
    (token.withSignature signature).unsigned = token.unsigned := by
  cases token <;> rfl

@[simp] theorem withSignature_unsigned :
    token.unsigned.withSignature signature = token.withSignature signature := by
  cases token <;> rfl

theorem unsigned_of_none (h : token.signature = none) : token.unsigned = token := by
  cases token <;> cases h <;> rfl

/-- The signature comes first in the binary form, the rest is that of the unsigned token. -/
theorem toBinary_eq :
    token.toBinary
      = optionalField (bytesField 1 ∘ Signature.toBinary) token.signature
        ++ token.unsigned.toBinary := by
  cases token with
  | bare signature =>
    show _ = _ ++ []
    rw [List.append_nil]
    rfl
  | root signature payload => rfl
  | linked signature payload prev => rfl

theorem length_bytesField_pos (field : Nat) (value : Bytes) :
    0 < (bytesField field value).length := by
  have hvarint : 0 < (varint (field * 8 + 2)).length := by
    unfold varint
    split <;> simp
  simp only [bytesField, List.length_append]
  omega

/-- A signature shows in the binary form. -/
theorem toBinary_eq_unsigned_iff :
    token.toBinary = token.unsigned.toBinary ↔ token.signature = none := by
  constructor
  · intro h
    cases hsignature : token.signature with
    | none => rfl
    | some signature =>
      have hlength := congrArg List.length (toBinary_eq : token.toBinary = _)
      have hpos := length_bytesField_pos 1 signature.toBinary
      rw [hsignature, h, List.length_append] at hlength
      change _ = (bytesField 1 signature.toBinary).length + _ at hlength
      omega
  · intro h
    rw [unsigned_of_none h]

theorem unsigned_of_sign (h : token.sign signer = .ok u) : u.unsigned = token.unsigned := by
  obtain ⟨signature, -, rfl⟩ := sign_eq_ok.mp h
  exact unsigned_withSignature

theorem signature_of_sign (h : token.sign signer = .ok u) : u.signature ≠ none := by
  obtain ⟨signature, -, rfl⟩ := sign_eq_ok.mp h
  simp

end AuthToken

/-! ## A sequence of `sign` calls -/

/-- A token, with the signer and the message of the last call that has signed it. -/
structure SignedToken where
  token : AuthToken
  signed : Option (Signer × Bytes) := none

namespace SignedToken

/-- `await token.sign(signer)`. A call that rejects does not come to the assignment. -/
def sign (s : SignedToken) (signer : Signer) : SignedToken :=
  match s.token.sign signer with
  | .ok token => { token, signed := some (signer, s.token.toBinary) }
  | .error _ => s

/-- The calls of `sign`, one after another. -/
def signAll (s : SignedToken) (signers : List Signer) : SignedToken :=
  signers.foldl sign s

variable {s : SignedToken} {token u : AuthToken} {signer : Signer}
  {signers before after : List Signer}

theorem sign_of_ok (h : s.token.sign signer = .ok u) :
    s.sign signer = ⟨u, some (signer, s.token.toBinary)⟩ := by
  unfold sign
  rw [h]

theorem sign_of_error (h : ∀ u, s.token.sign signer ≠ .ok u) : s.sign signer = s := by
  unfold sign
  cases hsign : s.token.sign signer with
  | error e => rfl
  | ok u => exact absurd hsign (h u)

/-- Calls that all reject leave the token as it was. -/
theorem signAll_of_error (h : ∀ signer ∈ signers, ∀ u, s.token.sign signer ≠ .ok u) :
    s.signAll signers = s := by
  induction signers with
  | nil => rfl
  | cons signer signers ih =>
    show (s.sign signer).signAll signers = s
    rw [sign_of_error (h signer (by simp))]
    exact ih fun other hother => h other (by simp [hother])

/-- A token that has a signature keeps one. -/
theorem signature_signAll (h : s.token.signature ≠ none) :
    (s.signAll signers).token.signature ≠ none := by
  induction signers generalizing s with
  | nil => exact h
  | cons signer signers ih =>
    apply ih
    unfold sign
    cases hsign : s.token.sign signer with
    | error e => exact h
    | ok u => exact AuthToken.signature_of_sign hsign

/-- The token has no signature yet: it came without one, and all the calls have rejected. -/
theorem signAll_signature_none :
    (s.signAll signers).token.signature = none ↔
      s.token.signature = none ∧ ∀ signer ∈ signers, ∀ u, s.token.sign signer ≠ .ok u := by
  constructor
  · intro h
    induction signers generalizing s with
    | nil => exact ⟨h, by simp⟩
    | cons signer signers ih =>
      cases hsign : s.token.sign signer with
      | error e =>
        have hsame : s.sign signer = s := sign_of_error (by simp [hsign])
        have hrest : (s.signAll signers).token.signature = none := by
          rw [← hsame]
          exact h
        obtain ⟨hnone, hrejected⟩ := ih hrest
        refine ⟨hnone, ?_⟩
        intro other hother u
        rcases List.mem_cons.mp hother with rfl | hother
        · simp [hsign]
        · exact hrejected other hother u
      | ok u =>
        -- from here on the token has a signature
        have hsigned : (s.sign signer).token.signature ≠ none := by
          rw [sign_of_ok hsign]
          exact AuthToken.signature_of_sign hsign
        have hrest : ((s.sign signer).signAll signers).token.signature = none := h
        exact absurd hrest (signature_signAll hsigned)
  · rintro ⟨hnone, hrejected⟩
    rw [signAll_of_error hrejected]
    exact hnone

/-- The signature of the token is `signer`'s, over a message that can be made from the token, and
the token is what a single `sign` call of `signer` would have made. -/
structure Verifiable (s : SignedToken) (signer : Signer) : Prop where
  message : s.signed = some (signer, s.token.unsigned.toBinary)
  once : s.token.unsigned.sign signer = .ok s.token

/-- A call that signs, seen alone. -/
theorem verifiable_sign_iff (h : s.token.sign signer = .ok u) :
    (s.sign signer).Verifiable signer ↔ s.token.signature = none := by
  rw [sign_of_ok h]
  have hunsigned := AuthToken.unsigned_of_sign h
  constructor
  · intro hs
    have hmessage : s.token.toBinary = u.unsigned.toBinary := by
      simpa using hs.message
    rw [hunsigned] at hmessage
    exact AuthToken.toBinary_eq_unsigned_iff.mp hmessage
  · intro hnone
    refine ⟨?_, ?_⟩
    · show some (signer, s.token.toBinary) = some (signer, u.unsigned.toBinary)
      rw [hunsigned, AuthToken.unsigned_of_none hnone]
    · show u.unsigned.sign signer = .ok u
      rw [hunsigned, AuthToken.unsigned_of_none hnone]
      exact h

/-- Whether the signature that a sequence of calls leaves is one that can be verified: `signer` is
the last that signed, and then it must be the first as well, of a token that had no signature. -/
theorem signAll_verifiable_iff
    (hlast : (signAll ⟨token, none⟩ before).token.sign signer = .ok u)
    (hafter : ∀ other ∈ after, ∀ v, u.sign other ≠ .ok v) :
    (signAll ⟨token, none⟩ (before ++ signer :: after)).Verifiable signer ↔
      token.signature = none ∧ ∀ other ∈ before, ∀ v, token.sign other ≠ .ok v := by
  have hcalls : signAll ⟨token, none⟩ (before ++ signer :: after)
      = (signAll ⟨token, none⟩ before).sign signer := by
    rw [signAll, List.foldl_append, List.foldl_cons]
    apply signAll_of_error
    rw [show List.foldl sign ⟨token, none⟩ before = signAll ⟨token, none⟩ before from rfl,
      sign_of_ok hlast]
    exact hafter
  rw [hcalls, verifiable_sign_iff hlast]
  exact signAll_signature_none

/-- Two signers and a token that has just been made. -/
def firstSigner : Signer := UriSigner (plainPair .sr25519 1)
def secondSigner : Signer := UriSigner (plainPair .ed25519 2)
def newToken : AuthToken := .root none { operations := [.get] }

theorem sign_firstSigner (token : AuthToken) :
    token.sign firstSigner = .ok (token.withSignature ⟨.sr25519, [1], token.toBinary⟩) :=
  AuthToken.sign_eq_ok.mpr ⟨_, createSignature_eq_ok.mpr ⟨rfl, rfl, rfl⟩, rfl⟩

theorem sign_secondSigner (token : AuthToken) :
    token.sign secondSigner = .ok (token.withSignature ⟨.ed25519, [2], token.toBinary⟩) :=
  AuthToken.sign_eq_ok.mpr ⟨_, createSignature_eq_ok.mpr ⟨rfl, rfl, rfl⟩, rfl⟩

/-- A token that is signed once can be verified. -/
theorem newToken_verifiable :
    (signAll ⟨newToken, none⟩ [firstSigner]).Verifiable firstSigner := by
  have honce := @signAll_verifiable_iff newToken _ firstSigner [] [] (sign_firstSigner newToken)
    (by simp)
  exact honce.mpr ⟨rfl, by simp⟩

/-- A token that two signers have signed, one after the other, cannot. -/
theorem newToken_signedTwice :
    (∃ u v, newToken.sign firstSigner = .ok u ∧ u.sign secondSigner = .ok v) ∧
      ¬ (signAll ⟨newToken, none⟩ [firstSigner, secondSigner]).Verifiable secondSigner := by
  refine ⟨⟨_, _, sign_firstSigner newToken, sign_secondSigner _⟩, ?_⟩
  show ¬ (sign (sign ⟨newToken, none⟩ firstSigner) secondSigner).Verifiable secondSigner
  rw [verifiable_sign_iff (sign_secondSigner _), sign_of_ok (sign_firstSigner newToken)]
  exact AuthToken.signature_of_sign (sign_firstSigner newToken)

end SignedToken

end CereDdc
