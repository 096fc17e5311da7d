import Trackward.ChainCore.Chain
import Trackward.ChainCore.Merkle

/-!
# Offline verification of export bundles

A bundle carries a manifest, its SHA-256, an ed25519 signature and the public
key that verifies it.  The verifier checks the digest and the signature and
reports who signed, how much evidence there is, and a key id.

The manifest and the public key are covered by these checks.  The reported
`signed_by` and `key_id` are read from members of the document that nothing
covers, so they are authentic only if the document happens to be honest about
them.
-/

namespace Trackward.Verifier.Bundle

open Trackward.ChainCore.CanonicalJson
open Trackward.ChainCore.JsonValue
open Trackward.Lib.Octets

/-- The functions of other crates the verifier calls. -/
structure Crates where
  Key : Type
  sha256 : Bytes → Digest
  hexEncode : Bytes → String
  hexEncode_injective : Function.Injective hexEncode
  hexDecode : String → Except String Bytes
  parseJson : String → Except String Json
  keyFromBytes : Block 32 → Option Key
  verifies : Key → Bytes → Block 64 → Bool

/-- Why a document is rejected. -/
inductive VerifyError where
  | json (message : String)
  | hashMismatch (expected actual : String)
  | hex (message : String)
  | badSignature
  | missingField (field : String)
  | leafCountMismatch (expected actual : Nat)
  | rootMismatch (expected actual : String)
  deriving DecidableEq

/-- How a verification stops short of a report. -/
inductive Failure where
  | error (error : VerifyError)
  | panic (panic : Panic)
  deriving DecidableEq

/-- Parse a text, reporting a malformed one. -/
def parse (crates : Crates) (text : String) : Except Failure Json :=
  match crates.parseJson text with
  | .ok json => .ok json
  | .error message => .error (.error (.json message))

/-- A text member of a document. -/
def fieldStr (value : Value) (field : String) : Except Failure String :=
  match (value.get field).bind Value.asStr with
  | some text => .ok text
  | none => .error (.error (.missingField field))

/-- The bytes of a hexadecimal member. -/
def decodeHex (crates : Crates) (text : String) : Except Failure Bytes :=
  match crates.hexDecode text with
  | .ok bytes => .ok bytes
  | .error message => .error (.error (.hex message))

/-- An array of the given size, or the message that its length is wrong. -/
def toArray (size : Nat) (message : String) (bytes : Bytes) :
    Except Failure (Block size) :=
  match Block.ofBytes? size bytes with
  | some block => .ok block
  | none => .error (.error (.hex message))

/-- The digest check on a manifest. -/
def checkDigest
    (crates : Crates) (manifestJson manifestSha256 : String) :
    Except Failure Unit :=
  let computed :=
    crates.hexEncode (crates.sha256 (utf8 manifestJson)).bytes
  if computed = manifestSha256 then .ok ()
  else .error (.error (.hashMismatch manifestSha256 computed))

/-- The signature check on a manifest. -/
def checkSignature
    (crates : Crates) (manifestJson signatureHex publicKeyHex : String) :
    Except Failure Unit := do
  let pkBytes ← decodeHex crates publicKeyHex
  let pkArr ← toArray 32 "public_key_hex must be 32 bytes" pkBytes
  match crates.keyFromBytes pkArr with
  | none => .error (.error .badSignature)
  | some verifyingKey =>
      let sigBytes ← decodeHex crates signatureHex
      let sigArr ← toArray 64 "signature must be 64 bytes" sigBytes
      if crates.verifies verifyingKey (utf8 manifestJson) sigArr then .ok ()
      else .error (.error .badSignature)

/-- What the verifier reports about a bundle. -/
structure Verified where
  signedBy : String
  evidenceCount : Nat
  keyId : String
  deriving DecidableEq

/-- The number of evidence entries of a manifest. -/
def evidenceCount (manifest : Value) : Nat :=
  match (manifest.get "evidence").bind Value.asArray with
  | some entries => entries.length
  | none => 0

/-- Verify a bundle. -/
def verifyBundle (crates : Crates) (json : String) :
    Except Failure Verified := do
  let bundle ← parse crates json
  let manifestJson ← fieldStr bundle.value "manifest_json"
  let manifestSha256 ← fieldStr bundle.value "manifest_sha256"
  let signatureHex ← fieldStr bundle.value "signature"
  let publicKeyHex ← fieldStr bundle.value "public_key_hex"
  let keyId ← fieldStr bundle.value "key_id"
  let signedBy ← fieldStr bundle.value "signed_by"
  checkDigest crates manifestJson manifestSha256
  checkSignature crates manifestJson signatureHex publicKeyHex
  let manifest ← parse crates manifestJson
  return {
    signedBy := signedBy
    evidenceCount := evidenceCount manifest.value
    keyId := keyId }

/-! ## Members of a document -/

/-- A text member of a document given as a text. -/
def documentField (crates : Crates) (json field : String) :
    Except Failure String := do
  let document ← parse crates json
  fieldStr document.value field

/-- Peel one step off a computation that succeeds. -/
theorem bind_eq_ok_iff {α β : Type}
    {first : Except Failure α} {second : α → Except Failure β}
    {value : β} :
    (first >>= second) = .ok value ↔
      ∃ middle, first = .ok middle ∧ second middle = .ok value := by
  cases first with
  | error failure => simp [bind, Except.bind]
  | ok middle => simp [bind, Except.bind]

theorem documentField_of_parse
    {crates : Crates} {json : String} {document : Json}
    (parsed : parse crates json = .ok document) (field : String) :
    documentField crates json field = fieldStr document.value field := by
  rw [documentField, parsed]
  rfl

/-- The text names a key or a signature of the given size. -/
def Names (crates : Crates) (text : String) {size : Nat}
    (block : Block size) : Prop :=
  crates.hexDecode text = .ok block.bytes

theorem names_of_toArray
    {crates : Crates} {text message : String} {size : Nat} {bytes : Bytes}
    {block : Block size} (decoded : decodeHex crates text = .ok bytes)
    (fits : toArray size message bytes = .ok block) :
    Names crates text block := by
  unfold decodeHex at decoded
  unfold toArray at fits
  split at decoded
  · rename_i decodedBytes hex
    cases decoded
    split at fits
    · rename_i block converted
      cases fits
      rw [Names, hex, Block.ofBytes?_eq_some_iff.mp converted]
    · cases fits
  · cases decoded

/-- The key id of a public key: the hexadecimal SHA-256 of its bytes. -/
def fingerprint (crates : Crates) (publicKey : Block 32) : String :=
  crates.hexEncode (crates.sha256 publicKey.bytes).bytes

/-- The public key under which the signature of a document was verified. -/
structure VerifiedBy (crates : Crates) (json : String)
    (publicKey : Block 32) : Prop where
  exists_signature :
    ∃ manifestJson signatureHex publicKeyHex verifyingKey signature,
      documentField crates json "manifest_json" = .ok manifestJson ∧
        documentField crates json "signature" = .ok signatureHex ∧
          documentField crates json "public_key_hex" = .ok publicKeyHex ∧
            Names crates publicKeyHex publicKey ∧
              Names crates signatureHex signature ∧
                crates.keyFromBytes publicKey = some verifyingKey ∧
                  crates.verifies verifyingKey (utf8 manifestJson)
                      signature =
                    true

/-- A document with a checked signature was verified under its public key. -/
theorem verifiedBy_of_checkSignature
    {crates : Crates} {json manifestJson signatureHex publicKeyHex : String}
    (manifestField :
      documentField crates json "manifest_json" = .ok manifestJson)
    (signatureField :
      documentField crates json "signature" = .ok signatureHex)
    (publicKeyField :
      documentField crates json "public_key_hex" = .ok publicKeyHex)
    (checked :
      checkSignature crates manifestJson signatureHex publicKeyHex =
        .ok ()) :
    ∃ publicKey, VerifiedBy crates json publicKey := by
  simp only [checkSignature, bind_eq_ok_iff] at checked
  rcases checked with ⟨bytes, decoded, publicKey, fits, rest⟩
  split at rest
  · cases rest
  · rename_i verifyingKey found
    simp only [bind_eq_ok_iff] at rest
    rcases rest with
      ⟨sigBytes, sigDecoded, signature, sigFits, accepted⟩
    split at accepted
    · rename_i verified
      exact
        ⟨publicKey, manifestJson, signatureHex, publicKeyHex, verifyingKey,
          signature, manifestField, signatureField, publicKeyField,
          names_of_toArray decoded fits,
          names_of_toArray sigDecoded sigFits, found, verified⟩
    · cases accepted

/-! ## What is reported about an accepted bundle -/

/-- Where the reported values of an accepted bundle come from. -/
theorem verifyBundle_eq_ok
    {crates : Crates} {json : String} {verified : Verified}
    (accepted : verifyBundle crates json = .ok verified) :
    documentField crates json "key_id" = .ok verified.keyId ∧
      documentField crates json "signed_by" = .ok verified.signedBy ∧
        ∃ manifestJson manifest,
          documentField crates json "manifest_json" = .ok manifestJson ∧
            parse crates manifestJson = .ok manifest ∧
              verified.evidenceCount = evidenceCount manifest.value := by
  simp only [verifyBundle, bind_eq_ok_iff] at accepted
  rcases accepted with
    ⟨bundle, parsed, manifestJson, manifestField, manifestSha256, _,
      signatureHex, _, publicKeyHex, _, keyId, keyIdField, signedBy,
      signedByField, _, _, _, _, manifest, manifestParsed, reported⟩
  cases reported
  simp only [documentField_of_parse parsed]
  exact
    ⟨keyIdField, signedByField, manifestJson, manifest, manifestField,
      manifestParsed, rfl⟩

/-- An accepted bundle was verified under its public key. -/
theorem exists_verifiedBy_of_bundle
    {crates : Crates} {json : String} {verified : Verified}
    (accepted : verifyBundle crates json = .ok verified) :
    ∃ publicKey, VerifiedBy crates json publicKey := by
  simp only [verifyBundle, bind_eq_ok_iff] at accepted
  rcases accepted with
    ⟨bundle, parsed, manifestJson, manifestField, _, _, signatureHex,
      signatureField, publicKeyHex, publicKeyField, _, _, _, _, _, _, _,
      checked, _⟩
  rw [← documentField_of_parse parsed]
    at manifestField signatureField publicKeyField
  exact
    verifiedBy_of_checkSignature manifestField signatureField publicKeyField
      checked

/-- The evidence count is determined by the signed manifest. -/
theorem evidenceCount_eq_of_manifest
    {crates : Crates} {json json' : String}
    {verified verified' : Verified}
    (accepted : verifyBundle crates json = .ok verified)
    (accepted' : verifyBundle crates json' = .ok verified')
    (manifests :
      documentField crates json "manifest_json" =
        documentField crates json' "manifest_json") :
    verified.evidenceCount = verified'.evidenceCount := by
  rcases verifyBundle_eq_ok accepted with
    ⟨_, _, manifestJson, manifest, field, parsed, counted⟩
  rcases verifyBundle_eq_ok accepted' with
    ⟨_, _, manifestJson', manifest', field', parsed', counted'⟩
  rw [manifests, field', Except.ok.injEq] at field
  subst field
  rw [parsed, Except.ok.injEq] at parsed'
  rw [counted, counted', parsed']

/-- Two bundles with one manifest differ in their reports only by unsigned members. -/
theorem verified_eq_iff
    {crates : Crates} {json json' : String}
    {verified verified' : Verified}
    (accepted : verifyBundle crates json = .ok verified)
    (accepted' : verifyBundle crates json' = .ok verified')
    (manifests :
      documentField crates json "manifest_json" =
        documentField crates json' "manifest_json") :
    verified = verified' ↔
      documentField crates json "key_id" =
          documentField crates json' "key_id" ∧
        documentField crates json "signed_by" =
          documentField crates json' "signed_by" := by
  have reported := verifyBundle_eq_ok accepted
  have reported' := verifyBundle_eq_ok accepted'
  rw [reported.1, reported'.1, reported.2.1, reported'.2.1,
    Except.ok.injEq, Except.ok.injEq]
  constructor
  · rintro rfl
    exact ⟨rfl, rfl⟩
  · rintro ⟨keyIds, signers⟩
    have counts :=
      evidenceCount_eq_of_manifest accepted accepted' manifests
    cases verified
    cases verified'
    simp only at keyIds signers counts
    rw [keyIds, signers, counts]

end Trackward.Verifier.Bundle
