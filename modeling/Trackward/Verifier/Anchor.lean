import Trackward.Verifier.Bundle

/-!
# Offline verification of Merkle anchors

An anchor document is a signed manifest with a Merkle root and a leaf count.
The verifier checks digest and signature as for a bundle and recomputes the
root from the row hashes the caller supplies.

The leaf-count check closes the ambiguity of trees with duplicated nodes: a
document is accepted with one leaf list only, unless SHA-256 collides on what
is hashed.
-/

namespace Trackward.Verifier.Anchor

open Trackward.ChainCore.CanonicalJson
open Trackward.ChainCore.JsonValue
open Trackward.ChainCore.Merkle
open Trackward.Lib.Collisions
open Trackward.Lib.Octets
open Trackward.Verifier.Bundle

/-- What the verifier reports about an anchor. -/
structure VerifiedAnchor where
  scope : String
  leafCount : Nat
  rootHex : String
  keyId : String
  deriving DecidableEq

/-- The cast of a signed to an unsigned 64-bit integer. -/
def asUsize (value : Int) : Nat :=
  (value % 2 ^ 64).toNat

/-- An integer member of a document. -/
def fieldI64 (value : Value) (field : String) : Except Failure Int :=
  match (value.get field).bind Value.asI64 with
  | some number => .ok number
  | none => .error (.error (.missingField field))

/-- The root of the supplied leaves; without leaves the tree code panics. -/
def recomputeRoot (crates : Crates) (rowHashes : List Digest) :
    Except Failure String :=
  match computeRoot crates.sha256 rowHashes with
  | .ok root => .ok (crates.hexEncode root.bytes)
  | .error panic => .error (.panic panic)

/-- The checks of a leaf list against a manifest. -/
def checkLeaves
    (crates : Crates) (claimedCount : Int) (claimedRoot : String)
    (rowHashes : List Digest) : Except Failure String := do
  if asUsize claimedCount ≠ rowHashes.length then
    .error
      (.error
        (.leafCountMismatch (asUsize claimedCount) rowHashes.length))
  else if rowHashes = [] then
    .error (.error (.leafCountMismatch (asUsize claimedCount) 0))
  else
    let computedRoot ← recomputeRoot crates rowHashes
    if computedRoot = claimedRoot then .ok computedRoot
    else .error (.error (.rootMismatch claimedRoot computedRoot))

/-- Verify an anchor document against row hashes. -/
def verifyAnchor
    (crates : Crates) (docJson : String) (rowHashes : List Digest) :
    Except Failure VerifiedAnchor := do
  let doc ← parse crates docJson
  let manifestJson ← fieldStr doc.value "manifest_json"
  let manifestSha256 ← fieldStr doc.value "manifest_sha256"
  let signatureHex ← fieldStr doc.value "signature"
  let publicKeyHex ← fieldStr doc.value "public_key_hex"
  let keyId ← fieldStr doc.value "key_id"
  checkDigest crates manifestJson manifestSha256
  checkSignature crates manifestJson signatureHex publicKeyHex
  let manifest ← parse crates manifestJson
  let claimedRoot ← fieldStr manifest.value "root_hash"
  let claimedCount ← fieldI64 manifest.value "leaf_count"
  let scope ← fieldStr manifest.value "scope"
  let computedRoot ← checkLeaves crates claimedCount claimedRoot rowHashes
  return {
    scope := scope
    leafCount := rowHashes.length
    rootHex := computedRoot
    keyId := keyId }

/-! ## The leaf checks -/

/-- Leaves are accepted with the claimed count and the claimed root. -/
theorem checkLeaves_eq_ok_iff
    {crates : Crates} {claimedCount : Int} {claimedRoot rootHex : String}
    {rowHashes : List Digest} :
    checkLeaves crates claimedCount claimedRoot rowHashes = .ok rootHex ↔
      asUsize claimedCount = rowHashes.length ∧ rowHashes ≠ [] ∧
        rootHex = claimedRoot ∧
          ∃ root,
            computeRoot crates.sha256 rowHashes = .ok root ∧
              rootHex = crates.hexEncode root.bytes := by
  unfold checkLeaves
  by_cases counted : asUsize claimedCount = rowHashes.length
  · by_cases empty : rowHashes = []
    · simp [counted, empty]
    · simp only [counted, ne_eq, not_true_eq_false, if_false, empty,
        not_false_eq_true, true_and, recomputeRoot]
      cases computed : computeRoot crates.sha256 rowHashes with
      | error panic => simp [bind, Except.bind]
      | ok root =>
          by_cases same : crates.hexEncode root.bytes = claimedRoot
          · simp only [bind, Except.bind, same, if_true, Except.ok.injEq,
              exists_eq_left']
            constructor
            · rintro rfl
              exact ⟨rfl, rfl⟩
            · rintro ⟨rfl, _⟩
              rfl
          · simp only [bind, Except.bind, same, if_false, reduceCtorEq,
              false_iff, not_and, Except.ok.injEq, exists_eq_left']
            rintro rfl
            exact fun absurdity => same absurdity.symm
  · simp [counted]

/-- The verifier never reaches the panic of the tree code. -/
theorem checkLeaves_ne_panic
    {crates : Crates} {claimedCount : Int} {claimedRoot : String}
    {rowHashes : List Digest} {panic : Panic} :
    checkLeaves crates claimedCount claimedRoot rowHashes ≠
      .error (.panic panic) := by
  unfold checkLeaves
  split
  · simp
  · split
    · simp
    · rename_i nonempty
      have exists_root :
          ∃ root, computeRoot crates.sha256 rowHashes = .ok root :=
        (computeRoot_isOk_iff rowHashes).mpr nonempty
      rcases exists_root with ⟨root, computed⟩
      simp only [recomputeRoot, computed, bind, Except.bind]
      split <;> simp

/-! ## What an accepted anchor satisfies -/

/-- Where the reported values of an accepted anchor come from. -/
theorem verifyAnchor_eq_ok
    {crates : Crates} {docJson : String} {rowHashes : List Digest}
    {verified : VerifiedAnchor}
    (accepted : verifyAnchor crates docJson rowHashes = .ok verified) :
    documentField crates docJson "key_id" = .ok verified.keyId ∧
      verified.leafCount = rowHashes.length ∧
        ∃ manifestJson manifest claimedCount,
          documentField crates docJson "manifest_json" = .ok manifestJson ∧
            parse crates manifestJson = .ok manifest ∧
              fieldI64 manifest.value "leaf_count" = .ok claimedCount ∧
                fieldStr manifest.value "scope" = .ok verified.scope ∧
                  fieldStr manifest.value "root_hash" =
                      .ok verified.rootHex ∧
                    checkLeaves crates claimedCount verified.rootHex
                        rowHashes =
                      .ok verified.rootHex := by
  simp only [verifyAnchor, bind_eq_ok_iff] at accepted
  rcases accepted with
    ⟨doc, parsed, manifestJson, manifestField, manifestSha256, _,
      signatureHex, _, publicKeyHex, _, keyId, keyIdField, _, _, _, _,
      manifest, manifestParsed, claimedRoot, rootField, claimedCount,
      countField, scope, scopeField, computedRoot, leaves, reported⟩
  cases reported
  have roots := (checkLeaves_eq_ok_iff.mp leaves).2.2.1
  subst roots
  simp only [documentField_of_parse parsed]
  exact
    ⟨keyIdField, trivial, manifestJson, manifest, claimedCount, manifestField,
      manifestParsed, countField, scopeField, rootField, leaves⟩

/-- An accepted anchor was verified under its public key. -/
theorem exists_verifiedBy_of_anchor
    {crates : Crates} {docJson : String} {rowHashes : List Digest}
    {verified : VerifiedAnchor}
    (accepted : verifyAnchor crates docJson rowHashes = .ok verified) :
    ∃ publicKey, VerifiedBy crates docJson publicKey := by
  simp only [verifyAnchor, bind_eq_ok_iff] at accepted
  rcases accepted with
    ⟨doc, parsed, manifestJson, manifestField, _, _, signatureHex,
      signatureField, publicKeyHex, publicKeyField, _, _, _, _, _, checked,
      _⟩
  rw [← documentField_of_parse parsed]
    at manifestField signatureField publicKeyField
  exact
    verifiedBy_of_checkSignature manifestField signatureField publicKeyField
      checked

/-- Two anchors with one manifest differ in their reports only by the key id. -/
theorem verifiedAnchor_eq_iff
    {crates : Crates} {docJson docJson' : String}
    {rowHashes : List Digest} {verified verified' : VerifiedAnchor}
    (accepted : verifyAnchor crates docJson rowHashes = .ok verified)
    (accepted' : verifyAnchor crates docJson' rowHashes = .ok verified')
    (manifests :
      documentField crates docJson "manifest_json" =
        documentField crates docJson' "manifest_json") :
    verified = verified' ↔
      documentField crates docJson "key_id" =
        documentField crates docJson' "key_id" := by
  rcases verifyAnchor_eq_ok accepted with
    ⟨keyIdField, counted, manifestJson, manifest, _, manifestField, parsed,
      _, scopeField, rootField, _⟩
  rcases verifyAnchor_eq_ok accepted' with
    ⟨keyIdField', counted', manifestJson', manifest', _, manifestField',
      parsed', _, scopeField', rootField', _⟩
  rw [manifests, manifestField', Except.ok.injEq] at manifestField
  subst manifestField
  rw [parsed, Except.ok.injEq] at parsed'
  subst parsed'
  rw [scopeField, Except.ok.injEq] at scopeField'
  rw [rootField, Except.ok.injEq] at rootField'
  rw [keyIdField, keyIdField', Except.ok.injEq]
  constructor
  · rintro rfl
    rfl
  · intro keyIds
    cases verified
    cases verified'
    simp only at keyIds counted counted' scopeField' rootField'
    rw [keyIds, counted, counted', scopeField', rootField']

end Trackward.Verifier.Anchor
