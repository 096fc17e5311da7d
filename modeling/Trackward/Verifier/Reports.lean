import Trackward.Lib.Hexadecimal
import Trackward.Lib.Sha256
import Trackward.Verifier.Anchor

/-!
# What an accepted document tells

An accepted anchor document commits to one list of leaves.

The reports of the verifier are determined by the signed manifest and the
public key, except for the members `key_id` and `signed_by`, which it copies
from the unsigned part of the document.  The key id pinned by operators is the
digest of the public key; the verifier reports it only when the document
carries it.
-/

namespace Trackward.Verifier.Reports

open Trackward.ChainCore.CanonicalJson
open Trackward.ChainCore.JsonValue
open Trackward.ChainCore.Merkle
open Trackward.Lib
open Trackward.Lib.Collisions
open Trackward.Lib.Octets
open Trackward.Verifier.Anchor
open Trackward.Verifier.Bundle

/-! ## Crates that know some documents and signatures -/

/-- The message of a failed decoding. -/
def hexMessage : Hexadecimal.Fault → String
  | .oddLength => "Odd number of digits"
  | .invalidCharacter symbol index =>
      "Invalid character '" ++ symbol.toString ++ "' at position " ++
        toString index

/-- A signature a key has made. -/
structure Signed where
  publicKey : Block 32
  message : String
  signature : Block 64

/--
The crates on known documents, each with its text, and on known signatures:
other texts are not parsed, and other signatures are not accepted.
-/
def knowing (documents : List (String × Json)) (signatures : List Signed) :
    Crates where
  Key := Block 32
  sha256 := Sha256.sha256
  hexEncode := Hexadecimal.encode
  hexEncode_injective := Hexadecimal.encode_injective
  hexDecode := fun text =>
    match Hexadecimal.decode text with
    | .ok bytes => .ok bytes
    | .error fault => .error (hexMessage fault)
  parseJson := fun text =>
    match documents.find? fun document => document.1 = text with
    | some document => .ok document.2
    | none => .error "expected value at line 1 column 1"
  keyFromBytes := some
  verifies := fun key message signature =>
    signatures.any fun signed =>
      signed.publicKey = key ∧ utf8 signed.message = message ∧
        signed.signature = signature

/-- The block a hexadecimal text stands for, zero where it stands for none. -/
def blockOfHex (size : Nat) (text : String) : Block size :=
  match Hexadecimal.decode text with
  | .ok bytes => (Block.ofBytes? size bytes).getD (.replicate size 0)
  | .error _ => .replicate size 0

/-- The public key of the all-zero seed. -/
def publicKeyHex : String :=
  "3b6a27bcceb6a42d62a3a8d02a6f0d73653215771de243a63ac048a18b59da29"

/-- The SHA-256 of the public key. -/
def honestKeyId : String :=
  "139e3940e64b5491722088d9a0d741628fc826e09475d341a780acde3c4b8070"

/-! ## A signed anchor -/

/-- The row hashes under the anchor. -/
def anchoredLeaves : List Digest :=
  [.replicate 32 1, .replicate 32 2]

/-- The manifest over the two leaves. -/
def anchorManifest : String :=
  "\x7b\"leaf_count\":2,\"root_hash\":\"" ++
    "fb489cf304090b39f269458dd97d4903b6d63be6c014bb9554010c080792e36f" ++
      "\",\"scope\":\"global\"\x7d"

/-- The signature of the manifest. -/
def anchorSignature : String :=
  "7ab38f96fc587d6466647e3236d4093ab91b2acdd3ecd90a78ff44dc570b9e45" ++
    "95660037f4565f7d5809f318135ed673a417554f21ddbe1ce2c62c4ca5a3ae09"

/-- The parsed manifest. -/
def anchorManifestJson : Json where
  value :=
    .object
      [("leaf_count", .number (.integer 2 (by decide) (by decide))),
        ("root_hash", .string
          "fb489cf304090b39f269458dd97d4903b6d63be6c014bb9554010c080792e36f"),
        ("scope", .string "global")]
  wellFormed := by decide

/-- A document around the manifest that claims another key id. -/
def anchorText : String :=
  "\x7b\"key_id\":\"pinned-by-operators\"," ++
    "\"manifest_json\":\"\x7b\\\"leaf_count\\\":2," ++
    "\\\"root_hash\\\":\\\"" ++
    "fb489cf304090b39f269458dd97d4903b6d63be6c014bb9554010c080792e36f" ++
    "\\\",\\\"scope\\\":\\\"global\\\"\x7d\"," ++
    "\"manifest_sha256\":\"" ++
    "9868edb5d8cbeb41d155fafd261cf646dbf195cd3e2a0fad305e76ac7a7f00f0" ++
    "\",\"public_key_hex\":\"" ++ publicKeyHex ++
    "\",\"signature\":\"" ++ anchorSignature ++ "\"\x7d"

/-- The parsed document. -/
def anchorDocument : Json where
  value :=
    .object
      [("key_id", .string "pinned-by-operators"),
        ("manifest_json", .string anchorManifest),
        ("manifest_sha256", .string
          "9868edb5d8cbeb41d155fafd261cf646dbf195cd3e2a0fad305e76ac7a7f00f0"),
        ("public_key_hex", .string publicKeyHex),
        ("signature", .string anchorSignature)]
  wellFormed := by decide

/-- Crates that know the anchor document. -/
def anchorCrates : Crates :=
  knowing
    [(anchorManifest, anchorManifestJson), (anchorText, anchorDocument)]
    [{ publicKey := blockOfHex 32 publicKeyHex
       message := anchorManifest
       signature := blockOfHex 64 anchorSignature }]

/-- The verifier accepts the document and reports the claimed key id. -/
theorem anchorText_accepted :
    verifyAnchor anchorCrates anchorText anchoredLeaves =
      .ok
        { scope := "global"
          leafCount := 2
          rootHex :=
            "fb489cf304090b39f269458dd97d4903b6d63be6c014bb9554010c080792e36f"
          keyId := "pinned-by-operators" } := by
  have distinct : anchorManifest ≠ anchorText := by
    decide +kernel
  have parsed : parse anchorCrates anchorText = .ok anchorDocument := by
    simp [parse, anchorCrates, knowing, distinct]
  have manifestParsed :
      parse anchorCrates anchorManifest = .ok anchorManifestJson := by
    simp [parse, anchorCrates, knowing]
  have digest :
      checkDigest anchorCrates anchorManifest
          "9868edb5d8cbeb41d155fafd261cf646dbf195cd3e2a0fad305e76ac7a7f00f0" =
        .ok () := by
    decide +kernel
  have signature :
      checkSignature anchorCrates anchorManifest anchorSignature
          publicKeyHex =
        .ok () := by
    decide +kernel
  have leaves :
      checkLeaves anchorCrates 2
          "fb489cf304090b39f269458dd97d4903b6d63be6c014bb9554010c080792e36f"
          anchoredLeaves =
        .ok
          "fb489cf304090b39f269458dd97d4903b6d63be6c014bb9554010c080792e36f" := by
    decide +kernel
  simp only [verifyAnchor, bind_eq_ok_iff]
  refine
    ⟨anchorDocument, parsed, anchorManifest, ?_, _, ?_, anchorSignature, ?_,
      publicKeyHex, ?_, _, ?_, (), digest, (), signature,
      anchorManifestJson, manifestParsed, _, ?_, 2, ?_, _, ?_, _, leaves,
      rfl⟩
  all_goals
    simp [fieldStr, fieldI64, anchorDocument, anchorManifestJson, Value.get,
      Value.asStr, Value.asI64, Number.asI64]

/-! ## Anchors commit to their leaves -/

/-- What a document says about leaves does not depend on the leaves. -/
theorem leaf_checks_of_accepted
    {crates : Crates} {docJson : String}
    {rowHashes rowHashes' : List Digest} {verified verified' : VerifiedAnchor}
    (accepted : verifyAnchor crates docJson rowHashes = .ok verified)
    (accepted' : verifyAnchor crates docJson rowHashes' = .ok verified') :
    rowHashes.length = rowHashes'.length ∧
      ∃ root,
        computeRoot crates.sha256 rowHashes = .ok root ∧
          computeRoot crates.sha256 rowHashes' = .ok root := by
  rcases verifyAnchor_eq_ok accepted with
    ⟨_, _, manifestJson, manifest, claimedCount, manifestField, parsed,
      countField, _, rootField, leaves⟩
  rcases verifyAnchor_eq_ok accepted' with
    ⟨_, _, manifestJson', manifest', claimedCount', manifestField', parsed',
      countField', _, rootField', leaves'⟩
  rw [manifestField, Except.ok.injEq] at manifestField'
  subst manifestField'
  rw [parsed, Except.ok.injEq] at parsed'
  subst parsed'
  rw [countField, Except.ok.injEq] at countField'
  subst countField'
  rw [rootField, Except.ok.injEq] at rootField'
  rcases checkLeaves_eq_ok_iff.mp leaves with
    ⟨count, _, _, root, computed, hex⟩
  rcases checkLeaves_eq_ok_iff.mp leaves' with
    ⟨count', _, _, root', computed', hex'⟩
  have roots : root = root' := by
    apply Block.ext
    apply crates.hexEncode_injective
    rw [← hex, ← hex', rootField']
  subst roots
  exact ⟨count.symm.trans count', root, computed, computed'⟩

/--
An anchor document is accepted with one leaf list only, if no two strings that
were hashed for the two roots collide.
-/
theorem leaves_eq_of_accepted
    (crates : Crates) {docJson : String}
    {rowHashes rowHashes' : List Digest} {verified verified' : VerifiedAnchor}
    (accepted : verifyAnchor crates docJson rowHashes = .ok verified)
    (accepted' : verifyAnchor crates docJson rowHashes' = .ok verified')
    (free :
      CollisionFree crates.sha256
        (hashedInputs crates.sha256 rowHashes ++
          hashedInputs crates.sha256 rowHashes')) :
    rowHashes = rowHashes' := by
  rcases leaf_checks_of_accepted accepted accepted' with
    ⟨lengths, root, computed, computed'⟩
  exact
    computeRoot_inj lengths free
      (fun input member => List.mem_append_left _ member)
      (fun input member => List.mem_append_right _ member)
      computed computed'

/-- The signed anchor is accepted with its leaves, and nothing collides. -/
theorem leaves_eq_of_accepted_anchorText :
    anchoredLeaves = [.replicate 32 1, .replicate 32 2] :=
  leaves_eq_of_accepted anchorCrates anchorText_accepted anchorText_accepted
    (by decide +kernel)

/-! ## A signed bundle under two key ids -/

/-- The manifest of a bundle without evidence. -/
def bundleManifest : String :=
  "\x7b\"evidence\":[]\x7d"

/-- The parsed manifest. -/
def bundleManifestJson : Json where
  value := .object [("evidence", .array [])]
  wellFormed := by decide

/-- The digest of the manifest. -/
def bundleManifestSha256 : String :=
  "8f3f9c27d9b4cfc3cf603c15667240f02309ef53bc498bede4c4fb71c87a0267"

/-- The signature of the manifest. -/
def bundleSignature : String :=
  "dd4a5bc5324d99bd56e34c711e6d267d14ecd6b66af936f33f228e327e7388d9" ++
    "e20f24261cb4548f4e97b3e18535f63c2fff1e381efeda706bcdeab6ea091f0a"

/-- A bundle around the signed manifest, with a key id of choice. -/
def bundleText (claimedKeyId : String) : String :=
  "\x7b\"key_id\":\"" ++ claimedKeyId ++
    "\",\"manifest_json\":\"\x7b\\\"evidence\\\":[]\x7d" ++
    "\",\"manifest_sha256\":\"" ++ bundleManifestSha256 ++
    "\",\"public_key_hex\":\"" ++ publicKeyHex ++
    "\",\"signature\":\"" ++ bundleSignature ++
    "\",\"signed_by\":\"ray\"\x7d"

/-- The bundle as the ledger exports it. -/
def honestBundle : String :=
  bundleText honestKeyId

/-- The bundle with the key id replaced. -/
def forgedBundle : String :=
  bundleText "pinned-by-operators"

/-- The parsed bundle with a key id of choice. -/
def bundleDocument (claimedKeyId : String) : Json where
  value :=
    .object
      [("key_id", .string claimedKeyId),
        ("manifest_json", .string bundleManifest),
        ("manifest_sha256", .string bundleManifestSha256),
        ("public_key_hex", .string publicKeyHex),
        ("signature", .string bundleSignature),
        ("signed_by", .string "ray")]
  wellFormed := by
    simp [Value.WellFormed, Value.nested, Value.nestedMembers,
      Value.distinctKeys]

/-- Crates that know the two bundles. -/
def bundleCrates : Crates :=
  knowing
    [(bundleManifest, bundleManifestJson),
      (honestBundle, bundleDocument honestKeyId),
      (forgedBundle, bundleDocument "pinned-by-operators")]
    [{ publicKey := blockOfHex 32 publicKeyHex
       message := bundleManifest
       signature := blockOfHex 64 bundleSignature }]

/-- A bundle around the signed manifest is accepted whatever its key id. -/
theorem bundle_accepted
    {text claimedKeyId : String}
    (parsed : parse bundleCrates text = .ok (bundleDocument claimedKeyId)) :
    verifyBundle bundleCrates text =
      .ok
        { signedBy := "ray"
          evidenceCount := 0
          keyId := claimedKeyId } := by
  have manifestParsed :
      parse bundleCrates bundleManifest = .ok bundleManifestJson := by
    simp [parse, bundleCrates, knowing]
  have digest :
      checkDigest bundleCrates bundleManifest bundleManifestSha256 =
        .ok () := by
    decide +kernel
  have signature :
      checkSignature bundleCrates bundleManifest bundleSignature
          publicKeyHex =
        .ok () := by
    decide +kernel
  simp only [verifyBundle, bind_eq_ok_iff]
  refine
    ⟨bundleDocument claimedKeyId, parsed, bundleManifest, ?_,
      bundleManifestSha256, ?_, bundleSignature, ?_, publicKeyHex, ?_,
      claimedKeyId, ?_, "ray", ?_, (), digest, (), signature,
      bundleManifestJson, manifestParsed, rfl⟩
  all_goals simp [fieldStr, bundleDocument, Value.get, Value.asStr]

theorem parse_honestBundle :
    parse bundleCrates honestBundle = .ok (bundleDocument honestKeyId) := by
  have distinct : bundleManifest ≠ honestBundle := by
    decide +kernel
  simp [parse, bundleCrates, knowing, distinct]

theorem parse_forgedBundle :
    parse bundleCrates forgedBundle =
      .ok (bundleDocument "pinned-by-operators") := by
  have distinct : bundleManifest ≠ forgedBundle := by
    decide +kernel
  have distinct' : honestBundle ≠ forgedBundle := by
    decide +kernel
  simp [parse, bundleCrates, knowing, distinct, distinct']

/-- The members of the parsed bundles that the signature check covers. -/
theorem bundle_signed_members {text claimedKeyId : String}
    (parsed : parse bundleCrates text = .ok (bundleDocument claimedKeyId)) :
    documentField bundleCrates text "manifest_json" = .ok bundleManifest ∧
      documentField bundleCrates text "public_key_hex" =
        .ok publicKeyHex := by
  simp [documentField_of_parse parsed, fieldStr, bundleDocument, Value.get,
    Value.asStr]

/-! ## Which reports are authentic -/

/--
The report on a bundle is fixed by its manifest and public key up to the
members `key_id` and `signed_by`, and the report on an anchor up to `key_id`;
the reported key id is that of the verifying key exactly when the document
carries it.
-/
theorem report_authentic_iff (crates : Crates) :
    (∀ json json' verified verified',
      verifyBundle crates json = .ok verified →
        verifyBundle crates json' = .ok verified' →
          documentField crates json "manifest_json" =
              documentField crates json' "manifest_json" →
            documentField crates json "public_key_hex" =
                documentField crates json' "public_key_hex" →
              (verified = verified' ↔
                documentField crates json "key_id" =
                    documentField crates json' "key_id" ∧
                  documentField crates json "signed_by" =
                    documentField crates json' "signed_by")) ∧
    (∀ json verified,
      verifyBundle crates json = .ok verified →
        ∃ publicKey,
          VerifiedBy crates json publicKey ∧
            (verified.keyId = fingerprint crates publicKey ↔
              documentField crates json "key_id" =
                .ok (fingerprint crates publicKey))) ∧
    (∀ docJson docJson' rowHashes verified verified',
      verifyAnchor crates docJson rowHashes = .ok verified →
        verifyAnchor crates docJson' rowHashes = .ok verified' →
          documentField crates docJson "manifest_json" =
              documentField crates docJson' "manifest_json" →
            documentField crates docJson "public_key_hex" =
                documentField crates docJson' "public_key_hex" →
              (verified = verified' ↔
                documentField crates docJson "key_id" =
                  documentField crates docJson' "key_id")) ∧
    (∀ docJson rowHashes verified,
      verifyAnchor crates docJson rowHashes = .ok verified →
        ∃ publicKey,
          VerifiedBy crates docJson publicKey ∧
            (verified.keyId = fingerprint crates publicKey ↔
              documentField crates docJson "key_id" =
                .ok (fingerprint crates publicKey))) := by
  refine ⟨?_, ?_, ?_, ?_⟩
  · intro json json' verified verified' accepted accepted' manifests _
    exact verified_eq_iff accepted accepted' manifests
  · intro json verified accepted
    rcases exists_verifiedBy_of_bundle accepted with ⟨publicKey, verifiedBy⟩
    refine ⟨publicKey, verifiedBy, ?_⟩
    rw [(verifyBundle_eq_ok accepted).1, Except.ok.injEq]
  · intro docJson docJson' rowHashes verified verified' accepted accepted'
      manifests _
    exact verifiedAnchor_eq_iff accepted accepted' manifests
  · intro docJson rowHashes verified accepted
    rcases exists_verifiedBy_of_anchor accepted with ⟨publicKey, verifiedBy⟩
    refine ⟨publicKey, verifiedBy, ?_⟩
    rw [(verifyAnchor_eq_ok accepted).1, Except.ok.injEq]

/-- The honest and the forged bundle are told apart by their key ids. -/
theorem report_authentic_iff_bundles :
    ({ signedBy := "ray", evidenceCount := 0, keyId := honestKeyId } :
        Verified) =
      { signedBy := "ray", evidenceCount := 0,
        keyId := "pinned-by-operators" } ↔
      documentField bundleCrates honestBundle "key_id" =
          documentField bundleCrates forgedBundle "key_id" ∧
        documentField bundleCrates honestBundle "signed_by" =
          documentField bundleCrates forgedBundle "signed_by" := by
  have honest := bundle_signed_members parse_honestBundle
  have forged := bundle_signed_members parse_forgedBundle
  exact
    (report_authentic_iff bundleCrates).1 honestBundle forgedBundle _ _
      (bundle_accepted parse_honestBundle)
      (bundle_accepted parse_forgedBundle)
      (honest.1.trans forged.1.symm) (honest.2.trans forged.2.symm)

/--
Two accepted bundles with one manifest and one public key are reported under
different key ids, one of which is not that of the public key.
-/
theorem forgedBundle_reports_pinned_keyId :
    verifyBundle bundleCrates honestBundle =
        .ok
          { signedBy := "ray", evidenceCount := 0, keyId := honestKeyId } ∧
      verifyBundle bundleCrates forgedBundle =
          .ok
            { signedBy := "ray", evidenceCount := 0,
              keyId := "pinned-by-operators" } ∧
        documentField bundleCrates honestBundle "manifest_json" =
            documentField bundleCrates forgedBundle "manifest_json" ∧
          documentField bundleCrates honestBundle "public_key_hex" =
              documentField bundleCrates forgedBundle "public_key_hex" ∧
            fingerprint bundleCrates (blockOfHex 32 publicKeyHex) =
                honestKeyId ∧
              "pinned-by-operators" ≠ honestKeyId := by
  have honest := bundle_signed_members parse_honestBundle
  have forged := bundle_signed_members parse_forgedBundle
  exact
    ⟨bundle_accepted parse_honestBundle, bundle_accepted parse_forgedBundle,
      honest.1.trans forged.1.symm, honest.2.trans forged.2.symm,
      by decide +kernel, by decide⟩

end Trackward.Verifier.Reports
