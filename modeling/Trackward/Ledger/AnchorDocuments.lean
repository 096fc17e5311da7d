import Trackward.ChainCore.JsonReader
import Trackward.ChainCore.PlainTexts
import Trackward.Ledger.AnchorWindows
import Trackward.Verifier.Reports

/-!
# Anchor documents, from the ledger to the verifier

The ledger writes the manifest of an anchor by a template, wraps it into a
document and ships that to the sink; the verifier parses both with a JSON
parser and looks their members up.  The two sides share no code but the hash
tree.

The template writes the canonical text of the manifest's members, since none of
the texts it splices in needs an escape.  So every document a tick ships is
accepted with the leaves the tick collected, and reported as its row has it.
-/

namespace Trackward.Ledger.AnchorDocuments

open Trackward.ChainCore.CanonicalJson
open Trackward.ChainCore.Chrono
open Trackward.ChainCore.Encode
open Trackward.ChainCore.JsonReader
open Trackward.ChainCore.JsonValue
open Trackward.ChainCore.Merkle
open Trackward.ChainCore.PlainTexts
open Trackward.Ledger.AnchorWindows
open Trackward.Ledger.Anchoring
open Trackward.Ledger.Chain
open Trackward.Ledger.Concurrency
open Trackward.Ledger.Models
open Trackward.Ledger.Routes
open Trackward.Ledger.Timestamps
open Trackward.Lib
open Trackward.Lib.KeyedLists
open Trackward.Lib.Octets
open Trackward.Lib.PrefixCodes
open Trackward.Lib.Programs
open Trackward.Lib.Transactions
open Trackward.Verifier.Anchor
open Trackward.Verifier.Bundle
open Trackward.Verifier.Reports

/-! ## The manifest -/

/-- A signed integer of 64 bits as a value. -/
def signedValue (value : Int64) : Value :=
  .number
    (.integer value.toInt value.le_toInt
      (lt_of_lt_of_le value.toInt_lt (by decide)))

/-- The members a manifest stands for. -/
def manifestMembers (chrono : Formatter) (manifest : AnchorManifest) :
    List Member :=
  [("anchored_at", .string (chrono.toRfc3339Micros manifest.anchoredAt)),
    ("anchored_from", .string (chrono.toRfc3339Micros manifest.anchoredFrom)),
    ("anchored_to", .string (chrono.toRfc3339Micros manifest.anchoredTo)),
    ("leaf_count", signedValue manifest.leafCount),
    ("root_hash", .string (Hexadecimal.encode manifest.rootHash.bytes)),
    ("scope", .string manifest.scope),
    ("version", .string manifest.version)]

/-- The decimal text of a 64-bit integer. -/
theorem toList_toString_int64 (value : Int64) :
    (toString value).toList = decimal value.toInt := by
  show (Int.repr value.toInt).toList = decimal value.toInt
  cases value.toInt with
  | ofNat natural =>
      rw [decimal, if_neg (by simp)]
      exact String.toList_ofList
  | negSucc natural =>
      rw [decimal, if_pos (Int.negSucc_lt_zero natural)]
      show ("-" ++ Nat.repr (natural + 1)).toList = _
      rw [String.toList_append]
      exact congrArg ('-' :: ·) String.toList_ofList

theorem memberText_plain {text : String} (plain : Plain text)
    (key : String) :
    memberText (key, .string text) =
      .ok (writeMember key ('"' :: text.toList ++ ['"'])) := by
  rw [← writeString_of_plain plain]
  rfl

theorem memberText_signed (key : String) (value : Int64) :
    memberText (key, signedValue value) =
      .ok (writeMember key (decimal value.toInt)) := by
  rw [memberText, signedValue, writeValue_integer]
  rfl

/-- The members of a manifest are listed in the order of their keys. -/
theorem sortByKey_manifestMembers
    (chrono : Formatter) (manifest : AnchorManifest) :
    sortByKey Prod.fst (manifestMembers chrono manifest) =
      manifestMembers chrono manifest := by
  have keys :
      (manifestMembers chrono manifest).map Prod.fst =
        ["anchored_at", "anchored_from", "anchored_to", "leaf_count",
          "root_hash", "scope", "version"] := rfl
  apply sortByKey_eq_of_strict (List.Perm.refl _)
  apply List.pairwise_map.mp
  rw [keys]
  decide

/-- The texts of the members of a manifest. -/
theorem writeAll_manifestMembers
    {chrono : Formatter} {manifest : AnchorManifest}
    (timestamps : ∀ time, Plain (chrono.toRfc3339Micros time))
    (scope : Plain manifest.scope) (version : Plain manifest.version) :
    writeAll ((manifestMembers chrono manifest).map memberText) =
      .ok
        [writeMember "anchored_at"
            ('"' :: (chrono.toRfc3339Micros manifest.anchoredAt).toList ++
              ['"']),
          writeMember "anchored_from"
            ('"' :: (chrono.toRfc3339Micros manifest.anchoredFrom).toList ++
              ['"']),
          writeMember "anchored_to"
            ('"' :: (chrono.toRfc3339Micros manifest.anchoredTo).toList ++
              ['"']),
          writeMember "leaf_count" (decimal manifest.leafCount.toInt),
          writeMember "root_hash"
            ('"' :: (Hexadecimal.encode manifest.rootHash.bytes).toList ++
              ['"']),
          writeMember "scope" ('"' :: manifest.scope.toList ++ ['"']),
          writeMember "version" ('"' :: manifest.version.toList ++ ['"'])] := by
  rw [writeAll_map_eq_ok_iff, manifestMembers]
  refine
    .cons (memberText_plain (timestamps _) _)
      (.cons (memberText_plain (timestamps _) _)
        (.cons (memberText_plain (timestamps _) _)
          (.cons (memberText_signed _ _)
            (.cons (memberText_plain (plain_encode _) _)
              (.cons (memberText_plain scope _)
                (.cons (memberText_plain version _) .nil))))))

/-- The template of a manifest is the canonical text of its members. -/
theorem toCanonicalString_manifestMembers
    {chrono : Formatter} {manifest : AnchorManifest}
    (timestamps : ∀ time, Plain (chrono.toRfc3339Micros time))
    (scope : Plain manifest.scope) (version : Plain manifest.version) :
    toCanonicalString (.object (manifestMembers chrono manifest)) =
      .ok (manifest.canonicalJson chrono) := by
  rw [toCanonicalString, writeValue_object, sortByKey_manifestMembers,
    writeAll_manifestMembers timestamps scope version]
  unfold AnchorManifest.canonicalJson
  simp only [Functor.map, Except.map, Except.ok.injEq, ← String.toList_inj,
    String.toList_ofList, String.toList_append, toList_toString_int64]
  simp [writeMember, writeString, escape, separated]

/-! ## The crates both sides rely on -/

/--
The JSON crate on objects of texts and integers: what it serialises parses to
the same value, and so does a canonical text.
-/
structure JsonCrate
    (toVec : Value → Bytes) (parseJson : String → Except String Json) :
    Prop where
  writes :
    ∀ value : Value, Flat value → value.WellFormed →
      ∃ text json,
        utf8 text = toVec value ∧ parseJson text = .ok json ∧
          json.value.Same value
  reads :
    ∀ (value : Value) (text : String), Flat value → value.WellFormed →
      toCanonicalString value = .ok text →
        ∃ json, parseJson text = .ok json ∧ json.value.Same value

/-- The ledger and the verifier are built with the same crates. -/
structure SameCrates (runtime : Runtime) (crates : Crates) : Prop where
  sha256 : crates.sha256 = runtime.sha256
  hexEncode : crates.hexEncode = Hexadecimal.encode
  hexDecode : ∀ bytes, crates.hexDecode (crates.hexEncode bytes) = .ok bytes
  timestamps : ∀ time, Plain (runtime.chrono.toRfc3339Micros time)
  json : JsonCrate runtime.jsonToVec crates.parseJson

/-- The crates for digests and hexadecimal texts among them. -/
structure SameDigests (runtime : Runtime) (crates : Crates) : Prop where
  sha256 : crates.sha256 = runtime.sha256
  hexEncode : crates.hexEncode = Hexadecimal.encode
  hexDecode : ∀ bytes, crates.hexDecode (crates.hexEncode bytes) = .ok bytes

theorem SameCrates.digests {runtime : Runtime} {crates : Crates}
    (same : SameCrates runtime crates) : SameDigests runtime crates :=
  ⟨same.sha256, same.hexEncode, same.hexDecode⟩

/-- An ed25519 key: its public half, and what it signs. -/
structure SigningKey where
  verifyingKey : Block 32
  sign : Bytes → Block 64

/-- `SigningService::load`, once the key is read or generated. -/
def load (runtime : Runtime) (signingKey : SigningKey) : SigningService where
  sign := signingKey.sign
  keyId := sha256Hex runtime signingKey.verifyingKey.bytes
  publicKeyHex := Hexadecimal.encode signingKey.verifyingKey.bytes

/-- The verifier recognises the public half and accepts what the key signs. -/
def Accepts (crates : Crates) (signingKey : SigningKey) : Prop :=
  ∃ key,
    crates.keyFromBytes signingKey.verifyingKey = some key ∧
      ∀ message, crates.verifies key message (signingKey.sign message) = true

/-! ## Members the verifier looks up -/

theorem fieldStr_of_same {json : Json} {members : List Member}
    {key text : String} (same : json.value.Same (.object members))
    (listed : (key, .string text) ∈ members) :
    fieldStr json.value key = .ok text := by
  rcases Value.exists_get_of_same json.wellFormed same listed with
    ⟨found, lookup, foundSame⟩
  cases foundSame
  rw [fieldStr, lookup]
  rfl

theorem fieldI64_of_same {json : Json} {members : List Member}
    {key : String} {value : Int64}
    (same : json.value.Same (.object members))
    (listed : (key, signedValue value) ∈ members) :
    fieldI64 json.value key = .ok value.toInt := by
  rcases Value.exists_get_of_same json.wellFormed same listed with
    ⟨found, lookup, foundSame⟩
  cases foundSame
  have small : value.toInt < 2 ^ 63 := value.toInt_lt
  simp only [fieldI64, lookup, Option.bind_some, Value.asI64, Number.asI64,
    if_pos small]

theorem toArray_bytes {size : Nat} (message : String) (block : Block size) :
    toArray size message block.bytes = .ok block := by
  rw [toArray, Block.ofBytes?_eq_some_iff.mpr rfl]

/-- The signature of the ledger passes under the key it publishes. -/
theorem checkSignature_of_accepts
    {runtime : Runtime} {crates : Crates} {signingKey : SigningKey}
    (same : SameDigests runtime crates)
    (accepts : Accepts crates signingKey) (manifestJson : String) :
    checkSignature crates manifestJson
        (Hexadecimal.encode
          ((load runtime signingKey).sign (utf8 manifestJson)).bytes)
        (load runtime signingKey).publicKeyHex =
      .ok () := by
  rcases accepts with ⟨key, recognised, accepted⟩
  have decoded := same.hexDecode
  rw [same.hexEncode] at decoded
  simp only [load, checkSignature, decodeHex, decoded, toArray_bytes,
    recognised, accepted, bind, Except.bind, if_true]

theorem checkDigest_of_sameDigests
    {runtime : Runtime} {crates : Crates} (same : SameDigests runtime crates)
    (manifestJson : String) :
    checkDigest crates manifestJson
        (sha256Hex runtime (utf8 manifestJson)) =
      .ok () := by
  rw [checkDigest, same.hexEncode, same.sha256, if_pos]
  rfl

/-- The leaves a manifest counts, under the root it names, pass. -/
theorem checkLeaves_of_root
    {runtime : Runtime} {crates : Crates} (same : SameCrates runtime crates)
    {leaves : List Digest} {root : Digest}
    (nonempty : leaves ≠ []) (few : leaves.length < 2 ^ 63)
    (computed : computeRoot runtime.sha256 leaves = .ok root) :
    checkLeaves crates (Int64.ofNat leaves.length).toInt
        (Hexadecimal.encode root.bytes) leaves =
      .ok (Hexadecimal.encode root.bytes) := by
  have counted : (Int64.ofNat leaves.length).toInt = leaves.length :=
    Int64.toInt_ofNat_of_lt few
  rw [checkLeaves_eq_ok_iff, counted, same.sha256, same.hexEncode]
  refine ⟨?_, nonempty, rfl, root, computed, rfl⟩
  rw [asUsize]
  omega

/-! ## The document -/

/-- The manifest of a tick over leaves with this root. -/
def manifestOf
    (tick : Tick) (lower : DateTime) (leaves : List Digest) (root : Digest) :
    AnchorManifest where
  version := "trackward-anchor-v1"
  scope := tick.scope.scopeStr
  anchoredFrom := lower
  anchoredTo := tick.untilTs
  leafCount := Int64.ofNat leaves.length
  rootHash := root
  anchoredAt := tick.anchoredAt

theorem plain_scopeStr (scope : AnchorScope) : Plain scope.scopeStr := by
  cases scope with
  | global => decide
  | run id => exact plain_append (by decide) (plain_uuidText id)

theorem wellFormed_of_flat {members : List Member}
    (flat : Flat (.object members))
    (distinct : (members.map Prod.fst).Nodup) :
    (Value.object members).WellFormed := by
  rw [Value.wellFormed_object_iff]
  refine ⟨distinct, fun member listed => ?_⟩
  have scalar := flat member listed
  rcases member with ⟨key, value⟩
  cases value with
  | string text => simp [Value.WellFormed, Value.nested, Value.distinctKeys]
  | number number =>
      simp [Value.WellFormed, Value.nested, Value.distinctKeys]
  | _ => exact scalar.elim

theorem flat_manifestMembers
    (chrono : Formatter) (manifest : AnchorManifest) :
    Flat (.object (manifestMembers chrono manifest)) := by
  intro member listed
  simp only [manifestMembers, List.mem_cons, List.not_mem_nil, or_false]
    at listed
  rcases listed with rfl | rfl | rfl | rfl | rfl | rfl | rfl <;> trivial

theorem flat_anchorDoc
    (runtime : Runtime) (signing : SigningService) (manifestJson : String) :
    Flat (anchorDoc runtime signing manifestJson) := by
  intro member listed
  simp only [List.mem_cons, List.not_mem_nil, or_false] at listed
  rcases listed with rfl | rfl | rfl | rfl | rfl <;> trivial

/-- The manifest of a tick parses to its members. -/
theorem parse_manifest
    {runtime : Runtime} {crates : Crates} (same : SameCrates runtime crates)
    {manifest : AnchorManifest} (scope : Plain manifest.scope)
    (version : Plain manifest.version) :
    ∃ json,
      parse crates (manifest.canonicalJson runtime.chrono) = .ok json ∧
        fieldStr json.value "root_hash" =
            .ok (Hexadecimal.encode manifest.rootHash.bytes) ∧
          fieldI64 json.value "leaf_count" = .ok manifest.leafCount.toInt ∧
            fieldStr json.value "scope" = .ok manifest.scope := by
  have flat := flat_manifestMembers runtime.chrono manifest
  have formed := wellFormed_of_flat flat (by simp [manifestMembers])
  have text :=
    toCanonicalString_manifestMembers same.timestamps scope version
  rcases same.json.reads _ _ flat formed text with ⟨json, parsed, members⟩
  refine ⟨json, by rw [parse, parsed], ?_, ?_, ?_⟩
  · exact fieldStr_of_same members (by simp [manifestMembers])
  · exact fieldI64_of_same members (by simp [manifestMembers])
  · exact fieldStr_of_same members (by simp [manifestMembers])

/-- The document around a manifest parses to its members. -/
theorem parse_document
    {runtime : Runtime} {crates : Crates} (same : SameCrates runtime crates)
    (signing : SigningService) (manifestJson : String) :
    ∃ docJson json,
      utf8 docJson =
          runtime.jsonToVec (anchorDoc runtime signing manifestJson) ∧
        parse crates docJson = .ok json ∧
          fieldStr json.value "manifest_json" = .ok manifestJson ∧
            fieldStr json.value "manifest_sha256" =
                .ok (sha256Hex runtime (utf8 manifestJson)) ∧
              fieldStr json.value "signature" =
                  .ok
                    (Hexadecimal.encode
                      (signing.sign (utf8 manifestJson)).bytes) ∧
                fieldStr json.value "public_key_hex" =
                    .ok signing.publicKeyHex ∧
                  fieldStr json.value "key_id" = .ok signing.keyId := by
  have flat := flat_anchorDoc runtime signing manifestJson
  have formed := wellFormed_of_flat flat (by simp)
  rcases same.json.writes _ flat formed with
    ⟨docJson, json, bytes, parsed, members⟩
  refine ⟨docJson, json, bytes, by rw [parse, parsed], ?_, ?_, ?_, ?_, ?_⟩
  · exact fieldStr_of_same members (by simp)
  · exact fieldStr_of_same members (by simp)
  · exact fieldStr_of_same members (by simp)
  · exact fieldStr_of_same members (by simp)
  · exact fieldStr_of_same members (by simp)

/-- The document over a tick's leaves is accepted with these leaves. -/
theorem verifyAnchor_anchorDoc
    {runtime : Runtime} {crates : Crates} {signingKey : SigningKey}
    (same : SameCrates runtime crates) (accepts : Accepts crates signingKey)
    (tick : Tick) (lower : DateTime) {leaves : List Digest} {root : Digest}
    (nonempty : leaves ≠ []) (few : leaves.length < 2 ^ 63)
    (computed : computeRoot runtime.sha256 leaves = .ok root) :
    ∃ docJson,
      utf8 docJson =
          runtime.jsonToVec
            (anchorDoc runtime (load runtime signingKey)
              ((manifestOf tick lower leaves root).canonicalJson
                runtime.chrono)) ∧
        verifyAnchor crates docJson leaves =
          .ok
            { scope := tick.scope.scopeStr
              leafCount := leaves.length
              rootHex := Hexadecimal.encode root.bytes
              keyId := (load runtime signingKey).keyId } := by
  have version : Plain (manifestOf tick lower leaves root).version := by
    show Plain "trackward-anchor-v1"
    decide
  rcases parse_manifest same (plain_scopeStr tick.scope) version with
    ⟨manifest, manifestParsed, rootHash, leafCount, scope⟩
  generalize (manifestOf tick lower leaves root).canonicalJson
    runtime.chrono = manifestJson at manifestParsed ⊢
  rcases parse_document same (load runtime signingKey) manifestJson with
    ⟨docJson, doc, bytes, docParsed, manifestField, sha256, signature,
      publicKeyHex, keyId⟩
  have leavesPass := checkLeaves_of_root same nonempty few computed
  refine ⟨docJson, bytes, ?_⟩
  simp only [verifyAnchor, docParsed, manifestField, sha256, signature,
    publicKeyHex, keyId, checkDigest_of_sameDigests same.digests,
    checkSignature_of_accepts same.digests accepts, manifestParsed, rootHash,
    leafCount, scope, bind, Except.bind]
  rw [show (manifestOf tick lower leaves root).rootHash = root from rfl]
  rw [show (manifestOf tick lower leaves root).leafCount =
    Int64.ofNat leaves.length from rfl, leavesPass]
  rfl

/-! ## What a tick ships -/

/-- The scope a row of the anchors table stands for. -/
def scopeOf : Option Uuid → AnchorScope
  | none => .global
  | some id => .run id

theorem scopeOf_runFilter (scope : AnchorScope) :
    scopeOf scope.runFilter = scope := by
  cases scope <;> rfl

/-- The verifier reports an anchor as its row has it. -/
structure Reports (verified : VerifiedAnchor) (anchor : Anchor) : Prop where
  scope : verified.scope = (scopeOf anchor.runId).scopeStr
  leafCount : (verified.leafCount : Int) = anchor.leafCount.toInt
  rootHex : verified.rootHex = Hexadecimal.encode anchor.rootHash
  keyId : verified.keyId = anchor.keyId

/-- The leaves a tick with these calls and answers collected. -/
def CollectedBy
    (tick : Tick) (events : List (Program.Event ledgerDb))
    (leaves : List ChainedRow × List Digest) : Prop :=
  ∃ seen read rest,
    events = ⟨.select, Except.ok seen⟩ :: (read ++ rest) ∧
      (collectLeaves tick.scope (anchorWindowStart tick.scope seen)
          tick.untilTs).Executes read (.ok leaves)

/-- A tick collects one list of leaves. -/
theorem CollectedBy.unique
    {tick : Tick} {events : List (Program.Event ledgerDb)}
    {leaves leaves' : List ChainedRow × List Digest}
    (collected : CollectedBy tick events leaves)
    (collected' : CollectedBy tick events leaves') : leaves = leaves' := by
  rcases collected with ⟨seen, read, rest, rfl, ran⟩
  rcases collected' with ⟨seen', read', rest', same, ran'⟩
  rcases List.cons.inj same with ⟨first, later⟩
  cases first
  rcases Program.executes_append_inj ran ran' later with ⟨_, _, outcomes⟩
  cases outcomes
  rfl

/-- The bytes verify with the leaves and are reported as the rows inserted. -/
def VerifiesOffline
    (crates : Crates) (events : List (Program.Event ledgerDb))
    (bytes : Bytes) (leaves : List ChainedRow × List Digest) : Prop :=
  ∃ docJson verified,
    utf8 docJson = bytes ∧
      verifyAnchor crates docJson leaves.2 = .ok verified ∧
        ∀ event ∈ events, ∀ anchor rows,
          event.op = .publish (.anchor anchor rows) →
            rows = leaves.1 ∧ Reports verified anchor

/-- The document a tick ships and the receipt it inserts. -/
def Mints
    (runtime : Runtime) (signing : SigningService) (tick : Tick)
    (lower : DateTime) (leaves : List ChainedRow × List Digest)
    (root : Digest) : Op Int64 Row Effect → Prop
  | .emit effect =>
      ∃ key,
        effect =
          .document key
            (runtime.jsonToVec
              (anchorDoc runtime signing
                ((manifestOf tick lower leaves.2 root).canonicalJson
                  runtime.chrono)))
  | .publish row =>
      ∃ anchor target,
        row = .anchor anchor leaves.1 ∧
          receipt signing tick (manifestOf tick lower leaves.2 root)
              (signing.sign
                (utf8
                  ((manifestOf tick lower leaves.2 root).canonicalJson
                    runtime.chrono)))
              target =
            .ok anchor
  | _ => False

/-- The statements a tick makes once it has collected leaves. -/
def Ships
    (runtime : Runtime) (signing : SigningService) (tick : Tick)
    (lower : DateTime) (leaves : List ChainedRow × List Digest)
    (root : Digest) : Op Int64 Row Effect → Prop
  | .emit effect =>
      ∃ key,
        effect =
          .document key
            (runtime.jsonToVec
              (anchorDoc runtime signing
                ((manifestOf tick lower leaves.2 root).canonicalJson
                  runtime.chrono)))
  | .publish row =>
      ∃ anchor,
        row = .anchor anchor leaves.1 ∧
          anchor.runId = tick.scope.runFilter ∧
            anchor.leafCount = Int64.ofNat leaves.2.length ∧
              anchor.rootHash = root.bytes ∧ anchor.keyId = signing.keyId
  | _ => False

theorem onlyCalls_liftExcept_bind {allowed : Op Int64 Row Effect → Prop}
    {α β : Type} {result : Except Exit α} {next : α → Handler β}
    (later : ∀ value, result = .ok value → (next value).OnlyCalls allowed) :
    (liftExcept result >>= next).OnlyCalls allowed := by
  cases result with
  | error exit => trivial
  | ok value => exact later value rfl

theorem onlyCalls_put {allowed : Op Int64 Row Effect → Prop}
    {key : String} {bytes : Bytes}
    (permitted : allowed (.emit (.document key bytes)))
    (sink : AnchorSink) : (sink.put key bytes).OnlyCalls allowed := by
  cases sink with
  | noop => trivial
  | s3 bucket =>
      exact Program.onlyCalls_bind (onlyCalls_attempt permitted) fun _ =>
        trivial
  | memory =>
      exact Program.onlyCalls_bind (onlyCalls_attempt permitted) fun _ =>
        trivial

theorem keyId_of_receipt
    {signing : SigningService} {tick : Tick} {manifest : AnchorManifest}
    {signature : Block 64} {target : String} {anchor : Anchor}
    (made : receipt signing tick manifest signature target = .ok anchor) :
    anchor.keyId = signing.keyId := by
  rcases Routes.bind_eq_ok_iff.mp made with ⟨_, _, rest⟩
  rcases Routes.bind_eq_ok_iff.mp rest with ⟨_, _, rest⟩
  rcases Routes.bind_eq_ok_iff.mp rest with ⟨_, _, ⟨⟩⟩
  rfl

/-- Whatever the sink, a tick ships its document and inserts its row. -/
theorem onlyCalls_mintAnchor
    {runtime : Runtime} {signing : SigningService} {sink : AnchorSink}
    {tick : Tick} {lower : DateTime} {leaves : List ChainedRow × List Digest}
    {root : Digest}
    (computed : computeRoot runtime.sha256 leaves.2 = .ok root) :
    (mintAnchor runtime signing sink tick lower leaves).OnlyCalls
      (Mints runtime signing tick lower leaves root) := by
  have lifted : rootOf runtime leaves.2 = .ok root := by
    rw [rootOf, computed]
  refine onlyCalls_liftExcept_bind fun root' lifted' => ?_
  rw [lifted, Except.ok.injEq] at lifted'
  subst lifted'
  refine Program.onlyCalls_bind (onlyCalls_put ⟨_, rfl⟩ sink) fun target => ?_
  refine onlyCalls_liftExcept_bind fun anchor made => ?_
  exact
    Program.onlyCalls_bind (onlyCalls_attempt ⟨anchor, target, rfl, made⟩)
      fun _ => trivial

theorem ships_of_mints
    {runtime : Runtime} {signing : SigningService} {tick : Tick}
    {lower : DateTime} {leaves : List ChainedRow × List Digest}
    {root : Digest} {op : Op Int64 Row Effect}
    (mints : Mints runtime signing tick lower leaves root op) :
    Ships runtime signing tick lower leaves root op := by
  cases op with
  | emit effect => exact mints
  | publish row =>
      rcases mints with ⟨anchor, target, rfl, made⟩
      rcases receipt_eq_ok made with ⟨_, _, runId, rootHash, leafCount⟩
      exact ⟨anchor, rfl, runId, leafCount, rootHash, keyId_of_receipt made⟩
  | _ => exact mints.elim

/-- The statement is a query. -/
def IsSelect (op : Op Int64 Row Effect) : Prop :=
  op = .select

theorem onlyCalls_collectLeaves
    (scope : AnchorScope) (lower upper : DateTime) :
    (collectLeaves scope lower upper).OnlyCalls IsSelect := by
  refine onlyCalls_liftExcept_bind fun _ _ => ?_
  refine onlyCalls_liftExcept_bind fun _ _ => ?_
  refine Program.onlyCalls_bind (onlyCalls_attempt rfl) fun rows => ?_
  exact onlyCalls_liftExcept_bind fun _ _ => trivial

theorem isSelect_of_collectLeaves
    {scope : AnchorScope} {lower upper : DateTime}
    {events : List (Program.Event ledgerDb)}
    {outcome : Except Exit (List ChainedRow × List Digest)}
    (ran : (collectLeaves scope lower upper).Executes events outcome) :
    ¬ ∃ event ∈ events, ¬ IsSelect event.op := by
  rintro ⟨event, member, other⟩
  exact
    other
      (Program.allowed_of_executes (onlyCalls_collectLeaves _ _ _) ran event
        member)

/-- A tick that does more than read has collected leaves. -/
theorem executes_anchorTick
    {runtime : Runtime} {signing : SigningService} {sink : AnchorSink}
    {tick : Tick} {events : List (Program.Event ledgerDb)}
    {outcome : Except Exit (Option Anchor)}
    (ran : (anchorTick runtime signing sink tick).Executes events outcome)
    (writes : ∃ event ∈ events, ¬ IsSelect event.op) :
    ∃ seen read minted leaves minting,
      events = ⟨.select, Except.ok seen⟩ :: (read ++ minted) ∧
        (collectLeaves tick.scope (anchorWindowStart tick.scope seen)
            tick.untilTs).Executes read (.ok leaves) ∧
          leaves.2 ≠ [] ∧
            (mintAnchor runtime signing sink tick
                (anchorWindowStart tick.scope seen) leaves).Executes
              minted minting := by
  rcases Program.executes_call_iff.mp ran with
    ⟨answer, rest, rfl, continued⟩
  have later : ∃ event ∈ rest, ¬ IsSelect event.op := by
    rcases writes with ⟨event, member, other⟩
    rcases List.mem_cons.mp member with rfl | member
    · exact absurd rfl other
    · exact ⟨event, member, other⟩
  have goesOn : rest ≠ [] := by
    rintro rfl
    rcases later with ⟨_, ⟨⟩, _⟩
  cases answer with
  | error fault =>
      exact absurd (Program.executes_raise_iff.mp continued).1 goesOn
  | ok seen =>
      change Program.Executes (if _ then _ else _) rest outcome at continued
      split at continued
      · exact absurd (Program.executes_done_iff.mp continued).1 goesOn
      · rcases Program.executes_bind_iff.mp continued with
          ⟨error, failed, _⟩ | ⟨leaves, read, minted, rfl, collected, minting⟩
        · exact absurd later (isSelect_of_collectLeaves failed)
        · split at minting
          · rcases Program.executes_done_iff.mp minting with ⟨rfl, _⟩
            rw [List.append_nil] at later
            exact absurd later (isSelect_of_collectLeaves collected)
          · rename_i nonempty
            refine ⟨seen, read, minted, leaves, ?_⟩
            rcases Program.executes_bind_iff.mp minting with
              ⟨error, failed, _⟩ | ⟨anchor, before, after, rfl, made, rest⟩
            · exact ⟨_, rfl, collected, by simpa using nonempty, failed⟩
            · rcases Program.executes_done_iff.mp rest with ⟨rfl, _⟩
              rw [List.append_nil]
              exact ⟨_, rfl, collected, by simpa using nonempty, made⟩

/-! ## A tick over a window with leaves -/

theorem executes_bind {α β : Type} {first : Handler α}
    {second : α → Handler β} {before after : List (Program.Event ledgerDb)}
    {value : α} {outcome : Except Exit β}
    (earlier : first.Executes before (.ok value))
    (later : (second value).Executes after outcome) :
    (first >>= second).Executes (before ++ after) outcome :=
  Program.executes_bind_iff.mpr
    (Or.inr ⟨value, before, after, rfl, earlier, later⟩)

theorem executes_attempt {op : Op Int64 Row Effect} {wrap : Fault → Exit}
    (reply : Reply op) :
    (attempt op wrap : Handler (Reply op)).Executes [⟨op, Except.ok reply⟩]
      (.ok reply) :=
  Program.executes_call_iff.mpr ⟨Except.ok reply, [], rfl, .done reply⟩

theorem executes_liftExcept_bind {α β : Type} {result : Except Exit α}
    {value : α} {next : α → Handler β}
    {events : List (Program.Event ledgerDb)} {outcome : Except Exit β}
    (lifted : result = .ok value)
    (later : (next value).Executes events outcome) :
    (liftExcept result >>= next).Executes events outcome := by
  subst lifted
  exact later

/-- A tick over a window with leaves can ship its document. -/
theorem exists_shipped
    {runtime : Runtime} {signing : SigningService} {tick : Tick}
    {seen rows : List Row} {lower upper minted : Timestamptz}
    {digests : List Digest}
    (later : ¬ tick.untilTs ≤ anchorWindowStart tick.scope seen)
    (lowerBound :
      bindTimestamp (anchorWindowStart tick.scope seen) = .ok lower)
    (upperBound : bindTimestamp tick.untilTs = .ok upper)
    (mintedBound : bindTimestamp tick.anchoredAt = .ok minted)
    (digested :
      leafDigests (collectRows tick.scope lower upper rows) = .ok digests)
    (nonempty : digests ≠ []) :
    ∃ events anchor key bytes,
      (anchorTick runtime signing .memory tick).Executes events
          (.ok (some anchor)) ∧
        (∃ event ∈ events, event.op = .emit (.document key bytes)) ∧
          (∃ event ∈ events, ∃ leaves,
            event.op = .publish (.anchor anchor leaves)) ∧
            CollectedBy tick events
              (collectRows tick.scope lower upper rows, digests) := by
  have exists_root : ∃ root, computeRoot runtime.sha256 digests = .ok root :=
    (computeRoot_isOk_iff digests).mpr nonempty
  rcases exists_root with ⟨root, computed⟩
  have lifted : rootOf runtime digests = .ok root := by
    rw [rootOf, computed]
  let start := anchorWindowStart tick.scope seen
  let leaves := (collectRows tick.scope lower upper rows, digests)
  have collected :
      (collectLeaves tick.scope start tick.untilTs).Executes
        [⟨.select, Except.ok rows⟩] (.ok leaves) :=
    executes_liftExcept_bind lowerBound
      (executes_liftExcept_bind upperBound
        (executes_bind (@executes_attempt .select _ rows)
          (executes_liftExcept_bind digested (.done _))))
  let manifest := manifestOf tick start digests root
  let signature := signing.sign (utf8 (manifest.canonicalJson runtime.chrono))
  let key := tick.scope.keySegment ++ "/" ++ uuidText tick.id ++ ".json"
  let bytes :=
    runtime.jsonToVec
      (anchorDoc runtime signing (manifest.canonicalJson runtime.chrono))
  have made :
      ∃ anchor,
        receipt signing tick manifest signature ("memory://" ++ key) =
          .ok anchor := by
    simp only [receipt, manifest, manifestOf, start, lowerBound, upperBound,
      mintedBound]
    exact ⟨_, rfl⟩
  rcases made with ⟨anchor, made⟩
  have put :
      (AnchorSink.memory.put key bytes).Executes
        ([⟨.emit (.document key bytes), Except.ok ()⟩] ++ [])
        (.ok ("memory://" ++ key)) :=
    executes_bind (@executes_attempt (.emit (.document key bytes)) _ ())
      (.done _)
  have inserted :
      (query (.publish (.anchor anchor leaves.1)) >>= fun _ =>
          (pure anchor : Handler Anchor)).Executes
        ([⟨.publish (.anchor anchor leaves.1), Except.ok ()⟩] ++ [])
        (.ok anchor) :=
    executes_bind
      (@executes_attempt (.publish (.anchor anchor leaves.1)) _ ())
      (.done anchor)
  have minted :
      (mintAnchor runtime signing .memory tick start leaves).Executes _
        (.ok anchor) :=
    executes_liftExcept_bind lifted
      (executes_bind put (executes_liftExcept_bind made inserted))
  have filled : ¬ leaves.2.isEmpty = true := by
    rw [List.isEmpty_iff]
    exact nonempty
  refine
    ⟨[⟨.select, Except.ok seen⟩] ++
        ([⟨.select, Except.ok rows⟩] ++
          (([⟨.emit (.document key bytes), Except.ok ()⟩] ++ [] ++
              ([⟨.publish (.anchor anchor leaves.1), Except.ok ()⟩] ++ [])) ++
            [])),
      anchor, key, bytes, ?_,
      ⟨⟨.emit (.document key bytes), Except.ok ()⟩, by simp, rfl⟩,
      ⟨⟨.publish (.anchor anchor leaves.1), Except.ok ()⟩, by simp,
        leaves.1, rfl⟩,
      seen, _, _, rfl, collected⟩
  refine executes_bind (@executes_attempt .select _ seen) ?_
  simp only [if_neg later]
  refine executes_bind collected ?_
  simp only [if_neg filled]
  exact executes_bind minted (.done _)

/-! ### A ledger and a verifier to run -/

/-- A ledger and a verifier that know flat objects only. -/
def flatRuntime : Runtime :=
  { Runtime.plain with
    parseJson := parseFlat
    jsonToVec := flatToVec }

/-- A signature of a message: two digests of the key and the message. -/
def stamp (key : Block 32) (message : Bytes) : Block 64 where
  bytes :=
    (Sha256.sha256 (0 :: (key.bytes ++ message))).bytes ++
      (Sha256.sha256 (1 :: (key.bytes ++ message))).bytes
  length_eq := by simp

/-- The verifier's crates, where a key accepts its own stamps. -/
def flatCrates : Crates :=
  { knowing [] [] with
    Key := Block 32
    parseJson := parseFlat
    keyFromBytes := some
    verifies := fun key message signature => signature = stamp key message }

/-- A key that stamps what it signs. -/
def stampKey : SigningKey where
  verifyingKey := .replicate 32 7
  sign := stamp (.replicate 32 7)

example :
    flatCrates.verifies stampKey.verifyingKey [1] (stampKey.sign [2]) =
      false := by
  decide +kernel

theorem sameCrates_flat : SameCrates flatRuntime flatCrates where
  sha256 := rfl
  hexEncode := rfl
  hexDecode := by
    intro bytes
    simp only [flatCrates, knowing, Hexadecimal.decode_encode]
  timestamps := plain_rfc3339
  json :=
    { writes := by
        intro value flat formed
        rcases exists_toCanonicalString flat with ⟨text, written⟩
        rcases parseFlat_toCanonicalString flat formed written with
          ⟨json, parsed, same⟩
        refine ⟨text, json, ?_, parsed, same⟩
        show utf8 text = flatToVec value
        rw [flatToVec, written]
      reads := fun value text flat formed written =>
        parseFlat_toCanonicalString flat formed written }

theorem accepts_stampKey : Accepts flatCrates stampKey :=
  ⟨.replicate 32 7, rfl, fun _ => decide_eq_true rfl⟩

/-- A tick of the global scope over the first two seconds of 2000. -/
def earlyTick : Tick where
  scope := .global
  untilTs := second 2 (by decide)
  id := 9
  anchoredAt := second 3 (by decide)

/-- Every document a tick ships is accepted with the leaves it collected. -/
theorem verifiesOffline_of_shipped
    {runtime : Runtime} {crates : Crates} {signingKey : SigningKey}
    {sink : AnchorSink} {tick : Tick}
    {events : List (Program.Event ledgerDb)}
    {outcome : Except Exit (Option Anchor)} {key : String} {bytes : Bytes}
    {leaves : List ChainedRow × List Digest}
    (same : SameCrates runtime crates) (accepts : Accepts crates signingKey)
    (ran :
      (anchorTick runtime (load runtime signingKey) sink tick).Executes events
        outcome)
    (shipped : ∃ event ∈ events, event.op = .emit (.document key bytes))
    (collected : CollectedBy tick events leaves)
    (few : leaves.2.length < 2 ^ 63) :
    VerifiesOffline crates events bytes leaves := by
  have writes : ∃ event ∈ events, ¬ IsSelect event.op := by
    rcases shipped with ⟨event, member, emits⟩
    exact ⟨event, member, by rw [emits]; rintro ⟨⟩⟩
  rcases executes_anchorTick ran writes with
    ⟨seen, read, minted, leaves', minting, rfl, reading, nonempty, made⟩
  have theSame : leaves = leaves' :=
    collected.unique ⟨seen, read, minted, rfl, reading⟩
  subst theSame
  have exists_root :
      ∃ root, computeRoot runtime.sha256 leaves.2 = .ok root :=
    (computeRoot_isOk_iff leaves.2).mpr nonempty
  rcases exists_root with ⟨root, computed⟩
  rcases verifyAnchor_anchorDoc same accepts tick
      (anchorWindowStart tick.scope seen) nonempty few computed with
    ⟨docJson, written, accepted⟩
  have ships :
      ∀ event : Program.Event ledgerDb,
        event ∈ ⟨.select, Except.ok seen⟩ :: (read ++ minted) →
          ¬ IsSelect event.op →
            Ships runtime (load runtime signingKey) tick
              (anchorWindowStart tick.scope seen) leaves root event.op := by
    intro event member other
    rcases List.mem_cons.mp member with rfl | member
    · exact absurd rfl other
    · rcases List.mem_append.mp member with inRead | inMinted
      · exact
          absurd
            (Program.allowed_of_executes (onlyCalls_collectLeaves _ _ _)
              reading event inRead)
            other
      · exact
          ships_of_mints
            (Program.allowed_of_executes (onlyCalls_mintAnchor computed) made
              event inMinted)
  refine ⟨docJson, _, ?_, accepted, ?_⟩
  · rcases shipped with ⟨event, member, emits⟩
    have emitted := ships event member (by rw [emits]; rintro ⟨⟩)
    rw [emits] at emitted
    rcases emitted with ⟨key', ⟨⟩⟩
    exact written
  · intro event member anchor rows publishes
    have inserted := ships event member (by rw [publishes]; rintro ⟨⟩)
    rw [publishes] at inserted
    rcases inserted with ⟨anchor', ⟨⟩, runId, leafCount, rootHash, keyId⟩
    refine ⟨rfl, ?_, ?_, ?_, keyId.symm⟩
    · rw [runId, scopeOf_runFilter]
    · rw [leafCount, Int64.toInt_ofNat_of_lt few]
    · rw [rootHash]

/-- A tick over three rows ships a document that verifies with three leaves. -/
theorem verifiesOffline_of_threeRows :
    ∃ events outcome bytes leaves,
      (anchorTick flatRuntime (load flatRuntime stampKey) .memory
          earlyTick).Executes events outcome ∧
        leaves.2.length = 3 ∧
          VerifiesOffline flatCrates events bytes leaves := by
  have ready :
      ∃ events anchor key bytes,
        (anchorTick flatRuntime (load flatRuntime stampKey) .memory
            earlyTick).Executes events (.ok (some anchor)) ∧
          (∃ event ∈ events, event.op = .emit (.document key bytes)) ∧
            (∃ event ∈ events, ∃ leaves,
              event.op = .publish (.anchor anchor leaves)) ∧
              CollectedBy earlyTick events _ :=
    @exists_shipped _ _ _ [] [noted 1 1, noted 2 2, noted 3 3] _ _ _
      [.replicate 32 1, .replicate 32 2, .replicate 32 3] (by decide) rfl rfl
      rfl rfl (by simp)
  rcases ready with
    ⟨events, anchor, key, bytes, ran, shipped, _, collected⟩
  exact
    ⟨events, .ok (some anchor), bytes, _, ran, rfl,
      verifiesOffline_of_shipped sameCrates_flat accepts_stampKey ran shipped
        collected (by decide)⟩

end Trackward.Ledger.AnchorDocuments
