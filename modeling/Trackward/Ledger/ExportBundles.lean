import Trackward.ChainCore.SerdeTexts
import Trackward.ChainCore.UuidTexts
import Trackward.Ledger.AnchorDocuments
import Trackward.Ledger.DossierReads
import Trackward.Ledger.Schema
import Mathlib.Data.Finset.Card
import Mathlib.Data.Finset.Dedup

/-!
# Export bundles, from the ledger to the verifier

The ledger writes the manifest of a case as a JSON text, signs the text, and
answers with a row in which the text is a string.  The verifier parses the
answer, checks the string it finds there, and parses that once more.

An escape is undone exactly once by each of the two parsers, so the verifier
hashes the bytes that were signed.  The evidence is read by one statement, and
the key of its table keeps a link from being there twice.
-/

namespace Trackward.Ledger.ExportBundles

open Trackward.ChainCore.Chrono
open Trackward.ChainCore.Encode
open Trackward.ChainCore.JsonValue
open Trackward.ChainCore.SerdeJson
open Trackward.ChainCore.SerdeTexts
open Trackward.ChainCore.UuidTexts
open Trackward.Ledger.Actor
open Trackward.Ledger.AnchorDocuments
open Trackward.Ledger.Anchoring
open Trackward.Ledger.Concurrency
open Trackward.Ledger.DossierReads
open Trackward.Ledger.Dossiers
open Trackward.Ledger.Models
open Trackward.Ledger.Records
open Trackward.Ledger.Routes
open Trackward.Ledger.Schema
open Trackward.Ledger.Timestamps
open Trackward.Lib
open Trackward.Lib.Admission
open Trackward.Lib.Octets
open Trackward.Lib.Programs
open Trackward.Lib.Readers
open Trackward.Lib.Runs
open Trackward.Lib.Sessions
open Trackward.Lib.Traces
open Trackward.Lib.Transactions
open Trackward.Verifier.Bundle

/-! ## The evidence of a case -/

/-- The links of a case. -/
def caseLinks (caseId : Uuid) (entries : List Entry) : List CaseEvidence :=
  ((records entries).filterMap Record.caseEvidence?).filter fun row =>
    row.caseId = caseId

/-- What is linked: the type of a piece of evidence and its id. -/
def linkedPair (row : CaseEvidence) : String × Uuid :=
  (row.evidenceType, row.evidenceId)

/-- The pieces of evidence linked to a case. -/
def linkedEvidence (caseId : Uuid) (entries : List Entry) :
    Finset (String × Uuid) :=
  ((caseLinks caseId entries).map linkedPair).toFinset

/-- The constraints keep a piece of evidence from being linked twice. -/
theorem nodup_caseLinks {entries : List Entry}
    (accepted : Accepted Schema.accepts entries) (caseId : Uuid) :
    ((caseLinks caseId entries).map linkedPair).Nodup := by
  rw [caseLinks, List.Nodup, List.pairwise_map, List.pairwise_filter,
    List.pairwise_filterMap]
  apply (pairwise_records accepted).imp
  intro first second apart row isRow row' isRow' here here' same
  cases first <;> cases isRow
  cases second <;> cases isRow'
  rw [linkedPair, linkedPair, Prod.mk.injEq] at same
  have inCase := of_decide_eq_true here
  have inCase' := of_decide_eq_true here'
  simp [clash, inCase, inCase', same.1, same.2] at apart

/-! ## The answer of the endpoint -/

/-- The row as the endpoint answers it; the database fills in its time. -/
def bundleValue (exporter : Export) (bundle : ExportBundle)
    (createdAt : DateTime) : Value :=
  .object
    [("id", .string (uuidText bundle.id)),
      ("case_id", .string (uuidText bundle.caseId)),
      ("manifest_json", .string bundle.manifestJson),
      ("manifest_sha256", .string bundle.manifestSha256),
      ("signature", .string bundle.signature),
      ("key_id", .string bundle.keyId),
      ("public_key_hex", .string bundle.publicKeyHex),
      ("signed_by", .string bundle.signedBy),
      ("signed_at",
        .string (exporter.dateTimeText bundle.signedAt.toDateTime)),
      ("storage_uri", .null),
      ("actor_id", .string bundle.actorId),
      ("created_at", .string (exporter.dateTimeText createdAt))]

/-- The row of a case with these links. -/
def exportRow
    (runtime : Runtime) (signing : SigningService) (exporter : Export)
    (actor : String) (id caseId : Uuid) (input : CreateExportBundle)
    (signedAt : DateTime) (stored : Timestamptz)
    (links : List CaseEvidence) : ExportBundle :=
  let manifestJson :=
    exporter.jsonToString (manifestValue exporter caseId signedAt links)
  { id := id
    caseId := caseId
    manifestJson := manifestJson
    manifestSha256 := sha256Hex runtime (utf8 manifestJson)
    signature := Hexadecimal.encode (signing.sign (utf8 manifestJson)).bytes
    keyId := signing.keyId
    publicKeyHex := signing.publicKeyHex
    signedBy := input.signedBy
    signedAt := stored
    actorId := actor }

/-- An export that is answered has read the links of its case once. -/
theorem executes_createExportBundle
    {runtime : Runtime} {signing : SigningService} {exporter : Export}
    {actor : String} {id caseId : Uuid} {input : CreateExportBundle}
    {now : DateTime} {events : List (Program.Event wholeDb)}
    {record : Record}
    (ran :
      (createExportBundle runtime signing exporter actor id caseId input
          now).Executes events (.ok record)) :
    ∃ known linked rest stored,
      events = selected known :: selected linked :: rest ∧
        record =
          .exportBundle
            (exportRow runtime signing exporter actor id caseId input
              (input.fixedSignedAt.getD now) stored
              ((caseLinks caseId linked).mergeSort
                (evidenceBefore exporter.collation))) := by
  rcases executes_select_bind ran with ⟨known, _, rfl, looked⟩
  split at looked
  case isFalse => cases looked
  case isTrue =>
      rcases executes_select_bind looked with ⟨linked, rest, rfl, written⟩
      dsimp only at written
      cases bound : bindTimestamp (input.fixedSignedAt.getD now) with
      | error exit =>
          rw [bound] at written
          cases written
      | ok stored =>
          rw [bound] at written
          refine ⟨known, linked, rest, stored, rfl, ?_⟩
          rcases Program.executes_call_iff.mp written with
            ⟨answer, later, rfl, answered⟩
          cases answer with
          | error fault => cases answered
          | ok reply =>
              rcases Program.executes_done_iff.mp answered with ⟨_, same⟩
              exact Except.ok.inj same

/-! ## What the verifier reads -/

/-- The type and the id that an entry of a manifest names. -/
def entryPair (entry : Value) : Option (String × String) := do
  let kind ← (entry.get "type").bind Value.asStr
  let id ← (entry.get "id").bind Value.asStr
  return (kind, id)

/-- The array of the manifest has exactly this evidence, each piece once. -/
def ListsExactly (manifest : Value)
    (evidence : Finset (String × Uuid)) : Prop :=
  ∃ entries,
    (manifest.get "evidence").bind Value.asArray = some entries ∧
      (entries.map entryPair).Nodup ∧
        ∀ listed,
          listed ∈ entries.map entryPair ↔
            ∃ pair ∈ evidence, listed = some (pair.1, uuidText pair.2)

/-- The text verifies offline, is reported as the row, and has the evidence. -/
structure VerifiesAs (crates : Crates) (json : String)
    (bundle : ExportBundle) (evidence : Finset (String × Uuid)) : Prop where
  accepted :
    verifyBundle crates json =
      .ok
        { signedBy := bundle.signedBy
          evidenceCount := evidence.card
          keyId := bundle.keyId }
  lists :
    ∃ manifest,
      parse crates bundle.manifestJson = .ok manifest ∧
        ListsExactly manifest.value evidence

/-- The crates both sides rely on. -/
structure ExportCrates (float : List Char → Option UInt64)
    (runtime : Runtime) (exporter : Export) (crates : Crates) : Prop where
  digests : SameDigests runtime crates
  serialises : Serialises float exporter.jsonToString
  reads : Reads float fun text => (crates.parseJson text).toOption

section Verification

variable {float : List Char → Option UInt64} {runtime : Runtime}
variable {exporter : Export} {crates : Crates}

/-- What the ledger writes, the verifier reads. -/
theorem exists_parse_of_crates
    (shared : ExportCrates float runtime exporter crates) {value : Value}
    (free : value.FloatFree) (formed : value.WellFormed)
    (shallow : depth value ≤ recursionLimit) :
    ∃ json,
      parse crates (exporter.jsonToString value) = .ok json ∧
        json.value = value := by
  rcases
      exists_parse_of_serialises shared.serialises shared.reads free formed
        shallow with
    ⟨json, parsed, same⟩
  refine ⟨json, ?_, same⟩
  rw [parse]
  cases result : crates.parseJson (exporter.jsonToString value) with
  | error message =>
      rw [result] at parsed
      cases parsed
  | ok found =>
      rw [result] at parsed
      rw [Option.some.inj parsed]

/-! ### The manifest -/

/-- The entry of a manifest for a link. -/
def entryValue (link : CaseEvidence) : Value :=
  .object
    [("type", .string link.evidenceType),
      ("id", .string (uuidText link.evidenceId))]

theorem entryPair_entryValue (link : CaseEvidence) :
    entryPair (entryValue link) =
      some (link.evidenceType, uuidText link.evidenceId) := by
  simp [entryPair, entryValue, Value.get, Value.asStr]

theorem floatFree_manifestValue (caseId : Uuid) (signedAt : DateTime)
    (links : List CaseEvidence) :
    (manifestValue exporter caseId signedAt links).FloatFree := by
  have entries : (Value.array (links.map entryValue)).FloatFree := by
    rw [Value.floatFree_array_iff, List.forall_mem_map]
    intro link _
    simp [entryValue, Value.FloatFree, Value.nested, Value.nestedMembers,
      Value.isInteger]
  have texts : ∀ text, (Value.string text).FloatFree := by
    simp [Value.FloatFree, Value.nested, Value.isInteger]
  apply Value.floatFree_object_iff.mpr
  simp only [List.forall_mem_cons]
  exact ⟨texts _, texts _, entries, List.forall_mem_nil _⟩

theorem wellFormed_manifestValue (caseId : Uuid) (signedAt : DateTime)
    (links : List CaseEvidence) :
    (manifestValue exporter caseId signedAt links).WellFormed := by
  have entries : (Value.array (links.map entryValue)).WellFormed := by
    rw [Value.wellFormed_array_iff, List.forall_mem_map]
    intro link _
    simp [entryValue, Value.WellFormed, Value.nested, Value.nestedMembers,
      Value.distinctKeys]
  have texts : ∀ text, (Value.string text).WellFormed := by
    simp [Value.WellFormed, Value.nested, Value.distinctKeys]
  apply Value.wellFormed_object_iff.mpr
  constructor
  · simp
  · simp only [List.forall_mem_cons]
    exact ⟨texts _, texts _, entries, List.forall_mem_nil _⟩

/-- A manifest nests three deep. -/
theorem depth_manifestValue (caseId : Uuid) (signedAt : DateTime)
    (links : List CaseEvidence) :
    depth (manifestValue exporter caseId signedAt links) ≤ 3 := by
  have flat : depthItems (links.map entryValue) ≤ 1 := by
    apply depthItems_le
    rw [List.forall_mem_map]
    intro link _
    simp [entryValue, depth, depthMembers]
  show max 0 (max 0 (max (depthItems (links.map entryValue) + 1) 0)) + 1 ≤ 3
  omega

/-- The manifest is read back with an entry for each link. -/
theorem exists_parse_manifest
    (shared : ExportCrates float runtime exporter crates) (caseId : Uuid)
    (signedAt : DateTime) (links : List CaseEvidence) :
    ∃ json,
      parse crates
            (exporter.jsonToString
              (manifestValue exporter caseId signedAt links)) =
          .ok json ∧
        (json.value.get "evidence").bind Value.asArray =
          some (links.map entryValue) := by
  have shallow :
      depth (manifestValue exporter caseId signedAt links) ≤
        recursionLimit :=
    Nat.le_trans (depth_manifestValue caseId signedAt links) (by decide)
  rcases
      exists_parse_of_crates shared
        (floatFree_manifestValue caseId signedAt links)
        (wellFormed_manifestValue caseId signedAt links) shallow with
    ⟨json, parsed, same⟩
  refine ⟨json, parsed, ?_⟩
  rw [same]
  rfl

/-! ### The answer -/

theorem floatFree_bundleValue (bundle : ExportBundle)
    (createdAt : DateTime) :
    (bundleValue exporter bundle createdAt).FloatFree := by
  simp [bundleValue, Value.FloatFree, Value.nested, Value.nestedMembers,
    Value.isInteger]

theorem wellFormed_bundleValue (bundle : ExportBundle)
    (createdAt : DateTime) :
    (bundleValue exporter bundle createdAt).WellFormed := by
  simp [bundleValue, Value.WellFormed, Value.nested, Value.nestedMembers,
    Value.distinctKeys]

theorem fieldStr_bundleValue (bundle : ExportBundle) (createdAt : DateTime) :
    fieldStr (bundleValue exporter bundle createdAt) "manifest_json" =
        .ok bundle.manifestJson ∧
      fieldStr (bundleValue exporter bundle createdAt) "manifest_sha256" =
          .ok bundle.manifestSha256 ∧
        fieldStr (bundleValue exporter bundle createdAt) "signature" =
            .ok bundle.signature ∧
          fieldStr (bundleValue exporter bundle createdAt)
                "public_key_hex" =
              .ok bundle.publicKeyHex ∧
            fieldStr (bundleValue exporter bundle createdAt) "key_id" =
                .ok bundle.keyId ∧
              fieldStr (bundleValue exporter bundle createdAt) "signed_by" =
                .ok bundle.signedBy := by
  simp [fieldStr, bundleValue, Value.get, Value.asStr]

/-- An answer whose manifest has passed the checks is accepted. -/
theorem verifyBundle_bundleValue
    (shared : ExportCrates float runtime exporter crates)
    {bundle : ExportBundle} {manifest : Json}
    (digest :
      checkDigest crates bundle.manifestJson bundle.manifestSha256 = .ok ())
    (signature :
      checkSignature crates bundle.manifestJson bundle.signature
          bundle.publicKeyHex =
        .ok ())
    (parsed : parse crates bundle.manifestJson = .ok manifest)
    (createdAt : DateTime) :
    verifyBundle crates
        (exporter.jsonToString (bundleValue exporter bundle createdAt)) =
      .ok
        { signedBy := bundle.signedBy
          evidenceCount := evidenceCount manifest.value
          keyId := bundle.keyId } := by
  have shallow :
      depth (bundleValue exporter bundle createdAt) ≤ recursionLimit := by
    simp [bundleValue, depth, depthMembers, recursionLimit]
  rcases
      exists_parse_of_crates shared (floatFree_bundleValue bundle createdAt)
        (wellFormed_bundleValue bundle createdAt) shallow with
    ⟨json, read, same⟩
  rcases @fieldStr_bundleValue exporter bundle createdAt with
    ⟨manifestJson, manifestSha256, signatureHex, publicKeyHex, keyId,
      signedBy⟩
  simp only [verifyBundle, read, same, manifestJson, manifestSha256,
    signatureHex, publicKeyHex, keyId, signedBy, digest, signature, parsed,
    bind, Except.bind]
  rfl

/-- The row of a case with links that differ verifies, with these links. -/
theorem verifiesAs_exportRow
    (shared : ExportCrates float runtime exporter crates)
    {signingKey : SigningKey} (accepts : Accepts crates signingKey)
    (actor : String) (id caseId : Uuid) (input : CreateExportBundle)
    (signedAt : DateTime) (stored : Timestamptz)
    {links : List CaseEvidence} (distinct : (links.map linkedPair).Nodup)
    (createdAt : DateTime) :
    VerifiesAs crates
      (exporter.jsonToString
        (bundleValue exporter
          (exportRow runtime (load runtime signingKey) exporter actor id
            caseId input signedAt stored links)
          createdAt))
      (exportRow runtime (load runtime signingKey) exporter actor id caseId
        input signedAt stored links)
      (links.map linkedPair).toFinset := by
  rcases exists_parse_manifest shared caseId signedAt links with
    ⟨manifest, parsed, entries⟩
  have counted :
      evidenceCount manifest.value = (links.map linkedPair).toFinset.card := by
    rw [evidenceCount, entries, List.toFinset_card_of_nodup distinct,
      List.length_map]
    exact List.length_map _
  constructor
  · rw [← counted]
    exact
      verifyBundle_bundleValue shared
        (checkDigest_of_sameDigests shared.digests _)
        (checkSignature_of_accepts shared.digests accepts _) parsed createdAt
  · refine ⟨manifest, parsed, links.map entryValue, entries, ?_, ?_⟩
    · rw [List.map_map]
      have texts :
          (entryPair ∘ entryValue) =
            (fun pair : String × Uuid => some (pair.1, uuidText pair.2)) ∘
              linkedPair := by
        funext link
        exact entryPair_entryValue link
      rw [texts, ← List.map_map]
      apply List.Nodup.map _ distinct
      intro first second same
      simp only [Option.some.injEq, Prod.mk.injEq] at same
      exact Prod.ext same.1 (uuidText_injective same.2)
    · intro listed
      simp only [List.map_map, List.mem_map, List.mem_toFinset,
        Function.comp_apply, entryPair_entryValue, exists_exists_and_eq_and]
      constructor
      · rintro ⟨link, member, rfl⟩
        exact ⟨link, member, rfl⟩
      · rintro ⟨link, member, rfl⟩
        exact ⟨link, member, rfl⟩

end Verification

/-! ## All runs of the ledger -/

/-- What a client asks of a ledger that answers exports with their rows. -/
inductive ExportRequest where
  | exports (headers : Headers) (id caseId : Uuid)
      (input : CreateExportBundle) (now : DateTime)
  | other (request : LedgerRequest)

/-- The handler of a request; the row it answers with, if it is an export. -/
def serveExports (state : AppState) (order : RowOrder) :
    ExportRequest → Program wholeDb HttpError (Option Record)
  | .exports headers id caseId input now =>
      if requireBearer state.authToken headers then
        match fromRequestParts state.defaultActor headers with
        | .ok actor => do
            let row ←
              (createExportBundle state.service.runtime state.service.signing
                  state.exporter actor id caseId input now).mapError
                HttpError.exit
            return some row
        | .error rejection => .raise (.actor rejection)
      else .raise .unauthorized
  | .other request => do
      let _ ← serveAll state order request
      return none

/-- The ledger with all requests in flight. -/
abbrev ExportWorld (Client : Type) :=
  World wholeDb Client ExportRequest (State Client Int64 Entry Effect)
    HttpError (Option Record)

/-- All runs of a ledger from rows that its constraints accept. -/
def exportLedger {Client : Type} [DecidableEq Client] (state : AppState)
    (order : RowOrder) :
    System (ExportWorld Client)
      (Move Client ExportRequest (Choice Fault)) :=
  system (host Schema.accepts) (serveExports state order)
    (Protocol.atRest (Accepted Schema.accepts))

/-- The steps of a run. -/
abbrev ExportSteps (Client : Type) :=
  List (ExportWorld Client × Move Client ExportRequest (Choice Fault))

/-- The row a client was answered with. -/
def rowFor {Client : Type} (client : Client) (world : ExportWorld Client) :
    Option Record :=
  match world.sessions client with
  | none => none
  | some session =>
      match session.program with
      | .done row => row
      | _ => none

/-- An export inserts its row with a statement of its own. -/
theorem immediate_createExportBundle
    (runtime : Runtime) (signing : SigningService) (exporter : Export)
    (actor : String) (id caseId : Uuid) (input : CreateExportBundle)
    (now : DateTime) :
    (createExportBundle runtime signing exporter actor id caseId input
        now).OnlyCalls Op.Immediate := by
  apply onlyCalls_select_bind trivial
  intro known
  split
  case isFalse => trivial
  case isTrue =>
      apply onlyCalls_select_bind trivial
      intro linked
      apply onlyCalls_liftRecord_bind
      intro stored
      exact onlyCalls_insertRecord trivial

section Runs

variable {state : AppState} {order : RowOrder} {headers : Headers}
variable {id caseId : Uuid} {input : CreateExportBundle} {now : DateTime}

theorem immediate_serveExports :
    (serveExports state order
        (.exports headers id caseId input now)).OnlyCalls Op.Immediate := by
  rw [serveExports]
  split
  case isFalse => trivial
  case isTrue =>
      split
      case h_2 => trivial
      case h_1 actor extracted =>
          apply Program.onlyCalls_bind
          · apply Program.onlyCalls_mapError
            apply immediate_createExportBundle
          · intro row
            trivial

/-- A row that was answered comes from the handler. -/
theorem executes_of_serveExports {record : Record}
    {events : List (Program.Event wholeDb)}
    (ran :
      (serveExports state order
          (.exports headers id caseId input now)).Executes events
        (.ok (some record))) :
    ∃ actor,
      (createExportBundle state.service.runtime state.service.signing
          state.exporter actor id caseId input now).Executes events
        (.ok record) := by
  rw [serveExports] at ran
  split at ran
  case isFalse => cases ran
  case isTrue =>
      split at ran
      case h_2 => cases ran
      case h_1 actor extracted =>
          exact
            ⟨actor,
              Program.executes_of_answer (Option.some_injective Record) ran⟩

variable {Client : Type} [DecidableEq Client] {client : Client}
variable {arrived finished : ExportWorld Client}
variable {steps : ExportSteps Client}

/-- The rows committed when the links of the case are read. -/
def linksRead (client : Client) (steps : ExportSteps Client)
    (finished : ExportWorld Client) : List Entry :=
  (stateAt steps finished (answeredAt client steps 1)).shared.committed

/-- The row an export was answered with has the links committed at its read. -/
theorem exists_exportRow_of_answered {record : Record}
    (reached :
      Reachable (exportLedger state order) unrestricted arrived)
    (asked :
      arrived.sessions client =
        some
          ⟨.exports headers id caseId input now, 0,
            serveExports state order
              (.exports headers id caseId input now)⟩)
    (path : Path (exportLedger state order) arrived steps finished)
    (stays : Stays client steps)
    (answered : rowFor client finished = some record) :
    ∃ actor stored,
      record =
        .exportBundle
          (exportRow state.service.runtime state.service.signing
            state.exporter actor id caseId input
            (input.fixedSignedAt.getD now) stored
            ((caseLinks caseId (linksRead client steps finished)).mergeSort
              (evidenceBefore state.exporter.collation))) := by
  rcases path.visited stays asked with
    ⟨left, visits, there, visited, befores⟩
  have ended : left = .done (some record) := by
    rw [rowFor, there] at answered
    cases left <;> cases answered
    rfl
  subst ended
  have served :
      (serveExports state order
          (.exports headers id caseId input now)).Executes _
        (.ok (some record)) :=
    visited.leaves.executes rfl
  rcases executes_of_serveExports served with ⟨actor, ran⟩
  rcases executes_createExportBundle ran with
    ⟨known, linked, rest, stored, events, isRow⟩
  have second : (visits.map Visit.event)[1]? = some (selected linked) := by
    rw [events]
    rfl
  have seen :=
    committed_of_read (fun _ immediate => immediate) reached asked
      (@immediate_serveExports state order headers id caseId input now) path
      stays visited befores second
  refine ⟨actor, stored, ?_⟩
  rw [linksRead, seen.2]
  exact isRow

/-- Whatever clients do, the constraints have accepted what was read. -/
theorem accepted_linksRead
    (reached :
      Reachable (exportLedger state order) unrestricted arrived)
    (path : Path (exportLedger state order) arrived steps finished) :
    Accepted Schema.accepts (linksRead client steps finished) := by
  have onPath := path.reachable_stateAt reached (answeredAt client steps 1)
  exact accepted_of_reachable (fun _ starts => starts.1) onPath

end Runs

/-! ### A case with evidence -/

/-- A ledger with a key of its own, that writes compact JSON texts. -/
def exportState : AppState where
  service :=
    { plainService with signing := load Runtime.plain stampKey }
  exporter :=
    { jsonToString := compactString fun _ => []
      dateTimeText := fun _ => "1970-01-01T00:00:00Z"
      collation := fun first second => decide (first ≤ second) }
  defaultActor := some "test"
  authToken := none

/-- A verifier that reads the texts of the grammar. -/
def exportCrates : Crates :=
  { flatCrates with
    parseJson := fun text =>
      match fromStr (fun _ => none) text with
      | some json => .ok json
      | none => .error "expected value at line 1 column 1" }

theorem shared_exportCrates :
    ExportCrates (fun _ => none) exportState.service.runtime
      exportState.exporter exportCrates where
  digests := ⟨rfl, rfl, sameCrates_flat.hexDecode⟩
  serialises := serialises_compactString _ _
  reads := by
    have same :
        (fun text => (exportCrates.parseJson text).toOption) =
          fromStr fun _ => none := by
      funext text
      simp only [exportCrates]
      cases fromStr (fun _ => none) text <;> rfl
    rw [same]
    exact reads_fromStr _

theorem accepts_exportCrates : Accepts exportCrates stampKey :=
  accepts_stampKey

/-- The case 5, with two pieces of evidence. -/
def openedCase : List Entry :=
  let link : String → Record := fun evidenceType =>
    .caseEvidence
      { caseId := 5
        evidenceType := evidenceType
        evidenceId := 3
        linkedBy := "ray"
        linkedAt := .zero
        note := none
        actorId := "test" }
  [.ofRecord
      (.case
        { id := 5
          title := "case"
          description := ""
          openedBy := "ray"
          openedAt := .zero
          metadata := Json.null
          actorId := "test" }),
    .ofRecord (link "\"\\\n"), .ofRecord (link "run")]

/-- A request to export the case 5. -/
def exportFive : ExportRequest :=
  .exports [] 9 5
    { signedBy := "ray \"the\" signer"
      fixedSignedAt := some DateTime.epoch }
    DateTime.epoch

/-- Client 1 has asked for an export of the case 5. -/
def exporting : ExportWorld Nat where
  shared :=
    { committed := openedCase
      pending := fun _ => []
      holder := fun _ => none
      clock := 0
      emitted := [] }
  sessions :=
    Function.update (fun _ => none) 1
      (some ⟨exportFive, 0, serveExports exportState .stable exportFive⟩)

theorem accepted_openedCase : Accepted Schema.accepts openedCase := by
  unfold Accepted
  decide +kernel

theorem reachable_exporting :
    Reachable (exportLedger exportState .stable) unrestricted exporting := by
  let start : ExportWorld Nat := { exporting with sessions := fun _ => none }
  have starts : (exportLedger exportState .stable).initial start :=
    ⟨⟨accepted_openedCase, fun _ => rfl, fun _ => rfl⟩, fun _ => rfl⟩
  have moved :
      (exportLedger exportState .stable).step start (.arrive 1 exportFive) =
        some exporting :=
    rfl
  exact .next (.start starts) trivial moved

/-- The answers to the export, with one more link after it has read. -/
def linkMeanwhile : List (Move Nat ExportRequest (Choice Fault)) :=
  [.answer 1 (.succeed 0), .answer 1 (.succeed 0),
    .arrive 2
      (.other
        (writing
          (.record
            (.caseEvidence 5
              { evidenceType := "late"
                evidenceId := 4
                linkedBy := "ray"
                note := none
                linkedAt := DateTime.epoch })))),
    .answer 2 (.succeed 0), .answer 1 (.succeed 0)]

/-- The export is answered, and it has read two of three links. -/
def readEarlier (steps : ExportSteps Nat) (finished : ExportWorld Nat) :
    Bool :=
  (rowFor 1 finished).isSome &&
    decide
      ((caseLinks 5 (linksRead 1 steps finished)).map linkedPair =
        [("\"\\\n", 3), ("run", 3)]) &&
      decide ((caseLinks 5 finished.shared.committed).length = 3)

/--
Whatever runs beside it, an export that is answered verifies offline: the text
of the answer is accepted, with the signer, the key and the number of pieces of
evidence, and the manifest has exactly the pieces that were linked to the case
when it was read, each once.
-/
theorem verifiesAs_of_answered
    {float : List Char → Option UInt64} {state : AppState} {order : RowOrder}
    {crates : Crates} {signingKey : SigningKey}
    (shared :
      ExportCrates float state.service.runtime state.exporter crates)
    (accepts : Accepts crates signingKey)
    (signs : state.service.signing = load state.service.runtime signingKey)
    {Client : Type} [DecidableEq Client] {client : Client}
    {arrived finished : ExportWorld Client} {steps : ExportSteps Client}
    {headers : Headers} {id caseId : Uuid} {input : CreateExportBundle}
    {now : DateTime} {record : Record}
    (reached : Reachable (exportLedger state order) unrestricted arrived)
    (asked :
      arrived.sessions client =
        some
          ⟨.exports headers id caseId input now, 0,
            serveExports state order
              (.exports headers id caseId input now)⟩)
    (path : Path (exportLedger state order) arrived steps finished)
    (stays : Stays client steps)
    (answered : rowFor client finished = some record) :
    ∃ bundle,
      record = .exportBundle bundle ∧ bundle.caseId = caseId ∧
        bundle.signedBy = input.signedBy ∧
          ∀ createdAt,
            VerifiesAs crates
              (state.exporter.jsonToString
                (bundleValue state.exporter bundle createdAt))
              bundle
              (linkedEvidence caseId (linksRead client steps finished)) := by
  rcases exists_exportRow_of_answered reached asked path stays answered with
    ⟨actor, stored, isRow⟩
  rw [signs] at isRow
  refine ⟨_, isRow, rfl, rfl, fun createdAt => ?_⟩
  have accepted := @accepted_linksRead state order _ _ client _ _ _ reached path
  have sorted :=
    (List.mergeSort_perm (caseLinks caseId (linksRead client steps finished))
      (evidenceBefore state.exporter.collation)).map linkedPair
  have distinct := sorted.nodup_iff.mpr (nodup_caseLinks accepted caseId)
  rw [linkedEvidence, ← List.toFinset_eq_of_perm _ _ sorted]
  exact
    verifiesAs_exportRow shared accepts actor id caseId input _ stored
      distinct createdAt

/-- Evidence with a quote in its type is exported, and a later link is not. -/
theorem verifiesAs_of_linkMeanwhile :
    ∃ (steps : ExportSteps Nat) (finished : ExportWorld Nat)
        (bundle : ExportBundle),
      Path (exportLedger exportState .stable) exporting steps finished ∧
        rowFor 1 finished = some (.exportBundle bundle) ∧
          bundle.signedBy = "ray \"the\" signer" ∧
            VerifiesAs exportCrates
              (exportState.exporter.jsonToString
                (bundleValue exportState.exporter bundle DateTime.epoch))
              bundle {("\"\\\n", 3), ("run", 3)} := by
  rcases
      @exists_path_of_trace _ _ (exportLedger exportState .stable) exporting
        linkMeanwhile readEarlier (by decide +kernel) with
    ⟨steps, finished, path, moves, check⟩
  simp only [readEarlier, Bool.and_eq_true, decide_eq_true_eq,
    Option.isSome_iff_exists] at check
  rcases check with ⟨⟨⟨record, answered⟩, links⟩, _⟩
  have stays : Stays 1 steps := by
    apply stays_of_moves
    rw [moves]
    simp [linkMeanwhile]
  rcases
      verifiesAs_of_answered shared_exportCrates accepts_exportCrates rfl
        reachable_exporting rfl path stays answered with
    ⟨bundle, rfl, _, signedBy, verifies⟩
  refine ⟨steps, finished, bundle, path, answered, signedBy, ?_⟩
  have evidence :
      linkedEvidence 5 (linksRead 1 steps finished) =
        {("\"\\\n", 3), ("run", 3)} := by
    rw [linkedEvidence, links]
    rfl
  rw [← evidence]
  exact verifies DateTime.epoch

end Trackward.Ledger.ExportBundles
