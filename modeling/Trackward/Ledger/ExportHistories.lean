import Trackward.Ledger.ExportBundles
import Trackward.Lib.ComparisonOrders

/-!
# Exports do not depend on history

Two exports of a case, in any two runs of ledgers that hold one signing key,
have the same manifest, digest and signature when the same evidence was linked
to the case and the same time was pinned.  The order of the links, and who
linked them when and with which note, leave no trace: the manifest has only the
type and the id of each piece, and the query sorts by just these two.
-/

namespace Trackward.Ledger.ExportHistories

open Trackward.ChainCore.Chrono
open Trackward.ChainCore.Encode
open Trackward.ChainCore.JsonValue
open Trackward.Ledger.Actor
open Trackward.Ledger.Concurrency
open Trackward.Ledger.DossierReads
open Trackward.Ledger.Dossiers
open Trackward.Ledger.ExportBundles
open Trackward.Ledger.Models
open Trackward.Ledger.Records
open Trackward.Ledger.Routes
open Trackward.Ledger.Schema
open Trackward.Ledger.Timestamps
open Trackward.Lib.Admission
open Trackward.Lib.ComparisonOrders
open Trackward.Lib.Runs
open Trackward.Lib.Sessions
open Trackward.Lib.Traces
open Trackward.Lib.Transactions

/-! ## The order of the evidence -/

/-- The order of the query, as a comparison of what is linked. -/
def pairBefore (collation : String → String → Bool) :
    String × Uuid → String × Uuid → Bool :=
  lexBefore collation fun first second => first.toNat ≤ second.toNat

theorem evidenceBefore_eq (collation : String → String → Bool) :
    evidenceBefore collation = fun first second =>
      pairBefore collation (linkedPair first) (linkedPair second) :=
  rfl

theorem totalOrder_pairBefore {collation : String → String → Bool}
    (ordered : TotalOrder collation) : TotalOrder (pairBefore collation) :=
  ordered.lex
    (totalOrder_of_injective fun _ _ same => BitVec.eq_of_toNat_eq same)

/-- A manifest shows of its links what is linked, and nothing else. -/
theorem manifestValue_eq_of_pairs {exporter : Export} {caseId : Uuid}
    {signedAt : DateTime} {links links' : List CaseEvidence}
    (same : links.map linkedPair = links'.map linkedPair) :
    manifestValue exporter caseId signedAt links =
      manifestValue exporter caseId signedAt links' := by
  let entry : String × Uuid → Value := fun pair =>
    .object [("type", .string pair.1), ("id", .string (uuidText pair.2))]
  have entries : ∀ listed : List CaseEvidence,
      listed.map entryValue = (listed.map linkedPair).map entry := by
    intro listed
    rw [List.map_map]
    rfl
  have texts : links.map entryValue = links'.map entryValue := by
    rw [entries, entries, same]
  show
    Value.object
        [_, _, ("evidence", .array (links.map entryValue))] =
      Value.object [_, _, ("evidence", .array (links'.map entryValue))]
  rw [texts]

/-- Sorted links of one set of evidence name it in one order. -/
theorem sorted_pairs_eq {collation : String → String → Bool}
    (ordered : TotalOrder collation) {caseId : Uuid}
    {entries entries' : List Entry}
    (accepted : Accepted Schema.accepts entries)
    (accepted' : Accepted Schema.accepts entries')
    (same : linkedEvidence caseId entries = linkedEvidence caseId entries') :
    ((caseLinks caseId entries).mergeSort (evidenceBefore collation)).map
        linkedPair =
      ((caseLinks caseId entries').mergeSort (evidenceBefore collation)).map
        linkedPair := by
  have perm :=
    List.perm_of_nodup_nodup_toFinset_eq (nodup_caseLinks accepted caseId)
      (nodup_caseLinks accepted' caseId) same
  rw [evidenceBefore_eq]
  exact (totalOrder_pairBefore ordered).map_mergeSort_eq_of_perm perm

/-! ## Two runs -/

/-- A run of a ledger in which an export at a pinned time has been answered. -/
structure AnsweredExport (state : AppState) (order : RowOrder)
    (caseId : Uuid) (signedAt : DateTime) where
  Client : Type
  [decidable : DecidableEq Client]
  client : Client
  headers : Headers
  id : Uuid
  input : CreateExportBundle
  now : DateTime
  arrived : ExportWorld Client
  finished : ExportWorld Client
  steps : ExportSteps Client
  bundle : ExportBundle
  pinned : input.fixedSignedAt = some signedAt
  reached : Reachable (exportLedger state order) unrestricted arrived
  asked :
    arrived.sessions client =
      some
        ⟨.exports headers id caseId input now, 0,
          serveExports state order (.exports headers id caseId input now)⟩
  path : Path (exportLedger state order) arrived steps finished
  stays : Stays client steps
  answered : rowFor client finished = some (.exportBundle bundle)

attribute [instance] AnsweredExport.decidable

namespace AnsweredExport

variable {state : AppState} {order : RowOrder} {caseId : Uuid}
variable {signedAt : DateTime}

/-- The rows committed when the export has read the links of its case. -/
def read (export' : AnsweredExport state order caseId signedAt) :
    List Entry :=
  linksRead export'.client export'.steps export'.finished

/-- The evidence linked to the case by then. -/
def evidence (export' : AnsweredExport state order caseId signedAt) :
    Finset (String × Uuid) :=
  linkedEvidence caseId export'.read

theorem accepted_read (export' : AnsweredExport state order caseId signedAt) :
    Accepted Schema.accepts export'.read :=
  accepted_linksRead export'.reached export'.path

/-- The row that was answered, from the links that were read. -/
theorem exists_bundle_eq
    (export' : AnsweredExport state order caseId signedAt) :
    ∃ actor stored,
      export'.bundle =
        exportRow state.service.runtime state.service.signing state.exporter
          actor export'.id caseId export'.input signedAt stored
          ((caseLinks caseId export'.read).mergeSort
            (evidenceBefore state.exporter.collation)) := by
  rcases
      exists_exportRow_of_answered export'.reached export'.asked export'.path
        export'.stays export'.answered with
    ⟨actor, stored, isRow⟩
  rw [export'.pinned, Option.getD_some, Record.exportBundle.injEq] at isRow
  exact ⟨actor, stored, isRow⟩

end AnsweredExport

/-! ### One case with two histories -/

/-- Client 1 has asked a ledger with these rows for an export of the case 5. -/
def exportingFrom (entries : List Entry) : ExportWorld Nat :=
  { exporting with shared := { exporting.shared with committed := entries } }

theorem reachable_exportingFrom {entries : List Entry}
    (accepted : Accepted Schema.accepts entries) :
    Reachable (exportLedger exportState .stable) unrestricted
      (exportingFrom entries) := by
  let start : ExportWorld Nat :=
    { exportingFrom entries with sessions := fun _ => none }
  have starts : (exportLedger exportState .stable).initial start :=
    ⟨⟨accepted, fun _ => rfl, fun _ => rfl⟩, fun _ => rfl⟩
  have moved :
      (exportLedger exportState .stable).step start (.arrive 1 exportFive) =
        some (exportingFrom entries) :=
    rfl
  exact .next (.start starts) trivial moved

/-- The evidence of the case 5, linked by another person in another order. -/
def openedCaseAgain : List Entry :=
  let link : String → Record := fun evidenceType =>
    .caseEvidence
      { caseId := 5
        evidenceType := evidenceType
        evidenceId := 3
        linkedBy := "eve"
        linkedAt := .zero
        note := some "again"
        actorId := "test" }
  openedCase.take 1 ++ [.ofRecord (link "run"), .ofRecord (link "\"\\\n")]

theorem accepted_openedCaseAgain :
    Accepted Schema.accepts openedCaseAgain := by
  unfold Accepted
  decide +kernel

/-- A link of the case 5 that is there already is sent while it is exported. -/
def linkAgain : List (Move Nat ExportRequest (Choice Fault)) :=
  [.arrive 2
      (.other
        (writing
          (.record
            (.caseEvidence 5
              { evidenceType := "run"
                evidenceId := 3
                linkedBy := "mallory"
                note := none
                linkedAt := DateTime.epoch })))),
    .answer 2 (.fail ⟨true, "duplicate key value"⟩), .answer 1 (.succeed 0),
    .answer 1 (.succeed 0), .answer 1 (.succeed 0)]

/-- The export is answered and has read links in this order. -/
def hasRead (pairs : List (String × Uuid)) (steps : ExportSteps Nat)
    (finished : ExportWorld Nat) : Bool :=
  (rowFor 1 finished).isSome &&
    decide ((caseLinks 5 (linksRead 1 steps finished)).map linkedPair = pairs)

/-- Such a run exists if the answers play through and pass the check. -/
theorem exists_answeredExport {entries : List Entry}
    {pairs : List (String × Uuid)}
    (accepted : Accepted Schema.accepts entries)
    (played :
      (trace (exportLedger exportState .stable) (exportingFrom entries)
            linkAgain).any
          (fun run => hasRead pairs run.1 run.2) =
        true) :
    ∃ answered : AnsweredExport exportState .stable 5 DateTime.epoch,
      (caseLinks 5 answered.read).map linkedPair = pairs := by
  rcases exists_path_of_trace linkAgain (hasRead pairs) played with
    ⟨steps, finished, path, moves, check⟩
  simp only [hasRead, Bool.and_eq_true, decide_eq_true_eq,
    Option.isSome_iff_exists] at check
  rcases check with ⟨⟨record, answered⟩, links⟩
  have stays : Stays 1 steps := by
    apply stays_of_moves
    rw [moves]
    simp [linkAgain]
  have reached := reachable_exportingFrom accepted
  rcases exists_exportRow_of_answered reached rfl path stays answered with
    ⟨actor, stored, rfl⟩
  exact
    ⟨{  Client := Nat
        client := 1
        headers := []
        id := 9
        input :=
          { signedBy := "ray \"the\" signer"
            fixedSignedAt := some DateTime.epoch }
        now := DateTime.epoch
        arrived := exportingFrom entries
        finished := finished
        steps := steps
        bundle := _
        pinned := rfl
        reached := reached
        asked := rfl
        path := path
        stays := stays
        answered := answered },
      links⟩

/--
Two exports of a case at one pinned time, in any two runs of ledgers that share
the signing key and the crates, have the same manifest, digest and signature if
the same evidence was linked to the case.
-/
theorem bundle_eq_of_evidence_eq
    {state state' : AppState} {order order' : RowOrder} {caseId : Uuid}
    {signedAt : DateTime}
    (ordered : TotalOrder state.exporter.collation)
    (runtime : state'.service.runtime = state.service.runtime)
    (signing : state'.service.signing = state.service.signing)
    (exporter : state'.exporter = state.exporter)
    (first : AnsweredExport state order caseId signedAt)
    (second : AnsweredExport state' order' caseId signedAt)
    (same : first.evidence = second.evidence) :
    first.bundle.manifestJson = second.bundle.manifestJson ∧
      first.bundle.manifestSha256 = second.bundle.manifestSha256 ∧
        first.bundle.signature = second.bundle.signature := by
  rcases first.exists_bundle_eq with ⟨actor, stored, isRow⟩
  rcases second.exists_bundle_eq with ⟨actor', stored', isRow'⟩
  have pairs :=
    sorted_pairs_eq ordered first.accepted_read second.accepted_read same
  have manifests :=
    @manifestValue_eq_of_pairs state.exporter caseId signedAt _ _ pairs
  rw [isRow, isRow', runtime, signing, exporter]
  simp only [exportRow, manifests, and_self]

/-- Links in two orders by two people give one manifest. -/
theorem bundle_eq_of_openedCaseAgain :
    ∃ first second : AnsweredExport exportState .stable 5 DateTime.epoch,
      (caseLinks 5 first.read).map linkedPair =
          [("\"\\\n", 3), ("run", 3)] ∧
        (caseLinks 5 second.read).map linkedPair =
            [("run", 3), ("\"\\\n", 3)] ∧
          first.bundle.manifestJson = second.bundle.manifestJson := by
  rcases
    @exists_answeredExport openedCase [("\"\\\n", 3), ("run", 3)]
      accepted_openedCase
      (by decide +kernel) with
    ⟨first, links⟩
  rcases
    @exists_answeredExport openedCaseAgain [("run", 3), ("\"\\\n", 3)]
      accepted_openedCaseAgain
      (by decide +kernel) with
    ⟨second, links'⟩
  have evidence : first.evidence = second.evidence := by
    rw [AnsweredExport.evidence, AnsweredExport.evidence, linkedEvidence,
      linkedEvidence, links, links']
    decide
  have ordered : TotalOrder exportState.exporter.collation := totalOrder_le
  have bundles :=
    bundle_eq_of_evidence_eq ordered rfl rfl rfl first second evidence
  exact ⟨first, second, links, links', bundles.1⟩

end Trackward.Ledger.ExportHistories
