import Trackward.Ledger.Answers
import Trackward.Ledger.EventSequence
import Trackward.Ledger.SideEffects
import Trackward.Lib.DatabaseParts

/-!
# The chained tables by themselves

Runs, chained rows and anchors are what the chains, the sequence numbers and
the anchors are about.  The handlers of these tables see nothing else of the
database, the others take no lock and write no such row, and the constraints
that reach into the remaining tables only refuse more.  So whatever the whole
router does to these tables, behind its gate and for the callers it finds, is
what requests to these tables alone can do.
-/

namespace Trackward.Ledger.RowTables

open Trackward.ChainCore.Encode
open Trackward.Ledger.Actor
open Trackward.Ledger.Anchoring
open Trackward.Ledger.Answers
open Trackward.Ledger.Chain
open Trackward.Ledger.Concurrency
open Trackward.Ledger.DossierReads
open Trackward.Ledger.Dossiers
open Trackward.Ledger.EventSequence
open Trackward.Ledger.Models
open Trackward.Ledger.Records
open Trackward.Ledger.Routes
open Trackward.Ledger.SideEffects
open Trackward.Lib.DatabaseParts
open Trackward.Lib.Growth
open Trackward.Lib.Programs
open Trackward.Lib.Runs
open Trackward.Lib.Sessions
open Trackward.Lib.Transactions

/-! ## The tables -/

/-- What is accepted of a row is accepted without the remaining tables. -/
theorem isPart_rows :
    IsPart Entry.ofRow Entry.row? Schema.accepts Models.schema where
  part_inject := fun _ => rfl
  accepts_part := by
    intro entries entry row isRow accepted
    cases entry with
    | ofRecord record => cases isRow
    | ofRow own =>
        cases isRow
        rw [Schema.accepts, Bool.and_eq_true] at accepted
        exact accepted.1

/-! ## Requests to the tables -/

/-- What a write asks of the tables, if the caller is known where it must be. -/
def askedBy (state : AppState) (headers : Headers) :
    WriteRoute → Option Concurrency.Request
  | .createRun id input =>
      (fromRequestParts state.defaultActor headers).toOption.map fun actor =>
        .createRun actor id input
  | .record _ => none
  | .anchors global runId untilTs now id anchoredAt =>
      some (.trigger global runId untilTs now id anchoredAt)
  | route =>
      (writeOf route).bind fun request =>
        (fromRequestParts state.defaultActor headers).toOption.map
          fun actor => .write (request actor)

/-- What a request asks of the tables, if the gate lets it pass. -/
def asks (state : AppState) : LedgerRequest → Option Concurrency.Request
  | .dossier _ _ => none
  | .write request =>
      if requireBearer state.authToken request.headers then
        askedBy state request.headers request.route
      else none
  | .loopTick now id anchoredAt => some (.loopTick now id anchoredAt)

/-- The statement is outside the tables. -/
abbrev Elsewhere : Op Int64 Entry Effect → Prop :=
  Outside Entry.row?

/-- A handler of a record reads, and publishes the record. -/
theorem elsewhere_record {runtime : Runtime} {signing : SigningService}
    {exporter : Export} {actor : String} (request : RecordRequest) :
    (record runtime signing exporter actor request).OnlyCalls Elsewhere := by
  cases request with
  | promptVersion id input | policyVersion id input =>
      apply onlyCalls_select_bind trivial
      intro known
      dsimp only
      split
      · trivial
      · exact onlyCalls_insertRecord rfl
  | evalResult id input | custodyEvent id input | case id input
  | caseEvidence caseId input =>
      apply onlyCalls_liftRecord_bind
      intro stored
      exact onlyCalls_insertRecord rfl
  | binding runId input =>
      apply onlyCalls_select_bind trivial
      intro known
      split
      · exact onlyCalls_insertRecord rfl
      · trivial
  | exportBundle id caseId input now =>
      apply onlyCalls_select_bind trivial
      intro known
      split
      · apply onlyCalls_select_bind trivial
        intro linked
        apply onlyCalls_liftRecord_bind
        intro stored
        exact onlyCalls_insertRecord rfl
      · trivial

theorem elsewhere_onRecords {α : Type} {handler : RecordHandler α}
    (only : handler.OnlyCalls Elsewhere) :
    (onRecords handler).OnlyCalls Elsewhere := by
  refine Program.onlyCalls_bind ?_ fun _ => trivial
  refine Program.onlyCalls_translate (fun call outside => ?_) only
  cases call with
  | select => trivial
  | publish row => exact outside
  | begin | lock | insert | commit | emit => exact outside.elim

/-- The endpoint answers no dossier. -/
abbrev silently (endpoint : Endpoint) :
    Program wholeDb HttpError (Option Dossier) :=
  endpoint >>= fun _ => .done none

/-- What a request does, at the tables or elsewhere. -/
abbrev SplitsRows (program : Program wholeDb HttpError (Option Dossier))
    (own : Option (Handler (Option Row))) : Prop :=
  Splits Entry.ofRow Entry.row? HttpError.exit program own

/-- A handler of the tables is run on the whole database. -/
theorem splits_onRows {α : Type} (handler : Handler α)
    (there : α → Option Row) :
    SplitsRows (silently (onRows handler))
      (some (handler >>= fun value => .done (there value))) := by
  rw [silently, onRows, Program.bind_assoc]
  exact .within handler (fun _ => none) there

variable {state : AppState}

/-- The caller is found, or the request ends. -/
theorem splits_withActor {headers : Headers} {handler : String → Endpoint}
    {own : String → Handler (Option Row)}
    (splits :
      ∀ actor, SplitsRows (silently (handler actor)) (some (own actor))) :
    SplitsRows (silently (withActor state headers handler))
      ((fromRequestParts state.defaultActor headers).toOption.map own) := by
  unfold withActor
  cases fromRequestParts state.defaultActor headers with
  | ok actor => exact splits actor
  | error rejection => exact .outside trivial

/-- Every route is one of the tables, or it stays outside. -/
theorem splits_dispatch {headers : Headers} (route : WriteRoute) :
    SplitsRows (silently (dispatch state headers route))
      ((askedBy state headers route).map (serve state.service)) := by
  cases route with
  | createRun id input =>
      rw [askedBy, Option.map_map]
      exact splits_withActor fun actor => splits_onRows _ _
  | event | artifact | toolInvocation | sideEffect | guardrail
  | humanApproval | biasSlice =>
      simp only [askedBy, writeOf, Option.bind_some, Option.map_map]
      exact splits_withActor fun actor => splits_onRows _ _
  | record request =>
      refine .outside (Program.onlyCalls_bind ?_ fun _ => trivial)
      unfold dispatch withActor
      cases fromRequestParts state.defaultActor headers with
      | ok actor => exact elsewhere_onRecords (elsewhere_record request)
      | error rejection => trivial
  | anchors global runId untilTs now id anchoredAt =>
      exact splits_onRows _ _

/-- So is every request. -/
theorem splits_serveAll (order : RowOrder) (request : LedgerRequest) :
    SplitsRows (serveAll state order request)
      ((asks state request).map (serve state.service)) := by
  cases request with
  | dossier headers runId =>
      apply Splits.outside
      apply Program.OnlyCalls.mono _ (reads_serveAll state order headers runId)
      intro op reads
      cases op with
      | select => trivial
      | begin | lock | insert | commit | publish | emit => cases reads
  | write request =>
      rw [serveAll, asks, handle]
      split
      · exact splits_dispatch request.route
      · exact .outside trivial
  | loopTick now id anchoredAt => exact splits_onRows _ _

/-! ## All runs of the router -/

section Runs

variable {Client : Type} [DecidableEq Client] {order : RowOrder}
variable {base : List Entry → Prop} {world : WholeWorld Client}
variable
  {permitted :
    WholeWorld Client → Move Client LedgerRequest (Choice Fault) → Prop}

/-- The rows of these tables with which the ledger starts. -/
def rowsOfBase (base : List Entry → Prop) (rows : List Row) : Prop :=
  ∃ entries, base entries ∧ rows = entries.filterMap Entry.row?

/-- A run of the whole ledger is one of these tables. -/
theorem exists_own
    (reached :
      Reachable (wholeLedger state order Schema.accepts base) permitted
        world) :
    ∃ own : LedgerWorld Client,
      Shares Entry.ofRow Entry.row? HttpError.exit (asks state) Models.schema
        (serve state.service) (Protocol.atRest (rowsOfBase base)) world
        own := by
  refine exists_shares isPart_rows (splits_serveAll order) ?_ reached
  intro shared atRest
  have resting :
      Protocol.atRest (rowsOfBase base) (partOf Entry.row? shared) := by
    refine ⟨⟨shared.committed, atRest.1, rfl⟩, fun client => ?_, atRest.2.2⟩
    simp [partOf, atRest.2.1 client]
  exact ⟨resting, Resting.of_atRest resting⟩

/-- The events of a run are numbered whatever else the ledger does. -/
theorem seqs_of_whole {runId : Uuid}
    (fresh :
      ∀ entries, base entries →
        eventsOf runId (entries.filterMap Entry.row?) = [])
    (reached :
      Reachable (wholeLedger state order Schema.accepts base) permitted
        world) :
    seqs runId (world.shared.committed.filterMap Entry.row?) =
      countTo
        (seqs runId (world.shared.committed.filterMap Entry.row?)).length := by
  rcases exists_own reached with ⟨own, shares⟩
  have starts :
      ∀ rows, rowsOfBase base rows → eventsOf runId rows = [] := by
    rintro _ ⟨entries, isBase, rfl⟩
    exact fresh entries isBase
  have numbered := seqs_eq_countTo_of_reachable starts shares.reached
  rw [shares.shared] at numbered
  exact numbered

/-- A run, an invocation and a side effect in it, and a case. -/
def mixedMoves : List (Move Nat LedgerRequest (Choice Fault)) :=
  linking 7 ++
    writingTo 5 5 1
      (.record
        (.case 9
          { title := "case"
            description := ""
            openedBy := "someone"
            openedAt := .epoch
            metadata := .null }))

/--
Whatever the whole router does, the tables of runs, chained rows and anchors go
through a run of their own: with the same rows, locks and effects, and with the
requests that have passed the gate and come from a caller who is known.
-/
theorem tables_refined
    (reached :
      Reachable (wholeLedger state order Schema.accepts base) permitted
        world) :
    ∃ rows : LedgerWorld Client,
      Reachable (ledger state.service (rowsOfBase base)) unrestricted rows ∧
        rows.shared = partOf Entry.row? world.shared ∧
          ∀ client,
            (rows.sessions client).map Session.request =
              (world.sessions client).bind fun session =>
                asks state session.request := by
  rcases exists_own reached with ⟨own, shares⟩
  exact
    ⟨own, shares.reached, shares.shared, fun client =>
      (shares.fits client).request_eq⟩

/-- Four of the five rows are rows of these tables. -/
theorem tables_refined_mixedMoves :
    ∃ (world : WholeWorld Nat) (rows : LedgerWorld Nat),
      Reachable (freshLedger openState .stable) unrestricted world ∧
        world.shared.committed.length = 5 ∧
          Reachable
              (ledger openState.service
                (rowsOfBase fun entries => entries = []))
              unrestricted rows ∧
            rows.shared.committed.length = 4 := by
  rcases
      Reachable.exists_of_replay unrestricted_of_anyMove initial_blank
        mixedMoves
        (fun world =>
          world.shared.committed.length = 5 &&
            (world.shared.committed.filterMap Entry.row?).length = 4)
        (by decide +kernel) with
    ⟨world, reached, counted⟩
  simp only [Bool.and_eq_true, decide_eq_true_eq] at counted
  rcases tables_refined reached with ⟨rows, alone, same, _⟩
  refine ⟨world, rows, reached, counted.1, alone, ?_⟩
  rw [same]
  exact counted.2

end Runs

end Trackward.Ledger.RowTables
