import Trackward.Ledger.Actor
import Trackward.Ledger.VersionRegistry
import Mathlib.Data.List.Sort

/-!
# What the ledger says of versions

Registering a version answers with its row, which was there or is new.  The
evaluations of a version are listed from the last to the first; the database
leaves evaluations of one time in any order, and `EvalOrder` is such a choice.

Whatever these routes answer was read from the database or written to it.
-/

namespace Trackward.Ledger.VersionAnswers

open Trackward.ChainCore.Encode
open Trackward.Ledger.Actor
open Trackward.Ledger.Records
open Trackward.Ledger.VersionRegistry
open Trackward.Lib.CheckThenInsert
open Trackward.Lib.Programs

/-! ## Registering a version -/

/-- Admit a request to register a version, find the caller and serve it. -/
def registering (state : AppState) (headers : Headers)
    (request : String → VersionRequest) : Program wholeDb HttpError Record :=
  if requireBearer state.authToken headers then
    match fromRequestParts state.defaultActor headers with
    | .ok actor =>
        (createVersion state.service.runtime (request actor)).mapError .exit
    | .error rejection => .raise (.actor rejection)
  else .raise .unauthorized

/-- A version is looked for, then published. -/
theorem onlyCalls_registering {state : AppState} {headers : Headers}
    {request : String → VersionRequest} {allowed : wholeDb.Op → Prop}
    (select : allowed .select)
    (publish :
      ∀ actor,
        allowed
          (.publish
            (.ofRecord ((request actor).row state.service.runtime)))) :
    (registering state headers request).OnlyCalls allowed := by
  unfold registering
  split
  · cases fromRequestParts state.defaultActor headers with
    | error rejection => trivial
    | ok actor =>
        have own := publish actor
        refine Program.onlyCalls_mapError ?_
        cases made : request actor with
        | prompt actor id input | policy actor id input =>
            rw [made] at own
            apply onlyCalls_select_bind select
            intro known
            dsimp only
            split
            · trivial
            · exact onlyCalls_insertRecord own
  · trivial

/-- A version that is answered is the one asked for, and on record. -/
theorem onRecord_of_registering {state : AppState} {headers : Headers}
    {request : String → VersionRequest} {key : VersionKey}
    (same : ∀ actor, (request actor).key = key)
    {events : List (Program.Event wholeDb)} {record : Record}
    (ran :
      (registering state headers request).Executes events (.ok record)) :
    isVersion key record = true ∧ OnRecord events (Entry.ofRecord record) := by
  unfold registering at ran
  cases passed : requireBearer state.authToken headers with
  | false =>
      rw [passed, if_neg Bool.false_ne_true] at ran
      cases ran
  | true =>
      rw [passed, if_pos rfl] at ran
      cases named : fromRequestParts state.defaultActor headers with
      | error rejection =>
          rw [named] at ran
          cases ran
      | ok actor =>
          rw [named] at ran
          have served := Program.executes_of_mapError ran
          rw [createVersion_eq_register state.service.runtime
            ⟨request actor, same actor⟩] at served
          exact onRecord_of_register (isVersion_row _) served

/-! ## Listing evaluations -/

/-- The evaluation in a record. -/
def evalResult? : Record → Option EvalResult
  | .evalResult row => some row
  | _ => none

/-- How the database carries out the ORDER BY of the list. -/
structure EvalOrder where
  sort : List EvalResult → List EvalResult
  perm : ∀ rows, (sort rows).Perm rows
  sorted :
    ∀ rows,
      (sort rows).Pairwise fun first second =>
        second.ranAt.micros ≤ first.ranAt.micros

/-- Evaluations of one time in the order in which they were read. -/
def EvalOrder.stable : EvalOrder where
  sort :=
    List.insertionSort fun first second =>
      second.ranAt.micros ≤ first.ranAt.micros
  perm := List.perm_insertionSort _
  sorted := by
    intro rows
    have total :
        Std.Total fun first second : EvalResult =>
          second.ranAt.micros ≤ first.ranAt.micros :=
      ⟨fun _ _ => Int.le_total _ _⟩
    have transitive :
        IsTrans EvalResult fun first second =>
          second.ranAt.micros ≤ first.ranAt.micros :=
      ⟨fun _ _ _ before after => Int.le_trans after before⟩
    exact List.pairwise_insertionSort _ rows

/-- The filters of the list; one that is left out admits every row. -/
structure ListQuery where
  workflow : Option String
  version : Option String
  promptVersionId : Option Uuid

/-- The row passes the filters. -/
def ListQuery.admits (query : ListQuery) (row : EvalResult) : Bool :=
  query.workflow.all (fun workflow => row.workflow = workflow) &&
    query.version.all (fun version => row.version = version) &&
      query.promptVersionId.all fun id => row.promptVersionId = some id

/-- The rows of the list. -/
def listed (order : EvalOrder) (query : ListQuery) (entries : List Entry) :
    List EvalResult :=
  (order.sort
    (((records entries).filterMap evalResult?).filter query.admits)).take 100

/-- `eval_results::list`. -/
def list (order : EvalOrder) (query : ListQuery) :
    RecordHandler (List EvalResult) := do
  let known ← select
  return listed order query known

/-- Admit a request to list evaluations and serve it. -/
def listing (state : AppState) (order : EvalOrder) (headers : Headers)
    (query : ListQuery) : Program wholeDb HttpError (List EvalResult) :=
  if requireBearer state.authToken headers then
    (list order query).mapError .exit
  else .raise .unauthorized

theorem onlyCalls_listing {state : AppState} {order : EvalOrder}
    {headers : Headers} {query : ListQuery} {allowed : wholeDb.Op → Prop}
    (permitted : allowed .select) :
    (listing state order headers query).OnlyCalls allowed := by
  unfold listing
  split
  · exact
      Program.onlyCalls_mapError
        (onlyCalls_select_bind permitted fun _ => trivial)
  · trivial

/-- What is listed was read by one statement. -/
theorem select_of_listing {state : AppState} {order : EvalOrder}
    {headers : Headers} {query : ListQuery}
    {events : List (Program.Event wholeDb)} {rows : List EvalResult}
    (ran :
      (listing state order headers query).Executes events (.ok rows)) :
    ∃ known : List Entry,
      ⟨.select, .ok known⟩ ∈ events ∧ rows = listed order query known := by
  unfold listing at ran
  cases passed : requireBearer state.authToken headers with
  | false =>
      rw [passed, if_neg Bool.false_ne_true] at ran
      cases ran
  | true =>
      rw [passed, if_pos rfl] at ran
      rcases executes_attempt_bind (Program.executes_of_mapError ran) with
        ⟨known, rest, rfl, answered⟩
      rcases Program.executes_done_iff.mp answered with ⟨rfl, same⟩
      cases same
      exact ⟨known, List.mem_cons_self, rfl⟩

/-- The last evaluation of a version among some rows, if there is one. -/
inductive Latest (entries : List Entry) (workflow version : String) :
    Option EvalResult → Prop where
  | none
      (absent :
        ∀ row, .ofRecord (.evalResult row) ∈ entries →
          row.workflow = workflow → row.version ≠ version) :
      Latest entries workflow version none
  | some {row : EvalResult}
      (member : .ofRecord (.evalResult row) ∈ entries)
      (ofWorkflow : row.workflow = workflow)
      (ofVersion : row.version = version)
      (last :
        ∀ other, .ofRecord (.evalResult other) ∈ entries →
          other.workflow = workflow → other.version = version →
            other.ranAt.micros ≤ row.ranAt.micros) :
      Latest entries workflow version (some row)

theorem mem_evaluations {entries : List Entry} {row : EvalResult} :
    row ∈ (records entries).filterMap evalResult? ↔
      .ofRecord (.evalResult row) ∈ entries := by
  simp only [records, List.mem_filterMap]
  constructor
  · rintro ⟨record, ⟨entry, member, isRecord⟩, isRow⟩
    cases entry <;> cases isRecord
    cases record <;> cases isRow
    exact member
  · intro member
    exact ⟨.evalResult row, ⟨_, member, rfl⟩, rfl⟩

/-- The list starts with the last evaluation. -/
theorem latest_head (order : EvalOrder) (entries : List Entry)
    (workflow version : String) :
    Latest entries workflow version
      (listed order ⟨some workflow, some version, none⟩ entries).head? := by
  unfold listed
  generalize rows :
    ((records entries).filterMap evalResult?).filter
        (ListQuery.admits ⟨some workflow, some version, none⟩) =
      admitted
  have mem_iff {row : EvalResult} :
      row ∈ order.sort admitted ↔
        .ofRecord (.evalResult row) ∈ entries ∧
          row.workflow = workflow ∧ row.version = version := by
    rw [(order.perm admitted).mem_iff, ← rows]
    rw [List.mem_filter, mem_evaluations]
    simp [ListQuery.admits]
  have sorted := order.sorted admitted
  cases here : order.sort admitted with
  | nil =>
      refine .none fun row member ofWorkflow ofVersion => ?_
      have listed := mem_iff.mpr ⟨member, ofWorkflow, ofVersion⟩
      rw [here] at listed
      cases listed
  | cons first others =>
      rw [here] at sorted mem_iff
      rcases mem_iff.mp List.mem_cons_self with
        ⟨member, ofWorkflow, ofVersion⟩
      refine .some member ofWorkflow ofVersion fun other there w v => ?_
      rcases List.mem_cons.mp (mem_iff.mpr ⟨there, w, v⟩) with rfl | later
      · exact Int.le_refl _
      · exact List.rel_of_pairwise_cons sorted later

end Trackward.Ledger.VersionAnswers
