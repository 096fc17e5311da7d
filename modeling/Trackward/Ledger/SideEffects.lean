import Trackward.Ledger.DossierLeaves
import Trackward.Ledger.DossierReads
import Trackward.Ledger.Schema

/-!
# Side effects and the invocations they name

A side effect may name the tool invocation that caused it.  The database
demands that the invocation exists, and no more: the run of a side effect is
whatever its request says beside it.  Where all requests name an invocation
together with the run it was recorded for, as the proxy of the gateway does,
the two rows belong to one run, and the dossier of that run has both.
-/

namespace Trackward.Ledger.SideEffects

open Trackward.ChainCore.Chrono
open Trackward.ChainCore.Encode
open Trackward.ChainCore.JsonValue
open Trackward.Ledger.Actor
open Trackward.Ledger.Anchoring
open Trackward.Ledger.Chain
open Trackward.Ledger.Concurrency
open Trackward.Ledger.DossierLeaves
open Trackward.Ledger.DossierReads
open Trackward.Ledger.Dossiers
open Trackward.Ledger.Models
open Trackward.Ledger.Records
open Trackward.Ledger.Routes
open Trackward.Ledger.Schema
open Trackward.Ledger.Writes
open Trackward.Lib.Admission
open Trackward.Lib.Octets
open Trackward.Lib.Programs
open Trackward.Lib.Runs
open Trackward.Lib.Sessions
open Trackward.Lib.Transactions

/-! ## Links between the two tables -/

/-- The named invocation is a row of the side effect's run. -/
def SameRun (entries : List Entry) : Prop :=
  ∀ effect id,
    ChainedRow.sideEffect effect ∈ chainedEntries entries →
      effect.toolInvocationId = some id →
        ∃ invocation,
          ChainedRow.toolInvocation invocation ∈ chainedEntries entries ∧
            invocation.id = id ∧ invocation.runId = effect.runId

/-- The dossier has the invocation that a side effect names. -/
def Lists (found : Dossier) (id : Uuid) : Prop :=
  ∃ invocation,
    ChainedRow.toolInvocation invocation ∈ found.toolInvocations ∧
      invocation.id = id

/-- The dossier has all invocations that its side effects name. -/
def Complete (found : Dossier) : Prop :=
  ∀ effect id,
    ChainedRow.sideEffect effect ∈ found.sideEffects →
      effect.toolInvocationId = some id → Lists found id

/-- All dossiers taken while nothing is committed are complete. -/
def CompleteDossiers (entries : List Entry) : Prop :=
  ∀ order runId found, Takes order runId entries found → Complete found

/-- The invocation a row is or names, with the run of the row. -/
def linked : Entry → Option (Uuid × Uuid)
  | .ofRow (.chained (.toolInvocation row)) => some (row.id, row.runId)
  | .ofRow (.chained (.sideEffect row)) =>
      row.toolInvocationId.map fun id => (id, row.runId)
  | _ => none

/-- The invocation a request records or names, with the run it says. -/
def asked : LedgerRequest → Option (Uuid × Uuid)
  | .write ⟨_, _, .toolInvocation id input⟩ => some (id, input.runId)
  | .write ⟨_, _, .sideEffect _ input⟩ =>
      input.toolInvocationId.map fun id => (id, input.runId)
  | _ => none

/-- The run is the one to which the invocation belongs. -/
def respects (home : Uuid → Uuid) (pair : Option (Uuid × Uuid)) : Bool :=
  pair.all fun said => said.2 = home said.1

/-- All requests name invocations with the runs these belong to. -/
def respectful {Client : Type} (home : Uuid → Uuid)
    (_ : WholeWorld Client)
    (move : Move Client LedgerRequest (Choice Fault)) : Prop :=
  ∀ client request, move = .arrive client request →
    respects home (asked request) = true

/-! ## Sections of a dossier -/

theorem mem_rows_iff {order : RowOrder} {runId : Uuid}
    {entries : List Entry} {found : Dossier}
    (taken : Takes order runId entries found) (table : ChainTable)
    {row : ChainedRow} :
    row ∈ found.rows table ↔
      row ∈ chainedEntries entries ∧
        row.table = table ∧ row.runId = some runId := by
  rw [rows_of_takes taken, sectionRows, (order.perm _ _).mem_iff,
    List.mem_filter, inSection, Bool.and_eq_true, decide_eq_true_eq,
    decide_eq_true_eq]

theorem lists_iff {order : RowOrder} {runId id : Uuid}
    {entries : List Entry} {found : Dossier}
    (taken : Takes order runId entries found) :
    Lists found id ↔
      ∃ invocation,
        ChainedRow.toolInvocation invocation ∈ chainedEntries entries ∧
          invocation.id = id ∧ invocation.runId = runId := by
  constructor
  · rintro ⟨invocation, listed, named⟩
    rcases (mem_rows_iff taken .toolInvocations).mp listed with
      ⟨member, _, inRun⟩
    exact ⟨invocation, member, named, Option.some.inj inRun⟩
  · rintro ⟨invocation, member, named, inRun⟩
    refine ⟨invocation, ?_, named⟩
    apply (mem_rows_iff taken .toolInvocations).mpr
    exact ⟨member, rfl, congrArg some inRun⟩

/-- Rows that are linked within their run make complete dossiers. -/
theorem completeDossiers_of_sameRun {entries : List Entry}
    (same : SameRun entries) : CompleteDossiers entries := by
  intro order runId found taken effect id listed named
  rcases (mem_rows_iff taken .sideEffects).mp listed with
    ⟨member, _, inRun⟩
  rcases same effect id member named with ⟨invocation, there, isNamed, run⟩
  rw [lists_iff taken]
  exact ⟨invocation, there, isNamed, run.trans (Option.some.inj inRun)⟩

/-! ## Requests that name invocations of their run -/

section Requests

variable {home : Uuid → Uuid} {state : AppState} {headers : Headers}

/-- The row agrees with the runs to which the invocations belong. -/
abbrev Fits (home : Uuid → Uuid) (entry : Entry) : Prop :=
  respects home (linked entry) = true

/-- A row of another table fits. -/
theorem fits_of_describes {write : WriteRequest} {row : ChainedRow}
    (described : Describes write row)
    (noInvocation : table write ≠ .toolInvocations)
    (noEffect : table write ≠ .sideEffects) :
    Fits home (.ofRow (.chained row)) := by
  rw [← described.table] at noInvocation noEffect
  cases row with
  | toolInvocation row => exact absurd rfl noInvocation
  | sideEffect row => exact absurd rfl noEffect
  | event | artifact | guardrail | humanApproval | biasSlice => rfl

theorem fits_write {write : WriteRequest}
    (noInvocation : table write ≠ .toolInvocations)
    (noEffect : table write ≠ .sideEffects) :
    (onRows (Routes.write state.service.runtime write)).OnlyCalls
      (Op.Writes (Fits home)) := by
  have only :
      (Routes.write state.service.runtime write).OnlyCalls
        (Op.Writes (Written (.write write))) :=
    writes_write fun row described => ⟨row, rfl, described⟩
  apply writes_onRows only
  rintro _ ⟨row, rfl, described⟩
  exact fits_of_describes described noInvocation noEffect

theorem fits_toolInvocation {actor : String} {id : Uuid}
    {input : CreateToolInvocation}
    (agrees : respects home (some (id, input.runId)) = true) :
    (onRows
      (Routes.write state.service.runtime
        (.toolInvocation actor id input))).OnlyCalls
      (Op.Writes (Fits home)) := by
  have only :
      (createToolInvocation state.service.runtime actor id input).OnlyCalls
        (Op.Writes fun row => Fits home (.ofRow row)) := by
    apply writes_createFrom
    intro columns row minted built
    rcases bind_eq_ok_iff.mp built with ⟨startedAt, _, rest⟩
    rcases bind_eq_ok_iff.mp rest with ⟨finishedAt, _, ⟨⟩⟩
    show respects home (some (columns.id, input.runId)) = true
    rw [minted]
    exact agrees
  exact writes_onRows only fun _ fits => fits

theorem fits_sideEffect {actor : String} {id : Uuid}
    {input : CreateSideEffect}
    (agrees :
      respects home
          (input.toolInvocationId.map fun id => (id, input.runId)) = true) :
    (onRows
      (Routes.write state.service.runtime
        (.sideEffect actor id input))).OnlyCalls
      (Op.Writes (Fits home)) := by
  have only :
      (createSideEffect state.service.runtime actor id input).OnlyCalls
        (Op.Writes fun row => Fits home (.ofRow row)) := by
    apply writes_createFrom
    intro columns row _ built
    rcases bind_eq_ok_iff.mp built with ⟨observedAt, _, ⟨⟩⟩
    exact agrees
  exact writes_onRows only fun _ fits => fits

theorem fits_dispatch {route : WriteRoute} {peer : Option Bytes}
    (agrees : respects home (asked (.write ⟨peer, headers, route⟩)) = true) :
    (dispatch state headers route).OnlyCalls (Op.Writes (Fits home)) := by
  cases route with
  | createRun id input =>
      apply writes_withActor
      intro actor _
      have only :
          (createRun state.service.runtime actor id input).OnlyCalls
            (Op.Writes (Written (.createRun actor id input))) :=
        writes_createRun fun run stamped => ⟨run, rfl, stamped⟩
      apply writes_onRows only
      rintro _ ⟨run, rfl, _⟩
      rfl
  | toolInvocation id input =>
      exact writes_withActor fun actor _ => fits_toolInvocation agrees
  | sideEffect id input =>
      exact writes_withActor fun actor _ => fits_sideEffect agrees
  | event | artifact | guardrail | humanApproval | biasSlice =>
      apply writes_withActor
      intro actor _
      apply fits_write
      · rintro ⟨⟩
      · rintro ⟨⟩
  | record request =>
      apply writes_withActor
      intro actor _
      have only :
          (record state.service.runtime state.service.signing
              state.exporter actor request).OnlyCalls
            (Op.Writes fun entry => ∃ row, entry = .ofRecord row) :=
        writes_record request fun row _ => ⟨row, rfl⟩
      apply writes_onRecords only
      rintro _ ⟨row, rfl⟩
      rfl
  | anchors global runId untilTs now id anchoredAt =>
      have only :
          (trigger state.service.runtime state.service.signing
              state.service.sink global runId untilTs now id
              anchoredAt).OnlyCalls
            (Op.Writes
              (Written (.trigger global runId untilTs now id anchoredAt))) :=
        writes_trigger fun anchor leaves => ⟨anchor, leaves, rfl⟩
      apply writes_onRows only
      rintro _ ⟨anchor, leaves, rfl⟩
      rfl

/-- What a respectful request writes fits. -/
theorem fits_serveAll {order : RowOrder} {request : LedgerRequest}
    (agrees : respects home (asked request) = true) :
    (serveAll state order request).OnlyCalls (Op.Writes (Fits home)) := by
  cases request with
  | dossier headers runId =>
      apply Program.OnlyCalls.mono _ (reads_serveAll state order headers runId)
      intro op reads
      cases op with
      | select => trivial
      | begin | lock | insert | commit | publish | emit => cases reads
  | write request =>
      refine Program.onlyCalls_bind ?_ fun _ => trivial
      unfold handle
      split
      · exact fits_dispatch agrees
      · trivial
  | loopTick now id anchoredAt =>
      refine Program.onlyCalls_bind ?_ fun _ => trivial
      have only :
          (anchorTick state.service.runtime state.service.signing
              state.service.sink
              { scope := .global
                untilTs := now
                id := id
                anchoredAt := anchoredAt }).OnlyCalls
            (Op.Writes (Written (.loopTick now id anchoredAt))) :=
        writes_anchorTick fun anchor leaves => ⟨anchor, leaves, rfl⟩
      apply writes_onRows only
      rintro _ ⟨anchor, leaves, rfl⟩
      rfl

end Requests

/-! ## All runs of the ledger -/

section Ledger

variable {Client : Type} [DecidableEq Client]

/-- All runs of a ledger that starts with empty tables. -/
abbrev freshLedger (state : AppState) (order : RowOrder) :
    System (WholeWorld Client)
      (Move Client LedgerRequest (Choice Fault)) :=
  wholeLedger state order Schema.accepts fun entries => entries = []

variable {state : AppState} {order : RowOrder}
variable {world : WholeWorld Client}
variable
  {permitted :
    WholeWorld Client → Move Client LedgerRequest (Choice Fault) → Prop}

/-- The rows of a fresh ledger satisfy the constraints. -/
theorem accepted_of_fresh
    (reached : Reachable (freshLedger state order) permitted world) :
    Accepted Schema.accepts world.shared.committed := by
  apply accepted_of_reachable _ reached
  rintro shared ⟨empty, _⟩
  rw [empty]
  exact accepted_nil

/-- Respectful requests link side effects within their run. -/
theorem sameRun_of_respectful {home : Uuid → Uuid}
    (reached : Reachable (freshLedger state order) (respectful home) world) :
    SameRun world.shared.committed := by
  have kept : Kept (Gate.rows (Fits home)) world := by
    refine kept_of_permitted ?_ ?_ reached
    · rintro shared ⟨empty, quiet, _⟩
      refine ⟨fun row member => ?_, quiet, fun _ _ => trivial⟩
      rw [empty] at member
      cases member
    · intro before client request letIn
      exact gated_of_writes (fits_serveAll (letIn client request rfl))
  intro effect id member named
  rcases
      invocation_of_sideEffect (accepted_of_fresh reached) member named with
    ⟨before, after, invocation, split, earlier, isNamed⟩
  have there :
      Entry.ofRow (.chained (.toolInvocation invocation)) ∈
        world.shared.committed := by
    rw [split]
    exact List.mem_append_left _ (mem_chainedEntries.mp earlier)
  refine ⟨invocation, mem_chainedEntries.mpr there, isNamed, ?_⟩
  have effectFits := kept.committed _ (mem_chainedEntries.mp member)
  have invocationFits := kept.committed _ there
  simp only [Gate.rows, Fits, linked, respects, named, Option.map_some,
    Option.all_some, decide_eq_true_eq] at effectFits invocationFits
  rw [invocationFits, effectFits, isNamed]

end Ledger

/-! ## An invocation and a side effect -/

/-- A request to write to the open ledger. -/
def writingTo (client : Nat) (now : Int) (count : Nat) (route : WriteRoute) :
    List (Move Nat LedgerRequest (Choice Fault)) :=
  .arrive client (writing route) :: answersAt client now count

/-- A run is created. -/
def creating (client : Nat) (now : Int) (id : Uuid) :
    List (Move Nat LedgerRequest (Choice Fault)) :=
  writingTo client now 1
    (.createRun id
      { agent := "agent"
        startedAt := DateTime.epoch
        metadata := Json.null })

/--
Two runs, an invocation with the id 1 of the run 7, and a side effect that
names it.
-/
def linking (effectRun : Uuid) :
    List (Move Nat LedgerRequest (Choice Fault)) :=
  creating 1 1 7 ++ creating 2 2 8 ++
    writingTo 3 3 5
      (.toolInvocation 1
        { runId := 7
          tool := "mail"
          input := Json.null
          output := Json.null
          status := "ok"
          statusCode := none
          startedAt := DateTime.epoch
          finishedAt := DateTime.epoch
          metadata := Json.null }) ++
      writingTo 4 4 5
        (.sideEffect 2
          { runId := effectRun
            toolInvocationId := some 1
            kind := "email"
            target := "someone"
            status := "sent"
            confirmation := Json.null
            observedAt := DateTime.epoch })

/-- The guard of the respectful requests. -/
def agreeing (home : Uuid → Uuid) (_ : WholeWorld Nat)
    (move : Move Nat LedgerRequest (Choice Fault)) : Bool :=
  match move with
  | .arrive _ request => respects home (asked request)
  | _ => true

theorem respectful_of_agreeing (home : Uuid → Uuid) (world : WholeWorld Nat)
    (move : Move Nat LedgerRequest (Choice Fault))
    (agrees : agreeing home world move = true) :
    respectful home world move := by
  rintro client request rfl
  exact agrees

/-- An empty database with no client. -/
def blank : WholeWorld Nat where
  shared :=
    { committed := []
      pending := fun _ => []
      holder := fun _ => none
      clock := 0
      emitted := [] }
  sessions := fun _ => none

theorem initial_blank : (freshLedger openState .stable).initial blank :=
  ⟨⟨rfl, fun _ => rfl, fun _ => rfl⟩, fun _ => rfl⟩

/-- The row is a side effect of the run that names the invocation 1. -/
def names (runId : Uuid) (row : ChainedRow) : Bool :=
  match row with
  | .sideEffect effect =>
      effect.toolInvocationId = some 1 && effect.runId = runId
  | _ => false

/-! ## Links in every reachable state -/

/--
A side effect that names an invocation stands on top of that invocation, which
the dossier of its run has exactly if it is of the same run.  It is whenever
all requests name invocations with the runs these belong to.
-/
theorem sideEffects_refer
    {Client : Type} [DecidableEq Client] (state : AppState)
    (order : RowOrder) {world : WholeWorld Client}
    (reached : Reachable (freshLedger state order) unrestricted world) :
    (∀ effect id,
        ChainedRow.sideEffect effect ∈
            chainedEntries world.shared.committed →
          effect.toolInvocationId = some id →
            ∃ before after invocation,
              world.shared.committed =
                  before ++ .ofRow (.chained (.sideEffect effect)) :: after ∧
                ChainedRow.toolInvocation invocation ∈
                    chainedEntries before ∧
                  invocation.id = id ∧
                    ∀ order' found,
                      Takes order' effect.runId world.shared.committed
                          found →
                        (Lists found id ↔
                          invocation.runId = effect.runId)) ∧
      ∀ home,
        Reachable (freshLedger state order) (respectful home) world →
          SameRun world.shared.committed ∧
            CompleteDossiers world.shared.committed := by
  have accepted := accepted_of_fresh reached
  constructor
  · intro effect id member named
    rcases invocation_of_sideEffect accepted member named with
      ⟨before, after, invocation, split, earlier, isNamed⟩
    refine ⟨before, after, invocation, split, earlier, isNamed, ?_⟩
    have there :
        ChainedRow.toolInvocation invocation ∈
          chainedEntries world.shared.committed := by
      rw [mem_chainedEntries, split]
      exact List.mem_append_left _ (mem_chainedEntries.mp earlier)
    intro order' found taken
    rw [lists_iff taken]
    constructor
    · rintro ⟨other, member', isNamed', inRun⟩
      have same :=
        eq_of_id_eq accepted there member' rfl (isNamed.trans isNamed'.symm)
      rw [ChainedRow.toolInvocation.injEq] at same
      rw [same]
      exact inRun
    · intro inRun
      exact ⟨invocation, there, isNamed, inRun⟩
  · intro home respected
    have same := sameRun_of_respectful respected
    exact ⟨same, completeDossiers_of_sameRun same⟩

/-- A side effect of the run 7 in a complete ledger. -/
theorem sideEffects_refer_linking :
    ∃ world : WholeWorld Nat,
      Reachable (freshLedger openState .stable) unrestricted world ∧
        (chainedEntries world.shared.committed).any (names 7) = true ∧
          SameRun world.shared.committed ∧
            CompleteDossiers world.shared.committed := by
  rcases
      Reachable.exists_of_replay (respectful_of_agreeing fun _ => 7)
        initial_blank (linking 7)
        (fun world => (chainedEntries world.shared.committed).any (names 7))
        (by decide +kernel) with
    ⟨world, reached, named⟩
  have free : Reachable (freshLedger openState .stable) unrestricted world :=
    reached.weaken fun _ _ _ => trivial
  exact ⟨world, free, named,
    (sideEffects_refer openState .stable free).2 (fun _ => 7) reached⟩

/-- The run 8 exists and has the side effect, but no invocation. -/
def strays (world : WholeWorld Nat) : Bool :=
  runExists (rowsOf world.shared.committed) 8 &&
    (chainedEntries world.shared.committed).any (names 8) &&
      (chainedEntries world.shared.committed).all fun row =>
        row.table ≠ .toolInvocations || row.runId ≠ some 8

/-- A side effect of the run 8 names an invocation of the run 7. -/
theorem not_sameRun_of_linking :
    ∃ world : WholeWorld Nat,
      Reachable (freshLedger openState .stable) unrestricted world ∧
        ¬ SameRun world.shared.committed ∧
          ¬ CompleteDossiers world.shared.committed := by
  rcases
      Reachable.exists_of_replay unrestricted_of_anyMove initial_blank
        (linking 8) strays (by decide +kernel) with
    ⟨world, reached, check⟩
  simp only [strays, Bool.and_eq_true] at check
  rcases check with ⟨⟨present, named⟩, elsewhere⟩
  have incomplete : ¬ CompleteDossiers world.shared.committed := by
    intro complete
    rcases exists_takes .stable present with ⟨found, taken⟩
    rcases List.any_eq_true.mp named with ⟨row, member, isEffect⟩
    cases row with
    | event | artifact | toolInvocation | guardrail | humanApproval
    | biasSlice => cases isEffect
    | sideEffect effect =>
        simp only [names, Bool.and_eq_true, decide_eq_true_eq] at isEffect
        have listed : ChainedRow.sideEffect effect ∈ found.sideEffects :=
          (mem_rows_iff taken .sideEffects).mpr
            ⟨member, rfl, congrArg some isEffect.2⟩
        have lists := complete .stable 8 found taken effect 1 listed isEffect.1
        rcases (lists_iff taken).mp lists with
          ⟨invocation, there, _, inRun⟩
        have other := List.all_eq_true.mp elsewhere _ there
        simp [ChainedRow.table, ChainedRow.runId, inRun] at other
  refine ⟨world, reached, ?_, incomplete⟩
  intro same
  exact incomplete (completeDossiers_of_sameRun same)

end Trackward.Ledger.SideEffects
