import Trackward.Ledger.Concurrency

/-!
# What the handlers write

A handler writes no other rows than those its request describes: rows of the
table of the route, in the run of the request, with the caller as their actor.
An anchor tick writes anchors only.  What such rows satisfy is thereby a
property of everything a handler can do, whatever the database answers.
-/

namespace Trackward.Ledger.Writes

open Trackward.ChainCore.Chrono
open Trackward.ChainCore.Encode
open Trackward.Ledger.Anchoring
open Trackward.Ledger.Chain
open Trackward.Ledger.Concurrency
open Trackward.Ledger.Models
open Trackward.Ledger.Routes
open Trackward.Lib.Octets
open Trackward.Lib.Programs
open Trackward.Lib.Transactions

/-! ## The rows a request describes -/

/-- The actor a row was written for. -/
def actorId : ChainedRow → String
  | .event row => row.actorId
  | .artifact row => row.actorId
  | .toolInvocation row => row.actorId
  | .sideEffect row => row.actorId
  | .guardrail row => row.actorId
  | .humanApproval row => row.actorId
  | .biasSlice row => row.actorId

/-- The caller of a write request. -/
def actor : WriteRequest → String
  | .event actor _ _ _ => actor
  | .artifact actor _ _ => actor
  | .toolInvocation actor _ _ => actor
  | .sideEffect actor _ _ => actor
  | .guardrail actor _ _ => actor
  | .humanApproval actor _ => actor
  | .biasSlice actor _ _ => actor

/-- The table a write request goes to. -/
def table : WriteRequest → ChainTable
  | .event _ _ _ _ => .events
  | .artifact _ _ _ => .artifacts
  | .toolInvocation _ _ _ => .toolInvocations
  | .sideEffect _ _ _ => .sideEffects
  | .guardrail _ _ _ => .guardrails
  | .humanApproval _ _ => .humanApprovals
  | .biasSlice _ _ _ => .biasSlices

/-- The run a write request names; an upload names it in a part. -/
def namedRun : WriteRequest → Option Uuid
  | .event _ _ runId _ => some runId
  | .artifact _ _ _ => none
  | .toolInvocation _ _ input => some input.runId
  | .sideEffect _ _ input => some input.runId
  | .guardrail _ _ input => some input.runId
  | .humanApproval _ input => some input.runId
  | .biasSlice _ _ input => input.runId

/-- The row is one the request may write. -/
structure Describes (write : WriteRequest) (row : ChainedRow) : Prop where
  table : row.table = table write
  actor : actorId row = actor write
  run : ∀ runId, namedRun write = some runId → row.runId = some runId

/-! ## Statements of the handlers -/

section Handlers

variable {allowed : Row → Prop} {effects : Effect → Prop}
variable {runtime : Runtime}

theorem does_liftExcept {α : Type} (result : Except Exit α) :
    (liftExcept result).OnlyCalls (Op.Does allowed effects) := by
  cases result <;> trivial

theorem does_insertRow {wrap : Fault → Exit} {row : ChainedRow}
    (permitted : allowed (.chained row)) :
    (insertRow wrap row).OnlyCalls (Op.Does allowed effects) :=
  Program.onlyCalls_bind (onlyCalls_attempt permitted) fun _ =>
    Program.onlyCalls_bind (onlyCalls_attempt trivial) fun _ => trivial

/-- A draft is inserted as the row it builds. -/
theorem does_insertDraft
    {wrap : Fault → Exit} {createdAt : Int} {draft : Draft}
    (permitted :
      ∀ columns row, columns.id = draft.id →
        draft.build columns = .ok row → allowed (.chained row)) :
    (insertDraft runtime wrap createdAt draft).OnlyCalls
      (Op.Does allowed effects) := by
  refine Program.onlyCalls_bind (Program.onlyCalls_bind
    (onlyCalls_attempt trivial) fun _ =>
      Program.onlyCalls_bind (onlyCalls_attempt trivial) fun _ =>
        does_liftExcept _) fun link => ?_
  cases built : draft.build _ with
  | error exit => trivial
  | ok row => exact does_insertRow (permitted _ _ rfl built)

theorem does_createFrom {wrap : Fault → Exit} {draft : Draft}
    (permitted :
      ∀ columns row, columns.id = draft.id →
        draft.build columns = .ok row → allowed (.chained row)) :
    (createFrom runtime wrap draft).OnlyCalls (Op.Does allowed effects) :=
  Program.onlyCalls_bind (onlyCalls_attempt trivial) fun _ =>
    does_insertDraft permitted

theorem does_appendEvent {actor : String} {id runId : Uuid}
    {input : CreateEvent}
    (permitted :
      ∀ row, Describes (.event actor id runId input) row →
        allowed (.chained row)) :
    (appendEvent runtime actor id runId input).OnlyCalls
      (Op.Does allowed effects) := by
  refine Program.onlyCalls_bind (onlyCalls_attempt trivial) fun _ =>
    Program.onlyCalls_bind (onlyCalls_attempt trivial) fun _ =>
      Program.onlyCalls_bind (onlyCalls_attempt trivial) fun known => ?_
  split
  · refine Program.onlyCalls_bind (onlyCalls_attempt trivial) fun _ =>
      Program.onlyCalls_bind (does_liftExcept _) fun _ =>
        does_insertDraft fun columns row _ built => permitted row ?_
    rcases bind_eq_ok_iff.mp built with ⟨occurredAt, _, ⟨⟩⟩
    exact ⟨rfl, rfl, fun _ named => named⟩
  · trivial

theorem does_uploadArtifact {actor : String} {id : Uuid}
    {parts : List (Except String Part)}
    (permitted :
      ∀ row, Describes (.artifact actor id parts) row →
        allowed (.chained row))
    (stores : ∀ data, effects (.blob (sha256Hex runtime data) data)) :
    (uploadArtifact runtime actor id parts).OnlyCalls
      (Op.Does allowed effects) := by
  refine Program.onlyCalls_bind (does_liftExcept _) fun _ =>
    Program.onlyCalls_bind (does_liftExcept _) fun _ =>
      Program.onlyCalls_bind (does_liftExcept _) fun data =>
        Program.onlyCalls_bind (onlyCalls_attempt (stores data)) fun _ =>
          Program.onlyCalls_bind (onlyCalls_attempt trivial) fun _ =>
            does_insertDraft fun columns row _ built => permitted row ?_
  rcases built with ⟨⟩
  exact ⟨rfl, rfl, fun _ named => nomatch named⟩

theorem does_createBiasSlice {actor : String} {id : Uuid}
    {input : CreateBiasSlice}
    (permitted :
      ∀ row, Describes (.biasSlice actor id input) row →
        allowed (.chained row)) :
    (createBiasSlice runtime actor id input).OnlyCalls
      (Op.Does allowed effects) := by
  unfold createBiasSlice
  split
  · trivial
  · refine Program.onlyCalls_bind (onlyCalls_attempt trivial) fun _ => ?_
    split
    · refine Program.onlyCalls_bind (does_liftExcept _) fun _ =>
        does_insertDraft fun columns row _ built => permitted row ?_
      rcases built with ⟨⟩
      exact ⟨rfl, rfl, fun _ named => named⟩
    · apply does_insertRow
      apply permitted
      exact ⟨rfl, rfl, fun _ named => named⟩

/-- A write request writes rows it describes, and an upload a blob. -/
theorem does_write {write : WriteRequest}
    (permitted :
      ∀ row, Describes write row → allowed (.chained row))
    (stores :
      table write = .artifacts →
        ∀ data, effects (.blob (sha256Hex runtime data) data)) :
    (Routes.write runtime write).OnlyCalls (Op.Does allowed effects) := by
  cases write with
  | event actor id runId input => exact does_appendEvent permitted
  | artifact actor id parts => exact does_uploadArtifact permitted (stores rfl)
  | toolInvocation actor id input =>
      refine does_createFrom fun columns row _ built => permitted row ?_
      rcases bind_eq_ok_iff.mp built with ⟨startedAt, _, rest⟩
      rcases bind_eq_ok_iff.mp rest with ⟨finishedAt, _, ⟨⟩⟩
      exact ⟨rfl, rfl, fun _ named => named⟩
  | sideEffect actor id input =>
      refine does_createFrom fun columns row _ built => permitted row ?_
      rcases bind_eq_ok_iff.mp built with ⟨observedAt, _, ⟨⟩⟩
      exact ⟨rfl, rfl, fun _ named => named⟩
  | guardrail actor id input =>
      refine does_createFrom fun columns row _ built => permitted row ?_
      rcases bind_eq_ok_iff.mp built with ⟨evaluatedAt, _, ⟨⟩⟩
      exact ⟨rfl, rfl, fun _ named => named⟩
  | humanApproval actor input =>
      refine does_createFrom fun columns row _ built => permitted row ?_
      rcases bind_eq_ok_iff.mp built with ⟨requestedAt, _, rest⟩
      rcases bind_eq_ok_iff.mp rest with ⟨decidedAt, _, ⟨⟩⟩
      exact ⟨rfl, rfl, fun _ named => named⟩
  | biasSlice actor id input => exact does_createBiasSlice permitted

theorem does_createRun {actor : String} {id : Uuid} {input : CreateRun}
    (permitted : ∀ run, run.actorId = actor → allowed (.run run)) :
    (createRun runtime actor id input).OnlyCalls (Op.Does allowed effects) :=
  Program.onlyCalls_bind (does_liftExcept _) fun _ =>
    Program.onlyCalls_bind (onlyCalls_attempt (permitted _ rfl)) fun _ =>
      trivial

/-! ## Anchor ticks -/

theorem does_put {sink : AnchorSink} {key : String} {bytes : Bytes}
    (ships : effects (.document key bytes)) :
    (sink.put key bytes).OnlyCalls (Op.Does allowed effects) := by
  cases sink with
  | noop => trivial
  | s3 bucket =>
      exact Program.onlyCalls_bind (onlyCalls_attempt ships) fun _ => trivial
  | memory =>
      exact Program.onlyCalls_bind (onlyCalls_attempt ships) fun _ => trivial

variable {signing : SigningService} {sink : AnchorSink} {tick : Tick}

theorem does_mintAnchor {lower : DateTime}
    {leaves : List ChainedRow × List Digest}
    (permitted : ∀ anchor leaves, allowed (.anchor anchor leaves))
    (ships : ∀ key bytes, effects (.document key bytes)) :
    (mintAnchor runtime signing sink tick lower leaves).OnlyCalls
      (Op.Does allowed effects) :=
  Program.onlyCalls_bind (does_liftExcept _) fun _ =>
    Program.onlyCalls_bind (does_put (ships _ _)) fun _ =>
      Program.onlyCalls_bind (does_liftExcept _) fun _ =>
        Program.onlyCalls_bind (onlyCalls_attempt (permitted _ _)) fun _ =>
          trivial

theorem does_collectLeaves {scope : AnchorScope}
    {lower upper : DateTime} :
    (collectLeaves scope lower upper).OnlyCalls (Op.Does allowed effects) :=
  Program.onlyCalls_bind (does_liftExcept _) fun _ =>
    Program.onlyCalls_bind (does_liftExcept _) fun _ =>
      Program.onlyCalls_bind (onlyCalls_attempt trivial) fun _ =>
        Program.onlyCalls_bind (does_liftExcept _) fun _ => trivial

/-- A tick writes nothing but an anchor, and a document. -/
theorem does_anchorTick
    (permitted : ∀ anchor leaves, allowed (.anchor anchor leaves))
    (ships : ∀ key bytes, effects (.document key bytes)) :
    (anchorTick runtime signing sink tick).OnlyCalls
      (Op.Does allowed effects) := by
  refine Program.onlyCalls_bind (onlyCalls_attempt trivial) fun seen => ?_
  dsimp only
  split
  · trivial
  · refine Program.onlyCalls_bind does_collectLeaves fun leaves => ?_
    split
    · trivial
    · exact Program.onlyCalls_bind (does_mintAnchor permitted ships) fun _ =>
        trivial

theorem does_trigger {global : Bool} {runId : Option Uuid}
    {untilTs : Option DateTime} {now : DateTime} {id : Uuid}
    {anchoredAt : DateTime}
    (permitted : ∀ anchor leaves, allowed (.anchor anchor leaves))
    (ships : ∀ key bytes, effects (.document key bytes)) :
    (trigger runtime signing sink global runId untilTs now id
      anchoredAt).OnlyCalls (Op.Does allowed effects) :=
  Program.onlyCalls_bind (does_liftExcept _) fun _ =>
    does_anchorTick permitted ships

/-! ## Requests -/

/-- The rows a request may write. -/
def Written : Request → Row → Prop
  | .createRun actor _ _, row => ∃ run, row = .run run ∧ run.actorId = actor
  | .write write, row => ∃ chained, row = .chained chained ∧
      Describes write chained
  | .trigger _ _ _ _ _ _, row => ∃ anchor leaves, row = .anchor anchor leaves
  | .loopTick _ _ _, row => ∃ anchor leaves, row = .anchor anchor leaves

/-- The effects a request may make. -/
def Made (runtime : Runtime) : Request → Effect → Prop
  | .write (.artifact _ _ _), effect =>
      ∃ data, effect = .blob (sha256Hex runtime data) data
  | _, effect => ∃ key bytes, effect = .document key bytes

/-- Every request writes only rows that it describes. -/
theorem does_serve {service : Service} (request : Request) :
    (serve service request).OnlyCalls
      (Op.Does (Written request) (Made service.runtime request)) := by
  cases request with
  | createRun actor id input =>
      exact Program.onlyCalls_bind
        (does_createRun fun run stamped => ⟨run, rfl, stamped⟩)
        fun _ => trivial
  | write write =>
      refine Program.onlyCalls_bind
        (does_write (fun row described => ⟨row, rfl, described⟩) ?_)
        fun _ => trivial
      intro isArtifact data
      cases write <;> cases isArtifact
      exact ⟨data, rfl⟩
  | trigger global runId untilTs now id anchoredAt =>
      exact Program.onlyCalls_bind
        (does_trigger (fun anchor leaves => ⟨anchor, leaves, rfl⟩)
          fun key bytes => ⟨key, bytes, rfl⟩)
        fun _ => trivial
  | loopTick now id anchoredAt =>
      exact Program.onlyCalls_bind
        (does_anchorTick (fun anchor leaves => ⟨anchor, leaves, rfl⟩)
          fun key bytes => ⟨key, bytes, rfl⟩)
        fun _ => trivial

/-! ### Rows only -/

section Rows

theorem writes_of_does {α : Type} {handler : Handler α}
    (only : handler.OnlyCalls (Op.Does allowed fun _ : Effect => True)) :
    handler.OnlyCalls (Op.Writes allowed) :=
  only.mono fun _ => Op.Does.writes

theorem writes_createFrom {wrap : Fault → Exit} {draft : Draft}
    (permitted :
      ∀ columns row, columns.id = draft.id →
        draft.build columns = .ok row → allowed (.chained row)) :
    (createFrom runtime wrap draft).OnlyCalls (Op.Writes allowed) :=
  writes_of_does (does_createFrom permitted)

theorem writes_write {write : WriteRequest}
    (permitted :
      ∀ row, Describes write row → allowed (.chained row)) :
    (Routes.write runtime write).OnlyCalls (Op.Writes allowed) :=
  writes_of_does (does_write permitted fun _ _ => trivial)

theorem writes_createRun {actor : String} {id : Uuid} {input : CreateRun}
    (permitted : ∀ run, run.actorId = actor → allowed (.run run)) :
    (createRun runtime actor id input).OnlyCalls (Op.Writes allowed) :=
  writes_of_does (does_createRun permitted)

theorem writes_trigger {global : Bool} {runId : Option Uuid}
    {untilTs : Option DateTime} {now : DateTime} {id : Uuid}
    {anchoredAt : DateTime}
    (permitted : ∀ anchor leaves, allowed (.anchor anchor leaves)) :
    (trigger runtime signing sink global runId untilTs now id
      anchoredAt).OnlyCalls (Op.Writes allowed) :=
  writes_of_does (does_trigger permitted fun _ _ => trivial)

theorem writes_anchorTick
    (permitted : ∀ anchor leaves, allowed (.anchor anchor leaves)) :
    (anchorTick runtime signing sink tick).OnlyCalls
      (Op.Writes allowed) :=
  writes_of_does (does_anchorTick permitted fun _ _ => trivial)

theorem writes_serve {service : Service} (request : Request) :
    (serve service request).OnlyCalls (Op.Writes (Written request)) :=
  (does_serve request).mono fun _ => Op.Does.writes

end Rows

end Handlers

end Trackward.Ledger.Writes
