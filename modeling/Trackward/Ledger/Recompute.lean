import Trackward.Ledger.WriteOutcomes

/-!
# Recomputing the hash of a stored row

An auditor rebuilds the hashed fields of a row from what the database returns
and hashes them after the stored `prev_hash`.  The handler hashed the values it
was sent.  The two agree exactly for the requests whose values the columns
keep: a JSON column may reorder the members of objects, which the encoding
does not see, but a `timestamptz` column rounds and knows no leap second.
-/

namespace Trackward.Ledger.Recompute

open Trackward.ChainCore.CanonicalJson
open Trackward.ChainCore.Chain
open Trackward.ChainCore.Chrono
open Trackward.ChainCore.Encode
open Trackward.ChainCore.JsonValue
open Trackward.Ledger.Chain
open Trackward.Ledger.Models
open Trackward.Ledger.Routes
open Trackward.Ledger.Timestamps
open Trackward.Ledger.WriteOutcomes
open Trackward.Lib
open Trackward.Lib.Collisions
open Trackward.Lib.KeyedLists
open Trackward.Lib.Octets
open Trackward.Lib.Outcomes
open Trackward.Lib.Programs
open Trackward.Lib.Transactions

/-! ## What an auditor hashes -/

/-- The hashed fields of a row, from the values that are read back. -/
def storedFields (runtime : Runtime) : ChainedRow → List CanonicalField
  | .event row =>
      [.uuid "id" row.id,
        .uuid "run_id" row.runId,
        .i64 "seq" row.seq,
        .str "kind" row.kind,
        .json "body" row.body,
        .timestamp "occurred_at" row.occurredAt.toDateTime,
        .str "actor_id" row.actorId]
  | .artifact row =>
      [.uuid "id" row.id,
        .uuid "run_id" row.runId,
        .str "sha256" row.sha256,
        .i64 "size_bytes" row.sizeBytes,
        .str "media_type" row.mediaType,
        .str "label" row.label,
        .json "metadata" row.metadata,
        .str "actor_id" row.actorId]
  | .toolInvocation row =>
      [.uuid "id" row.id,
        .uuid "run_id" row.runId,
        .str "tool" row.tool,
        .json "input" row.input,
        .json "output" row.output,
        .str "status" row.status,
        .optI64 "status_code" (row.statusCode.map Int32.toInt64),
        .timestamp "started_at" row.startedAt.toDateTime,
        .timestamp "finished_at" row.finishedAt.toDateTime,
        .json "metadata" row.metadata,
        .str "actor_id" row.actorId]
  | .sideEffect row =>
      [.uuid "id" row.id,
        .uuid "run_id" row.runId,
        .optUuid "tool_invocation_id" row.toolInvocationId,
        .str "kind" row.kind,
        .str "target" row.target,
        .str "status" row.status,
        .json "confirmation" row.confirmation,
        .timestamp "observed_at" row.observedAt.toDateTime,
        .str "actor_id" row.actorId]
  | .guardrail row =>
      [.uuid "id" row.id,
        .uuid "run_id" row.runId,
        .str "name" row.name,
        .str "stage" row.stage,
        .optStr "target" row.target,
        .str "outcome" row.outcome,
        .json "detail" row.detail,
        .timestamp "evaluated_at" row.evaluatedAt.toDateTime,
        .str "actor_id" row.actorId]
  | .humanApproval row =>
      [.uuid "id" row.id,
        .uuid "run_id" row.runId,
        .str "tool" row.tool,
        .str "decision" row.decision,
        .optStr "reason" row.reason,
        .optStr "decided_by" row.decidedBy,
        .timestamp "requested_at" row.requestedAt.toDateTime,
        .timestamp "decided_at" row.decidedAt.toDateTime,
        .json "metadata" row.metadata,
        .str "actor_id" row.actorId]
  | .biasSlice row =>
      [.uuid "id" row.id,
        .optUuid "run_id" row.runId,
        .optUuid "eval_result_id" row.evalResultId,
        .str "label" row.label,
        .optStr "value" row.value,
        .optStr "score" (row.score.map runtime.f64ToString),
        .json "metadata" row.metadata,
        .str "actor_id" row.actorId]

/-- Hashing the stored fields after the stored `prev_hash` gives `row_hash`. -/
def Recomputes (runtime : Runtime) (row : ChainedRow) : Prop :=
  linkAfter runtime row.table (storedFields runtime row)
      row.columns.prevHash =
    .ok ⟨row.columns.prevHash, row.columns.rowHash⟩

/-- The number of an event, 0 for other rows. -/
def seqOf : ChainedRow → Int64
  | .event row => row.seq
  | _ => 0

/-- What is hashed for a row with these fields, if it can be encoded. -/
def hashInput (runtime : Runtime) (row : ChainedRow)
    (fields : List CanonicalField) : Option Bytes :=
  match prevArr row.columns.prevHash,
      canonicalRowBytes runtime.chrono (name row.table) fields with
  | .ok prevHash, .ok rowBytes => some (rowHashInput prevHash rowBytes)
  | _, _ => none

/-- The byte strings the handler and the auditor hash for a row. -/
def hashedInputs (runtime : Runtime) (request : WriteRequest)
    (row : ChainedRow) : List Bytes :=
  (((draftOf runtime (seqOf row) request).toList.map Draft.fields) ++
      [storedFields runtime row]).filterMap (hashInput runtime row)

/-! ## Requests whose values survive -/

/-- The timestamps that are hashed for a request. -/
def hashedTimes : WriteRequest → List DateTime
  | .event _ _ _ input => [input.occurredAt]
  | .artifact _ _ _ => []
  | .toolInvocation _ _ input => [input.startedAt, input.finishedAt]
  | .sideEffect _ _ input => [input.observedAt]
  | .guardrail _ _ input => [input.evaluatedAt]
  | .humanApproval _ input => [input.requestedAt, input.decidedAt]
  | .biasSlice _ _ _ => []

/-- The row of the request is chained at all. -/
def joinsChain : WriteRequest → Bool
  | .biasSlice _ _ input => input.runId.isSome
  | _ => true

/-- The row is chained, and its columns keep the hashed timestamps. -/
def Faithful (request : WriteRequest) : Prop :=
  joinsChain request = true ∧ ∀ time ∈ hashedTimes request, Storable time

/-! ## Where a returned row comes from -/

/-- A row that was built from a draft and linked after some tail. -/
def Linked (runtime : Runtime) (draft : Draft) (row : ChainedRow) : Prop :=
  ∃ link createdAt,
    linkAfter runtime draft.table draft.fields link.prevHash = .ok link ∧
      draft.build
          { id := draft.id
            prevHash := link.prevHash
            rowHash := link.rowHash
            createdAt := createdAt } =
        .ok row

theorem returns_liftExcept_iff {α : Type} {result : Except Exit α}
    {value : α} :
    Returns (liftExcept result) value ↔ result = .ok value := by
  cases result with
  | ok value' => exact returns_done_iff.trans (by rw [Except.ok.injEq, eq_comm])
  | error exit => exact iff_of_false not_returns_raise nofun

theorem eq_of_returns_insertRow {wrap : Fault → Exit}
    {row row' : ChainedRow} (returned : Returns (insertRow wrap row) row') :
    row' = row := by
  rcases returns_bind_iff.mp returned with ⟨_, _, returned⟩
  rcases returns_bind_iff.mp returned with ⟨_, _, returned⟩
  exact returns_done_iff.mp returned

theorem linked_of_returns_insertDraft
    {runtime : Runtime} {wrap : Fault → Exit} {createdAt : Int}
    {draft : Draft} {row : ChainedRow}
    (returned : Returns (insertDraft runtime wrap createdAt draft) row) :
    Linked runtime draft row := by
  rcases returns_bind_iff.mp returned with ⟨link, computed, returned⟩
  rcases returns_bind_iff.mp computed with ⟨_, _, computed⟩
  rcases returns_bind_iff.mp computed with ⟨rows, _, computed⟩
  rcases returns_bind_iff.mp returned with ⟨built, building, returned⟩
  rw [returns_liftExcept_iff] at computed building
  cases eq_of_returns_insertRow returned
  refine ⟨link, createdAt, ?_, building⟩
  rcases linkAfter_eq_ok_iff.mp computed with ⟨_, _, _, _, rfl⟩
  exact computed

theorem linked_of_returns_createFrom
    {runtime : Runtime} {wrap : Fault → Exit} {draft : Draft}
    {row : ChainedRow}
    (returned : Returns (createFrom runtime wrap draft) row) :
    Linked runtime draft row := by
  rcases returns_bind_iff.mp returned with ⟨createdAt, _, returned⟩
  exact linked_of_returns_insertDraft returned

/-- A row that is returned was linked, or is outside every chain. -/
theorem linked_of_returns
    {runtime : Runtime} {request : WriteRequest} {row : ChainedRow}
    (returned : Returns (write runtime request) row) :
    (joinsChain request = true ∧
        ∃ draft ∈ draftOf runtime (seqOf row) request,
          Linked runtime draft row) ∨
      (joinsChain request = false ∧ row.columns.prevHash = none ∧
        row.columns.rowHash = ChainedRow.legacyRowHash) := by
  cases request with
  | event actor id runId input =>
      rcases returns_bind_iff.mp returned with ⟨createdAt, _, returned⟩
      rcases returns_bind_iff.mp returned with ⟨_, _, returned⟩
      rcases returns_bind_iff.mp returned with ⟨known, _, returned⟩
      split at returned
      · rcases returns_bind_iff.mp returned with ⟨rows, _, returned⟩
        rcases returns_bind_iff.mp returned with ⟨seq, _, returned⟩
        have linked := linked_of_returns_insertDraft returned
        have numbered : seqOf row = seq := by
          rcases linked with ⟨link, createdAt, _, building⟩
          rcases bind_eq_ok_iff.mp building with ⟨occurredAt, _, ⟨⟩⟩
          rfl
        rw [numbered]
        exact Or.inl ⟨rfl, _, rfl, linked⟩
      · exact absurd returned not_returns_raise
  | artifact actor id parts =>
      rcases returns_bind_iff.mp returned with ⟨upload, readParts, returned⟩
      rcases returns_bind_iff.mp returned with ⟨runId, hasRun, returned⟩
      rcases returns_bind_iff.mp returned with ⟨data, hasFile, returned⟩
      rcases returns_bind_iff.mp returned with ⟨_, _, returned⟩
      rcases returns_bind_iff.mp returned with ⟨createdAt, _, returned⟩
      rw [returns_liftExcept_iff] at readParts hasRun hasFile
      rw [required_eq_ok_iff] at hasRun hasFile
      refine Or.inl ⟨rfl, _, ?_, linked_of_returns_insertDraft returned⟩
      simp [draftOf, readParts, hasRun, hasFile]
  | toolInvocation actor id input =>
      exact Or.inl ⟨rfl, _, rfl, linked_of_returns_createFrom returned⟩
  | sideEffect actor id input =>
      exact Or.inl ⟨rfl, _, rfl, linked_of_returns_createFrom returned⟩
  | guardrail actor id input =>
      exact Or.inl ⟨rfl, _, rfl, linked_of_returns_createFrom returned⟩
  | humanApproval actor input =>
      exact Or.inl ⟨rfl, _, rfl, linked_of_returns_createFrom returned⟩
  | biasSlice actor id input =>
      simp only [write, createBiasSlice] at returned
      split at returned
      · exact absurd returned not_returns_raise
      · rcases returns_bind_iff.mp returned with ⟨createdAt, _, returned⟩
        split at returned
        · rename_i runId ofRun
          rcases returns_bind_iff.mp returned with
            ⟨scoreStr, hashed, returned⟩
          rw [returns_liftExcept_iff] at hashed
          refine Or.inl ⟨?_, _, draftOf_biasSlice _ ofRun hashed,
            linked_of_returns_insertDraft returned⟩
          simp [joinsChain, ofRun]
        · rename_i missing
          cases eq_of_returns_insertRow returned
          exact Or.inr ⟨by simp [joinsChain, missing], rfl, rfl⟩

/-! ## The first event of a run -/

/-- The row of the first event of a run. -/
def firstEvent (runtime : Runtime) (actor : String) (id runId : Uuid)
    (input : CreateEvent) : Except Exit ChainedRow := do
  let draft := eventDraft runtime actor id runId 1 input
  let link ← linkAfter runtime .events draft.fields none
  draft.build
    { id := id
      prevHash := link.prevHash
      rowHash := link.rowHash
      createdAt := 0 }

/-- A handler may return the first event of a run. -/
theorem returns_firstEvent
    {runtime : Runtime} {actor : String} {id runId : Uuid}
    {input : CreateEvent} {row : ChainedRow}
    (first : row ∈ (firstEvent runtime actor id runId input).toOption) :
    Returns (write runtime (.event actor id runId input)) row := by
  have accepted : firstEvent runtime actor id runId input = .ok row := by
    cases computed : firstEvent runtime actor id runId input with
    | error exit =>
        rw [computed] at first
        cases first
    | ok row' =>
        rw [computed] at first
        cases first
        rfl
  rcases bind_eq_ok_iff.mp accepted with ⟨link, linked, built⟩
  refine returns_bind_iff.mpr ⟨(0 : Int), returns_attempt _, ?_⟩
  refine returns_bind_iff.mpr ⟨(), returns_attempt _, ?_⟩
  refine returns_bind_iff.mpr
    ⟨[Row.run (openRun runId)], returns_attempt _, ?_⟩
  have known : runExists [Row.run (openRun runId)] runId = true := by
    simp [runExists, Row.run?, openRun]
  rw [if_pos known]
  refine returns_bind_iff.mpr ⟨([] : List Row), returns_attempt _, ?_⟩
  refine returns_bind_iff.mpr ⟨1, returns_liftExcept_iff.mpr rfl, ?_⟩
  refine returns_bind_iff.mpr ⟨link, ?_, ?_⟩
  · refine returns_bind_iff.mpr ⟨(), returns_attempt _, ?_⟩
    refine returns_bind_iff.mpr ⟨([] : List Row), returns_attempt _, ?_⟩
    exact returns_liftExcept_iff.mpr linked
  · refine returns_bind_iff.mpr
      ⟨row, returns_liftExcept_iff.mpr built, ?_⟩
    refine returns_bind_iff.mpr ⟨(), returns_attempt _, ?_⟩
    refine returns_bind_iff.mpr ⟨(), returns_attempt _, ?_⟩
    exact returns_done_iff.mpr rfl

/-! ## What the columns keep -/

@[simp]
theorem sameField_timestamp_iff
    {name : String} {time : DateTime} {stored : Timestamptz}
    (bound : bindTimestamp time = .ok stored) :
    SameField (.timestamp name stored.toDateTime) (.timestamp name time) ↔
      Storable time := by
  rw [← sameMicros_toDateTime_iff (bindTimestamp_eq_ok_iff.mp bound)]
  constructor
  · rintro ⟨_, ⟨⟩⟩
    rename_i same
    exact ⟨same.1.symm, same.2.symm⟩
  · intro same
    exact ⟨rfl, .timestamp ⟨same.1.symm, same.2.symm⟩⟩

theorem sameField_json
    (runtime : Runtime) (name : String) {value : Json}
    (fits : JsonFits value) :
    SameField (.json name (runtime.jsonb value)) (.json name value) :=
  ⟨rfl, .json (runtime.jsonb_same value fits.1)⟩

/-- The score is read back as the float it was. -/
theorem scoreText_eq_ok
    {runtime : Runtime} {score : Option F64} {scoreStr : Option String}
    (hashed : scoreText runtime score = .ok scoreStr) :
    score.map runtime.f64ToString = scoreStr := by
  cases score with
  | none =>
      cases hashed
      rfl
  | some f =>
      rw [scoreText] at hashed
      split at hashed
      · cases hashed
        rfl
      · cases hashed

/-- The stored fields are those that were sent iff the timestamps survive. -/
theorem sameFields_iff
    {runtime : Runtime} {request : WriteRequest} {seq : Int64}
    {draft : Draft} {columns : ChainColumns} {row : ChainedRow}
    (drafted : draft ∈ draftOf runtime seq request)
    (identified : columns.id = draft.id)
    (built : draft.build columns = .ok row)
    (fits :
      ∀ name value, CanonicalField.json name value ∈ draft.fields →
        JsonFits value) :
    List.Forall₂ SameField (storedFields runtime row) draft.fields ↔
      ∀ time ∈ hashedTimes request, Storable time := by
  cases request with
  | event actor id runId input =>
      cases drafted
      rcases bind_eq_ok_iff.mp built with ⟨occurredAt, bound, ⟨⟩⟩
      have body := fits "body" input.body (by simp [eventDraft])
      change columns.id = id at identified
      simp [eventDraft, storedFields, hashedTimes, identified,
        SameField.refl, sameField_timestamp_iff bound,
        sameField_json runtime _ body]
  | artifact actor id parts =>
      simp only [draftOf] at drafted
      split at drafted
      · cases drafted
      · rename_i upload readParts
        split at drafted
        · cases drafted
          cases built
          have metadata :=
            fits "metadata" upload.metadata (by simp [artifactDraft])
          change columns.id = id at identified
          simp [artifactDraft, storedFields, hashedTimes, identified,
            SameField.refl, sameField_json runtime _ metadata]
        · cases drafted
  | toolInvocation actor id input =>
      cases drafted
      rcases bind_eq_ok_iff.mp built with ⟨startedAt, started, rest⟩
      rcases bind_eq_ok_iff.mp rest with ⟨finishedAt, finished, ⟨⟩⟩
      have sent := fits "input" input.input (by simp [toolInvocationDraft])
      have received :=
        fits "output" input.output (by simp [toolInvocationDraft])
      have metadata :=
        fits "metadata" input.metadata (by simp [toolInvocationDraft])
      change columns.id = id at identified
      simp [toolInvocationDraft, storedFields, hashedTimes, identified,
        SameField.refl, sameField_timestamp_iff started,
        sameField_timestamp_iff finished, sameField_json runtime _ sent,
        sameField_json runtime _ received,
        sameField_json runtime _ metadata]
  | sideEffect actor id input =>
      cases drafted
      rcases bind_eq_ok_iff.mp built with ⟨observedAt, bound, ⟨⟩⟩
      have confirmation :=
        fits "confirmation" input.confirmation (by simp [sideEffectDraft])
      change columns.id = id at identified
      simp [sideEffectDraft, storedFields, hashedTimes, identified,
        SameField.refl, sameField_timestamp_iff bound,
        sameField_json runtime _ confirmation]
  | guardrail actor id input =>
      cases drafted
      rcases bind_eq_ok_iff.mp built with ⟨evaluatedAt, bound, ⟨⟩⟩
      have detail := fits "detail" input.detail (by simp [guardrailDraft])
      change columns.id = id at identified
      simp [guardrailDraft, storedFields, hashedTimes, identified,
        SameField.refl, sameField_timestamp_iff bound,
        sameField_json runtime _ detail]
  | humanApproval actor input =>
      cases drafted
      rcases bind_eq_ok_iff.mp built with ⟨requestedAt, requested, rest⟩
      rcases bind_eq_ok_iff.mp rest with ⟨decidedAt, decided, ⟨⟩⟩
      have metadata :=
        fits "metadata" input.metadata (by simp [humanApprovalDraft])
      change columns.id = input.id at identified
      simp [humanApprovalDraft, storedFields, hashedTimes, identified,
        SameField.refl, sameField_timestamp_iff requested,
        sameField_timestamp_iff decided,
        sameField_json runtime _ metadata]
  | biasSlice actor id input =>
      simp only [draftOf] at drafted
      split at drafted
      · cases drafted
      · rename_i runId ofRun
        split at drafted
        · cases drafted
        · rename_i scoreStr hashed
          cases drafted
          cases built
          have metadata :=
            fits "metadata" input.metadata (by simp [biasSliceDraft])
          have placed :
              SameField (.optUuid "run_id" (some runId))
                (.uuid "run_id" runId) :=
            .refl (.uuid "run_id" runId)
          change columns.id = id at identified
          simp [biasSliceDraft, biasSliceRow, storedFields, hashedTimes,
            identified, ofRun, scoreText_eq_ok hashed, SameField.refl,
            placed, sameField_json runtime _ metadata]

/-- The stored fields carry the names of the table. -/
theorem names_storedFields (runtime : Runtime) (row : ChainedRow) :
    (storedFields runtime row).map CanonicalField.name =
      hashedNames row.table := by
  cases row <;>
    simp only [storedFields, List.map_cons, List.map_nil,
      CanonicalField.name_optUuid, CanonicalField.name_optStr,
      CanonicalField.name_optI64] <;> rfl

/-! ## Which rows can be recomputed -/

/-- What the handler and the auditor hash for a linked row. -/
theorem Linked.encoded
    {runtime : Runtime} {draft : Draft} {row : ChainedRow}
    (linked : Linked runtime draft row) :
    ∃ prevHash rowBytes,
      prevArr row.columns.prevHash = .ok prevHash ∧
        canonicalRowBytes runtime.chrono (name row.table) draft.fields =
            .ok rowBytes ∧
          row.columns.rowHash =
              (computeRowHash runtime.sha256 prevHash rowBytes).bytes ∧
            (storedFields runtime row).map CanonicalField.name =
              draft.fields.map CanonicalField.name := by
  rcases linked with ⟨link, createdAt, linked, built⟩
  rcases linkAfter_eq_ok_iff.mp linked with
    ⟨prevHash, rowBytes, before, encoded, same⟩
  rcases draft.placed _ _ built with ⟨inTable, _, inColumns⟩
  rw [inTable, inColumns, names_storedFields, inTable, draft.named]
  refine ⟨prevHash, rowBytes, before, encoded, ?_, rfl⟩
  rw [same]

/-- The fields of a linked row were accepted by the encoder. -/
theorem Linked.fits
    {runtime : Runtime} {draft : Draft} {row : ChainedRow}
    (linked : Linked runtime draft row) :
    ∀ field ∈ draft.fields, field.value.Fits := by
  rcases linked with ⟨link, createdAt, linked, built⟩
  rcases linkAfter_eq_ok_iff.mp linked with ⟨_, rowBytes, _, encoded, _⟩
  exact (draft_isOk_iff runtime draft).mp ⟨rowBytes, encoded⟩

theorem Linked.recomputes
    {runtime : Runtime} {draft : Draft} {row : ChainedRow}
    (linked : Linked runtime draft row)
    (same :
      List.Forall₂ SameField (storedFields runtime row) draft.fields) :
    Recomputes runtime row := by
  rcases linked.encoded with ⟨prevHash, rowBytes, before, encoded, hash, _⟩
  apply linkAfter_eq_ok_iff.mpr
  refine ⟨prevHash, rowBytes, before, ?_, by rw [hash]⟩
  exact bytes_of_sameRow encoded ⟨_, same, List.Perm.refl _⟩

/-- The names of hashed fields fit their length prefix. -/
theorem shortNames {fields : List CanonicalField} {table : ChainTable}
    (named : fields.map CanonicalField.name = hashedNames table) :
    ShortNames fields := by
  intro field member
  have short := (hashedNames_ok table).2.2.2.2.2
  apply short
  rw [← named]
  exact List.mem_map_of_mem member

/-- Equal hashes of a linked row come from equal fields. -/
theorem Linked.sameFields
    {runtime : Runtime} {request : WriteRequest} {draft : Draft}
    {row : ChainedRow}
    (drafted : draft ∈ draftOf runtime (seqOf row) request)
    (linked : Linked runtime draft row)
    (free : CollisionFree runtime.sha256 (hashedInputs runtime request row))
    (recomputes : Recomputes runtime row) :
    List.Forall₂ SameField (storedFields runtime row) draft.fields := by
  rcases linked.encoded with
    ⟨prevHash, rowBytes, before, encoded, hash, aligned⟩
  rcases linkAfter_eq_ok_iff.mp recomputes with
    ⟨prevHash', rowBytes', before', encoded', hash'⟩
  rw [before, Except.ok.injEq] at before'
  subst before'
  rw [ChainLink.mk.injEq, hash] at hash'
  have sent :
      rowHashInput prevHash rowBytes ∈ hashedInputs runtime request row := by
    apply List.mem_filterMap.mpr
    refine ⟨draft.fields, ?_, by simp [hashInput, before, encoded]⟩
    rw [Option.mem_def] at drafted
    simp [drafted]
  have stored :
      rowHashInput prevHash rowBytes' ∈
        hashedInputs runtime request row := by
    apply List.mem_filterMap.mpr
    refine ⟨storedFields runtime row, ?_, ?_⟩
    · simp
    · simp [hashInput, before, encoded']
  have inputs := free _ sent _ stored (Block.ext hash'.2)
  have bytes := (rowHashInput_inj inputs).2
  rw [← bytes] at encoded'
  have named := names_storedFields runtime row
  have reordered :=
    (sameRow_of_bytes encoded' encoded (shortNames named)
      (shortNames (aligned ▸ named))).2
  apply Reordered.pointwise (fun first second same => same.1) _ aligned
    reordered
  rw [draft.named]
  exact (hashedNames_ok draft.table).2.2.2.1

/-- No hashed strings collide, and none has the digest of 32 zero bytes. -/
def Unbroken (runtime : Runtime) (request : WriteRequest)
    (row : ChainedRow) : Prop :=
  CollisionFree runtime.sha256 (hashedInputs runtime request row) ∧
    ∀ input ∈ hashedInputs runtime request row,
      (runtime.sha256 input).bytes ≠ ChainedRow.legacyRowHash

instance (runtime : Runtime) (request : WriteRequest) (row : ChainedRow) :
    Decidable (Unbroken runtime request row) :=
  inferInstanceAs (Decidable (_ ∧ _))

instance (runtime : Runtime) (row : ChainedRow) :
    Decidable (Recomputes runtime row) :=
  inferInstanceAs (Decidable (linkAfter _ _ _ _ = _))

instance (request : WriteRequest) : Decidable (Faithful request) :=
  inferInstanceAs (Decidable (_ ∧ _))

/-- A row outside every chain has no hash that can be recomputed. -/
theorem not_recomputes_of_legacy
    {runtime : Runtime} {request : WriteRequest} {row : ChainedRow}
    (unbroken : Unbroken runtime request row)
    (legacy : row.columns.rowHash = ChainedRow.legacyRowHash) :
    ¬ Recomputes runtime row := by
  intro recomputes
  rcases linkAfter_eq_ok_iff.mp recomputes with
    ⟨prevHash, rowBytes, before, encoded, hash⟩
  rw [ChainLink.mk.injEq, legacy] at hash
  refine unbroken.2 (rowHashInput prevHash rowBytes) ?_ hash.2.symm
  apply List.mem_filterMap.mpr
  refine ⟨storedFields runtime row, ?_, ?_⟩
  · simp
  · simp [hashInput, before, encoded]

/--
The hash of a returned row can be recomputed from the row if the request is
faithful, and only then unless SHA-256 is broken.
-/
theorem recomputes_iff_faithful
    (runtime : Runtime) {request : WriteRequest} {row : ChainedRow}
    (returned : Returns (write runtime request) row) :
    (Faithful request → Recomputes runtime row) ∧
      (Unbroken runtime request row → Recomputes runtime row →
        Faithful request) := by
  rcases linked_of_returns returned with
    ⟨joins, draft, drafted, linked⟩ | ⟨outside, _, legacy⟩
  · have kept :
        List.Forall₂ SameField (storedFields runtime row) draft.fields ↔
          ∀ time ∈ hashedTimes request, Storable time := by
      have fits := linked.fits
      rcases linked with ⟨link, createdAt, _, built⟩
      exact sameFields_iff drafted rfl built fun name value member =>
        fits _ member
    constructor
    · intro faithful
      exact linked.recomputes (kept.mpr faithful.2)
    · intro unbroken recomputes
      exact
        ⟨joins,
          kept.mp (linked.sameFields drafted unbroken.1 recomputes)⟩
  · constructor
    · intro faithful
      rw [Faithful, outside] at faithful
      cases faithful.1
    · intro unbroken recomputes
      exact absurd recomputes (not_recomputes_of_legacy unbroken legacy)

/-- An event of run 7 that happened at this time. -/
def noteAt (occurredAt : DateTime) : CreateEvent where
  kind := "note"
  body := Json.null
  occurredAt := occurredAt

/-- The middle of the last microsecond before 2000. -/
def beforeEpoch : DateTime where
  seconds := postgresEpoch - 1
  nanos := 999999500
  nanos_lt := by decide
  leap := by decide
  low := by decide
  high := by decide

/-- The first microsecond of 2000 and a half. -/
def afterEpoch : DateTime where
  seconds := postgresEpoch
  nanos := 1500
  nanos_lt := by decide
  leap := by decide
  low := by decide
  high := by decide

/-- An event after 2000 can be recomputed, and its request is faithful. -/
theorem recomputes_noteAt_afterEpoch :
    ∃ row,
      Returns
          (write Runtime.plain (.event "actor" 1 7 (noteAt afterEpoch)))
          row ∧
        Recomputes Runtime.plain row ∧
          Faithful (.event "actor" 1 7 (noteAt afterEpoch)) := by
  have computed :
      ∃ row ∈
          (firstEvent Runtime.plain "actor" 1 7
            (noteAt afterEpoch)).toOption,
        Unbroken Runtime.plain
          (.event "actor" 1 7 (noteAt afterEpoch)) row := by
    decide +kernel
  rcases computed with ⟨row, member, unbroken⟩
  have returned := returns_firstEvent member
  have faithful : Faithful (.event "actor" 1 7 (noteAt afterEpoch)) := by
    decide
  have recomputes :=
    (recomputes_iff_faithful Runtime.plain returned).1 faithful
  exact ⟨row, returned, recomputes,
    (recomputes_iff_faithful Runtime.plain returned).2 unbroken recomputes⟩

/-- An event in the last microsecond before 2000 cannot be recomputed. -/
theorem not_recomputes_noteAt_beforeEpoch :
    ¬ ∀ runtime request row, Returns (write runtime request) row →
      Recomputes runtime row := by
  intro recomputes
  have computed :
      ∃ row ∈
          (firstEvent Runtime.plain "actor" 1 7
            (noteAt beforeEpoch)).toOption,
        ¬ Recomputes Runtime.plain row := by
    decide +kernel
  rcases computed with ⟨row, member, different⟩
  exact different (recomputes _ _ row (returns_firstEvent member))

end Trackward.Ledger.Recompute
