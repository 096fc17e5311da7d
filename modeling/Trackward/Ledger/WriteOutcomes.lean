import Trackward.Ledger.Routes
import Trackward.Lib.Outcomes

/-!
# How a write ends

A write settles: it answers with a row and has committed that row and nothing
else, or it answers with an error and has committed nothing.  The exception is
a panic of the row encoder.

The encoder panics on the fields of a draft exactly if one of them does not fit
the encoding: a JSON value with a float in it, or a value of 2^32 bytes or
more.  A handler settles for every behaviour of the database exactly if all
fields it hashes fit.
-/

namespace Trackward.Ledger.WriteOutcomes

open Trackward.ChainCore.CanonicalJson
open Trackward.ChainCore.Chrono
open Trackward.ChainCore.Encode
open Trackward.ChainCore.JsonValue
open Trackward.Ledger.Chain
open Trackward.Ledger.Models
open Trackward.Ledger.Routes
open Trackward.Lib
open Trackward.Lib.Octets
open Trackward.Lib.Outcomes
open Trackward.Lib.Programs
open Trackward.Lib.Transactions

/-! ## The draft of a request -/

/--
The draft a write request inserts, `seq` being the number of an event.  There
is none for a request that is rejected before a row is hashed, or whose row is
not chained.
-/
def draftOf (runtime : Runtime) (seq : Int64) :
    WriteRequest → Option Draft
  | .event actor id runId input =>
      some (eventDraft runtime actor id runId seq input)
  | .artifact actor id parts =>
      match Upload.readAll runtime Upload.initial parts with
      | .error _ => none
      | .ok upload =>
          match upload.runId, upload.fileData with
          | some runId, some data =>
              some (artifactDraft runtime actor id runId upload data)
          | _, _ => none
  | .toolInvocation actor id input =>
      some (toolInvocationDraft runtime actor id input)
  | .sideEffect actor id input =>
      some (sideEffectDraft runtime actor id input)
  | .guardrail actor id input =>
      some (guardrailDraft runtime actor id input)
  | .humanApproval actor input =>
      some (humanApprovalDraft runtime actor input)
  | .biasSlice actor id input =>
      match ofRun : input.runId with
      | none => none
      | some runId =>
          match scoreText runtime input.score with
          | .error _ => none
          | .ok scoreStr =>
              some
                (biasSliceDraft runtime actor id runId scoreStr input ofRun)

/-- The draft of a slice of a run. -/
theorem draftOf_biasSlice
    {runtime : Runtime} {actor : String} {id runId : Uuid}
    {scoreStr : Option String} {input : CreateBiasSlice} (seq : Int64)
    (ofRun : input.runId = some runId)
    (hashed : scoreText runtime input.score = .ok scoreStr) :
    draftOf runtime seq (.biasSlice actor id input) =
      some (biasSliceDraft runtime actor id runId scoreStr input ofRun) := by
  simp only [draftOf]
  split
  · rename_i missing
    rw [ofRun] at missing
    cases missing
  · rename_i runId' ofRun'
    rw [hashed]
    have same : runId = runId' := by
      rwa [ofRun, Option.some.injEq] at ofRun'
    subst same
    rfl

/-- The names of hashed fields are in order for the encoding. -/
theorem hashedNames_ok (table : ChainTable) :
    isAscii (name table) = true ∧ (utf8 (name table)).length < 2 ^ 16 ∧
      (hashedNames table).length < 2 ^ 16 ∧ (hashedNames table).Nodup ∧
        (∀ field ∈ hashedNames table, isAscii field = true) ∧
          ∀ field ∈ hashedNames table, (utf8 field).length < 2 ^ 16 := by
  cases table <;> decide

/-- Every field of the draft of a request fits the row encoding. -/
def DraftFits (runtime : Runtime) (request : WriteRequest) : Prop :=
  ∀ seq, ∀ draft ∈ draftOf runtime seq request,
    ∀ field ∈ draft.fields, field.value.Fits

/-- The encoder accepts the fields of a draft exactly if they fit. -/
theorem draft_isOk_iff (runtime : Runtime) (draft : Draft) :
    (∃ rowBytes,
        canonicalRowBytes runtime.chrono (name draft.table) draft.fields =
          .ok rowBytes) ↔
      ∀ field ∈ draft.fields, field.value.Fits := by
  rcases hashedNames_ok draft.table with
    ⟨ascii, short, count, distinct, fieldAscii, _⟩
  rw [canonicalRowBytes_isOk_iff]
  constructor
  · rintro ⟨_, fits⟩ field member
    exact (fits field member).2
  · intro fits
    refine ⟨⟨ascii, short, ?_, ?_⟩, fun field member => ⟨?_, fits field member⟩⟩
    · rwa [← draft.named, List.length_map] at count
    · rwa [draft.named]
    · apply fieldAscii
      rw [← draft.named]
      exact List.mem_map_of_mem member

/-! ## Settling -/

/-- A row and nothing else was committed, or nothing with an error. -/
def Settled (after : Tally Row) (outcome : Except Exit ChainedRow) : Prop :=
  (∃ row, outcome = .ok row ∧ after.committed = [.chained row]) ∨
    ∃ error, outcome = .error (.error error) ∧ after.committed = []

/-- However the database answers, the handler settles. -/
def Settles (handler : Handler ChainedRow) : Prop :=
  ∀ after outcome, Runs handler Tally.zero after outcome →
    Settled after outcome

theorem settles_raise {exit : Exit} (isError : IsError exit) :
    Settles (.raise exit) := by
  intro after outcome ran
  rcases runs_raise_iff.mp ran with ⟨rfl, rfl⟩
  rcases isError with ⟨error, rfl⟩
  exact Or.inr ⟨error, rfl, rfl⟩

/-- A statement that inserts nothing, before a handler that settles. -/
theorem settles_attempt
    {op : Op Int64 Row Effect} {wrap : Fault → Exit}
    {next : Reply op → Handler ChainedRow}
    (quiet : Tally.zero.note op = Tally.zero)
    (wrapped : ∀ fault, IsError (wrap fault))
    (settles : ∀ reply, Settles (next reply)) :
    Settles (attempt op wrap >>= next) := by
  intro after outcome ran
  rcases runs_bind_iff.mp ran with
    ⟨exit, failed, rfl⟩ | ⟨reply, middle, ran, rest⟩
  · rcases runs_attempt_iff.mp failed with ⟨_, ⟨⟩, _⟩ | ⟨fault, ⟨⟩, rfl⟩
    rcases wrapped fault with ⟨error, wrapped⟩
    exact Or.inr ⟨error, by rw [wrapped], rfl⟩
  · rcases runs_attempt_iff.mp ran with ⟨_, ⟨⟩, rfl⟩ | ⟨_, ⟨⟩, _⟩
    rw [quiet] at rest
    exact settles reply after outcome rest

theorem isError_dbError (fault : Fault) : IsError (dbError fault) :=
  ⟨_, rfl⟩

theorem isError_conflictError (fault : Fault) :
    IsError (conflictError fault) := by
  unfold conflictError
  split
  · exact ⟨_, rfl⟩
  · exact ⟨_, rfl⟩

theorem settles_query
    {op : Op Int64 Row Effect} {next : Reply op → Handler ChainedRow}
    (quiet : Tally.zero.note op = Tally.zero)
    (settles : ∀ reply, Settles (next reply)) :
    Settles (query op >>= next) :=
  settles_attempt quiet isError_dbError settles

theorem settles_liftExcept
    {α : Type} {result : Except Exit α} {next : α → Handler ChainedRow}
    (noPanic : NoPanic result)
    (settles : ∀ value, result = .ok value → Settles (next value)) :
    Settles (liftExcept result >>= next) := by
  cases result with
  | ok value => exact settles value rfl
  | error exit => exact settles_raise (noPanic exit rfl)

theorem settles_insertRow {wrap : Fault → Exit}
    (wrapped : ∀ fault, IsError (wrap fault)) (row : ChainedRow) :
    Settles (insertRow wrap row) := by
  intro after outcome ran
  rcases runs_bind_iff.mp ran with
    ⟨exit, failed, rfl⟩ | ⟨_, middle, inserted, rest⟩
  · rcases runs_attempt_iff.mp failed with ⟨_, ⟨⟩, _⟩ | ⟨fault, ⟨⟩, rfl⟩
    rcases wrapped fault with ⟨error, wrapped⟩
    exact Or.inr ⟨error, by rw [wrapped], rfl⟩
  · rcases runs_attempt_iff.mp inserted with ⟨_, ⟨⟩, rfl⟩ | ⟨_, ⟨⟩, _⟩
    rcases runs_bind_iff.mp rest with
      ⟨exit, failed, rfl⟩ | ⟨_, middle, committed, rest⟩
    · rcases runs_attempt_iff.mp failed with ⟨_, ⟨⟩, _⟩ | ⟨fault, ⟨⟩, rfl⟩
      exact Or.inr ⟨_, rfl, rfl⟩
    · rcases runs_attempt_iff.mp committed with ⟨_, ⟨⟩, rfl⟩ | ⟨_, ⟨⟩, _⟩
      rcases runs_done_iff.mp rest with ⟨rfl, rfl⟩
      exact Or.inl ⟨row, rfl, rfl⟩

theorem noPanic_prevArr (prev : Option Bytes) : NoPanic (prevArr prev) := by
  unfold prevArr
  split
  · split
    · exact noPanic_ok _
    · exact noPanic_error _
  · exact noPanic_ok _

/-- Linking fails without a panic when the fields can be encoded. -/
theorem noPanic_linkAfter
    {runtime : Runtime} {table : ChainTable}
    {fields : List CanonicalField} {prev : Option Bytes}
    (accepted :
      ∃ rowBytes,
        canonicalRowBytes runtime.chrono (name table) fields =
          .ok rowBytes) :
    NoPanic (linkAfter runtime table fields prev) := by
  rcases accepted with ⟨rowBytes, accepted⟩
  unfold linkAfter
  split
  · rename_i exit malformed
    rintro exit' ⟨⟩
    exact noPanic_prevArr prev exit malformed
  · rw [accepted]
    exact noPanic_ok _

theorem settles_insertDraft
    {runtime : Runtime} {wrap : Fault → Exit} {createdAt : Int}
    {draft : Draft} (wrapped : ∀ fault, IsError (wrap fault))
    (fits : ∀ field ∈ draft.fields, field.value.Fits) :
    Settles (insertDraft runtime wrap createdAt draft) := by
  have accepted := (draft_isOk_iff runtime draft).mpr fits
  unfold insertDraft computeChain
  rw [Program.bind_assoc]
  refine settles_query rfl fun _ => ?_
  rw [Program.bind_assoc]
  refine settles_query rfl fun rows => ?_
  refine settles_liftExcept (noPanic_linkAfter accepted) fun link _ => ?_
  exact settles_liftExcept (draft.rejects _) fun row _ =>
    settles_insertRow wrapped row

theorem settles_createFrom
    {runtime : Runtime} {wrap : Fault → Exit} {draft : Draft}
    (wrapped : ∀ fault, IsError (wrap fault))
    (fits : ∀ field ∈ draft.fields, field.value.Fits) :
    Settles (createFrom runtime wrap draft) :=
  settles_query rfl fun _ => settles_insertDraft wrapped fits

theorem noPanic_nextSeq (rows : List Row) (runId : Uuid) :
    NoPanic (nextSeq rows runId) := by
  unfold nextSeq
  split
  · exact noPanic_ok _
  · exact noPanic_error _

theorem noPanic_badRequest {α : Type} (context : String)
    (result : Except String α) : NoPanic (badRequest context result) := by
  cases result with
  | ok value => exact noPanic_ok value
  | error message => exact noPanic_error _

theorem noPanic_read (runtime : Runtime) (upload : Upload) (part : Part) :
    NoPanic (upload.read runtime part) := by
  unfold Upload.read
  split
  · refine (noPanic_badRequest _ _).bind fun text => ?_
    exact (noPanic_badRequest _ _).bind fun _ => noPanic_ok _
  · exact (noPanic_badRequest _ _).bind fun _ => noPanic_ok _
  · exact (noPanic_badRequest _ _).bind fun _ => noPanic_ok _
  · refine (noPanic_badRequest _ _).bind fun text => ?_
    exact (noPanic_badRequest _ _).bind fun _ => noPanic_ok _
  · exact (noPanic_badRequest _ _).bind fun _ => noPanic_ok _
  · exact noPanic_ok _

theorem noPanic_readAll (runtime : Runtime) (upload : Upload)
    (parts : List (Except String Part)) :
    NoPanic (Upload.readAll runtime upload parts) := by
  induction parts generalizing upload with
  | nil => exact noPanic_ok _
  | cons part parts induction =>
      cases part with
      | error message => exact noPanic_ok _
      | ok part => exact (noPanic_read runtime upload part).bind induction

theorem noPanic_required {α : Type} (text : String) (value : Option α) :
    NoPanic (required text value) := by
  cases value with
  | some value => exact noPanic_ok value
  | none => exact noPanic_error _

theorem required_eq_ok_iff {α : Type} {text : String} {value : Option α}
    {present : α} :
    required text value = .ok present ↔ value = some present := by
  cases value <;> simp [required]

/-- A score that was deserialised is hashed as a text. -/
theorem scoreText_isOk (runtime : Runtime) {score : Option F64}
    (finite : ∀ f ∈ score, f.isFinite = true) :
    ∃ scoreStr, scoreText runtime score = .ok scoreStr := by
  cases score with
  | none => exact ⟨none, rfl⟩
  | some f => exact ⟨_, by rw [scoreText, if_pos (finite f rfl)]⟩

/-- A handler settles when the fields it hashes fit. -/
theorem settles_of_draftFits
    {runtime : Runtime} {request : WriteRequest}
    (fits : DraftFits runtime request) :
    Settles (write runtime request) := by
  cases request with
  | event actor id runId input =>
      refine settles_query rfl fun createdAt => ?_
      refine settles_query rfl fun _ => ?_
      refine settles_query rfl fun known => ?_
      split
      · refine settles_query rfl fun rows => ?_
        refine settles_liftExcept (noPanic_nextSeq _ _) fun seq _ => ?_
        exact settles_insertDraft isError_dbError
          (fits seq _ (Option.mem_some_self _))
      · exact settles_raise ⟨_, rfl⟩
  | artifact actor id parts =>
      refine settles_liftExcept (noPanic_readAll _ _ _)
        fun upload readParts => ?_
      refine settles_liftExcept (noPanic_required _ _)
        fun runId hasRun => ?_
      refine settles_liftExcept (noPanic_required _ _)
        fun data hasFile => ?_
      refine settles_attempt rfl (fun _ => ⟨_, rfl⟩) fun _ => ?_
      refine settles_query rfl fun createdAt => ?_
      rw [required_eq_ok_iff] at hasRun hasFile
      apply settles_insertDraft isError_dbError
      apply fits 0
      simp [draftOf, readParts, hasRun, hasFile]
  | toolInvocation actor id input =>
      exact settles_createFrom isError_dbError
        (fits 0 _ (Option.mem_some_self _))
  | sideEffect actor id input =>
      exact settles_createFrom isError_dbError
        (fits 0 _ (Option.mem_some_self _))
  | guardrail actor id input =>
      exact settles_createFrom isError_dbError
        (fits 0 _ (Option.mem_some_self _))
  | humanApproval actor input =>
      exact settles_createFrom isError_conflictError
        (fits 0 _ (Option.mem_some_self _))
  | biasSlice actor id input =>
      simp only [write, createBiasSlice]
      split
      · exact settles_raise ⟨_, rfl⟩
      · refine settles_query rfl fun createdAt => ?_
        rcases scoreText_isOk runtime input.score_finite with
          ⟨scoreStr, hashed⟩
        split
        · rename_i runId ofRun
          rw [hashed]
          apply settles_insertDraft isError_dbError
          exact fits 0 _ (draftOf_biasSlice 0 ofRun hashed)
        · exact settles_insertRow isError_dbError _

/-! ## Panics -/

/-- Some behaviour of the database makes the handler panic. -/
def Panics (handler : Handler ChainedRow) : Prop :=
  ∀ before, ∃ after panic, Runs handler before after (.error (.panic panic))

/-- A handler that panics does not settle. -/
theorem Panics.not_settles {handler : Handler ChainedRow}
    (panics : Panics handler) : ¬ Settles handler := by
  intro settles
  rcases panics Tally.zero with ⟨after, panic, ran⟩
  rcases settles after _ ran with ⟨_, ⟨⟩, _⟩ | ⟨_, ⟨⟩, _⟩

/-- One answer to a statement is enough. -/
theorem panics_attempt
    (op : Op Int64 Row Effect) {wrap : Fault → Exit}
    {next : Reply op → Handler ChainedRow} (reply : Reply op)
    (panics : Panics (next reply)) : Panics (attempt op wrap >>= next) := by
  intro before
  rcases panics (before.note op) with ⟨after, panic, rest⟩
  refine ⟨after, panic, runs_bind_iff.mpr (Or.inr ⟨reply, _, ?_, rest⟩)⟩
  exact runs_attempt_iff.mpr (Or.inl ⟨reply, rfl, rfl⟩)

theorem panics_query
    (op : Op Int64 Row Effect) {next : Reply op → Handler ChainedRow}
    (reply : Reply op) (panics : Panics (next reply)) :
    Panics (query op >>= next) :=
  panics_attempt op reply panics

theorem panics_liftExcept
    {α : Type} {result : Except Exit α} {value : α}
    {next : α → Handler ChainedRow} (computed : result = .ok value)
    (panics : Panics (next value)) : Panics (liftExcept result >>= next) := by
  subst computed
  exact panics

/-- In a fresh chain a draft that does not fit reaches the encoder. -/
theorem panics_insertDraft
    {runtime : Runtime} {wrap : Fault → Exit} {createdAt : Int}
    {draft : Draft}
    (unfit : ¬ ∀ field ∈ draft.fields, field.value.Fits) :
    Panics (insertDraft runtime wrap createdAt draft) := by
  rw [← draft_isOk_iff runtime] at unfit
  unfold insertDraft computeChain
  rw [Program.bind_assoc]
  apply panics_query (.lock _) ()
  rw [Program.bind_assoc]
  apply panics_query .select ([] : List Row)
  cases encoded :
      canonicalRowBytes runtime.chrono (name draft.table) draft.fields with
  | ok rowBytes => exact absurd ⟨rowBytes, encoded⟩ unfit
  | error panic =>
      have linked :
          linkAfter runtime draft.table draft.fields
              (tail draft.table draft.runId []) =
            .error (.panic panic) := by
        rw [linkAfter, encoded]
        rfl
      intro before
      refine ⟨before, panic, ?_⟩
      rw [linked]
      exact runs_raise_iff.mpr ⟨rfl, rfl⟩

theorem panics_createFrom
    {runtime : Runtime} {wrap : Fault → Exit} {draft : Draft}
    (unfit : ¬ ∀ field ∈ draft.fields, field.value.Fits) :
    Panics (createFrom runtime wrap draft) :=
  panics_query .begin (0 : Int) (panics_insertDraft unfit)

/-- A run to append to. -/
def openRun (runId : Uuid) : Run where
  id := runId
  agent := "agent"
  startedAt := .zero
  metadata := Json.null
  actorId := "actor"

/-- A draft that does not fit makes its handler panic. -/
theorem panics_of_not_draftFits
    {runtime : Runtime} {request : WriteRequest}
    (unfit : ¬ DraftFits runtime request) :
    Panics (write runtime request) := by
  simp only [DraftFits, not_forall] at unfit
  rcases unfit with ⟨seq, draft, drafted, unfit⟩
  simp only [← not_forall] at unfit
  cases request with
  | event actor id runId input =>
      cases drafted
      apply panics_query .begin (0 : Int)
      apply panics_query (.lock _) ()
      apply panics_query .select [Row.run (openRun runId)]
      have known : runExists [Row.run (openRun runId)] runId = true := by
        simp [runExists, Row.run?, openRun]
      rw [if_pos known]
      apply panics_query .select ([] : List Row)
      have first : nextSeq [] runId = .ok 1 := rfl
      apply panics_liftExcept first
      apply panics_insertDraft
      -- the number of an event always fits
      simpa [eventDraft, CanonicalField.i64, CanonicalValue.Fits] using unfit
  | artifact actor id parts =>
      simp only [draftOf] at drafted
      split at drafted
      · cases drafted
      · rename_i upload readParts
        split at drafted
        · rename_i runId data hasRun hasFile
          cases drafted
          apply panics_liftExcept readParts
          apply panics_liftExcept (required_eq_ok_iff.mpr hasRun)
          apply panics_liftExcept (required_eq_ok_iff.mpr hasFile)
          apply panics_attempt (.emit _) ()
          apply panics_query .begin (0 : Int)
          exact panics_insertDraft unfit
        · cases drafted
  | toolInvocation actor id input =>
      cases drafted
      exact panics_createFrom unfit
  | sideEffect actor id input =>
      cases drafted
      exact panics_createFrom unfit
  | guardrail actor id input =>
      cases drafted
      exact panics_createFrom unfit
  | humanApproval actor input =>
      cases drafted
      exact panics_createFrom unfit
  | biasSlice actor id input =>
      simp only [draftOf] at drafted
      split at drafted
      · cases drafted
      · rename_i runId ofRun
        split at drafted
        · cases drafted
        · rename_i scoreStr hashed
          cases drafted
          simp only [write, createBiasSlice]
          rw [if_neg (by simp [ofRun])]
          apply panics_query .begin (0 : Int)
          split
          · rename_i runId' ofRun'
            have same : runId = runId' := by
              rwa [ofRun, Option.some.injEq] at ofRun'
            subst same
            rw [hashed]
            exact panics_insertDraft unfit
          · rename_i missing
            rw [ofRun] at missing
            cases missing

/-! ## Which requests settle -/

/-- A text that fits its length prefix. -/
def TextFits (text : String) : Prop :=
  (utf8 text).length < 2 ^ 32

/-- A JSON value without floats whose text fits its length prefix. -/
def JsonFits (value : Json) : Prop :=
  value.FloatFree ∧
    ∀ canon, toCanonicalString value.value = .ok canon → TextFits canon

/-- All texts and JSON values that are hashed for a request fit. -/
def Hashable (runtime : Runtime) : WriteRequest → Prop
  | .event actor _ _ input =>
      TextFits input.kind ∧ JsonFits input.body ∧ TextFits actor
  | .artifact actor _ parts =>
      ∀ upload, Upload.readAll runtime Upload.initial parts = .ok upload →
        upload.runId.isSome = true → upload.fileData.isSome = true →
          TextFits upload.mediaType ∧ TextFits upload.label ∧
            JsonFits upload.metadata ∧ TextFits actor
  | .toolInvocation actor _ input =>
      TextFits input.tool ∧ JsonFits input.input ∧ JsonFits input.output ∧
        TextFits input.status ∧ JsonFits input.metadata ∧ TextFits actor
  | .sideEffect actor _ input =>
      TextFits input.kind ∧ TextFits input.target ∧ TextFits input.status ∧
        JsonFits input.confirmation ∧ TextFits actor
  | .guardrail actor _ input =>
      TextFits input.name ∧ TextFits input.stage ∧
        (∀ target ∈ input.target, TextFits target) ∧
          TextFits input.outcome ∧ JsonFits input.detail ∧ TextFits actor
  | .humanApproval actor input =>
      TextFits input.tool ∧ TextFits input.decision ∧
        (∀ reason ∈ input.reason, TextFits reason) ∧
          (∀ decidedBy ∈ input.decidedBy, TextFits decidedBy) ∧
            JsonFits input.metadata ∧ TextFits actor
  | .biasSlice actor _ input =>
      input.runId.isSome = true →
        TextFits input.label ∧ (∀ value ∈ input.value, TextFits value) ∧
          JsonFits input.metadata ∧ TextFits actor

@[simp]
theorem fits_str_iff {name text : String} :
    (CanonicalField.str name text).value.Fits ↔ TextFits text :=
  Iff.rfl

@[simp]
theorem fits_json_iff {name : String} {value : Json} :
    (CanonicalField.json name value).value.Fits ↔ JsonFits value :=
  Iff.rfl

@[simp]
theorem fits_uuid (name : String) (id : Uuid) :
    (CanonicalField.uuid name id).value.Fits :=
  trivial

@[simp]
theorem fits_i64 (name : String) (value : Int64) :
    (CanonicalField.i64 name value).value.Fits :=
  trivial

@[simp]
theorem fits_timestamp (name : String) (time : DateTime) :
    (CanonicalField.timestamp name time).value.Fits :=
  trivial

@[simp]
theorem fits_optStr_iff {name : String} {value : Option String} :
    (CanonicalField.optStr name value).value.Fits ↔
      ∀ text ∈ value, TextFits text := by
  cases value with
  | none => exact iff_of_true trivial fun _ absurdity => nomatch absurdity
  | some text =>
      simp [CanonicalField.optStr, CanonicalField.opt]

@[simp]
theorem fits_optUuid (name : String) (value : Option Uuid) :
    (CanonicalField.optUuid name value).value.Fits := by
  cases value <;> trivial

@[simp]
theorem fits_optI64 (name : String) (value : Option Int64) :
    (CanonicalField.optI64 name value).value.Fits := by
  cases value <;> trivial

/-- The hex digest of a blob has 64 symbols. -/
@[simp]
theorem textFits_sha256Hex (runtime : Runtime) (data : Bytes) :
    TextFits (sha256Hex runtime data) := by
  have short :=
    length_utf8_ofList_le
      ((runtime.sha256 data).bytes.map Hexadecimal.digits).flatten
  rw [Hexadecimal.length_digits, Block.length_bytes] at short
  rw [TextFits, sha256Hex, Hexadecimal.encode]
  omega

/-- The text of a score is short. -/
theorem textFits_of_scoreText
    {runtime : Runtime} {score : Option F64} {scoreStr : Option String}
    (hashed : scoreText runtime score = .ok scoreStr) :
    ∀ text, scoreStr = some text → TextFits text := by
  rintro text rfl
  cases score with
  | none => cases hashed
  | some f =>
      rw [scoreText] at hashed
      split at hashed
      · cases hashed
        exact runtime.f64ToString_short f
      · cases hashed

theorem draftFits_iff_hashable {runtime : Runtime} {request : WriteRequest} :
    DraftFits runtime request ↔ Hashable runtime request := by
  cases request with
  | event actor id runId input =>
      simp [DraftFits, draftOf, eventDraft, Hashable]
  | artifact actor id parts =>
      simp only [DraftFits, draftOf, Hashable]
      cases Upload.readAll runtime Upload.initial parts with
      | error exit => simp
      | ok upload =>
          cases hasRun : upload.runId with
          | none => simp [hasRun]
          | some runId =>
              cases hasFile : upload.fileData with
              | none => simp [hasFile]
              | some data => simp [hasRun, hasFile, artifactDraft]
  | toolInvocation actor id input =>
      simp [DraftFits, draftOf, toolInvocationDraft, Hashable]
  | sideEffect actor id input =>
      simp [DraftFits, draftOf, sideEffectDraft, Hashable]
  | guardrail actor id input =>
      simp [DraftFits, draftOf, guardrailDraft, Hashable]
  | humanApproval actor input =>
      simp [DraftFits, draftOf, humanApprovalDraft, Hashable]
  | biasSlice actor id input =>
      cases ofRun : input.runId with
      | none =>
          have undrafted :
              ∀ seq, draftOf runtime seq (.biasSlice actor id input) = none := by
            intro seq
            simp only [draftOf]
            split
            · rfl
            · rename_i runId ofRun'
              rw [ofRun] at ofRun'
              cases ofRun'
          simp [DraftFits, undrafted, Hashable, ofRun]
      | some runId =>
          rcases scoreText_isOk runtime input.score_finite with
            ⟨scoreStr, hashed⟩
          have short := textFits_of_scoreText hashed
          have drafted :
              ∀ seq,
                draftOf runtime seq (.biasSlice actor id input) =
                  some
                    (biasSliceDraft runtime actor id runId scoreStr input
                      ofRun) :=
            fun seq => draftOf_biasSlice seq ofRun hashed
          simpa [DraftFits, drafted, biasSliceDraft, Hashable, ofRun]
            using fun _ _ _ _ => short

/--
A write settles, whatever the database answers, exactly if everything that is
hashed for it fits.
-/
theorem settles_iff_hashable (runtime : Runtime) (request : WriteRequest) :
    Settles (write runtime request) ↔ Hashable runtime request := by
  rw [← draftFits_iff_hashable]
  constructor
  · intro settles
    by_contra unfit
    exact (panics_of_not_draftFits unfit).not_settles settles
  · exact settles_of_draftFits

/-- An event whose body is the number 1.5. -/
def fractionalNote : WriteRequest :=
  .event "actor" 1 7
    { kind := "note"
      body := ⟨.number (.float 0x3FF8000000000000), by decide⟩
      occurredAt := .epoch }

/-- The body of an event may be a fraction, which stops the encoder. -/
theorem not_settles_fractionalNote :
    ¬ ∀ runtime request, Settles (write runtime request) := by
  intro settles
  refine Panics.not_settles ?_ (settles Runtime.plain fractionalNote)
  apply panics_of_not_draftFits
  rw [draftFits_iff_hashable]
  rintro ⟨_, ⟨free, _⟩, _⟩
  revert free
  decide

end Trackward.Ledger.WriteOutcomes
