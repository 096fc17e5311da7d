import Trackward.ChainCore.Encode
import Trackward.Lib.Octets
import Trackward.Lib.Tables

/-!
# The migrations of the ledger

The eleven migrations, in their order, as definitions of tables, columns,
constraints and triggers.  Indexes are left out: none of them is unique.

Sixteen of the seventeen tables deny every update and every delete of a row.
The table of anchors has no trigger.
-/

namespace Trackward.Ledger.Migrations

open Trackward.ChainCore.Encode
open Trackward.Lib.Growth
open Trackward.Lib.Octets
open Trackward.Lib.Tables

/-! ## Values -/

/-- A value of a column; JSON is kept as its text. -/
inductive Value where
  | uuid (id : Uuid)
  | text (text : String)
  | jsonb (text : String)
  | timestamptz (micros : Int)
  | bigint (number : Int64)
  | int (number : Int32)
  | double (bits : UInt64)
  | boolean (flag : Bool)
  | bytea (bytes : Bytes)
  deriving DecidableEq

/-! ### Types -/

def uuid : Value → Bool
  | .uuid _ => true
  | _ => false

def text : Value → Bool
  | .text _ => true
  | _ => false

def jsonb : Value → Bool
  | .jsonb _ => true
  | _ => false

def timestamptz : Value → Bool
  | .timestamptz _ => true
  | _ => false

def bigint : Value → Bool
  | .bigint _ => true
  | _ => false

def int : Value → Bool
  | .int _ => true
  | _ => false

def doublePrecision : Value → Bool
  | .double _ => true
  | _ => false

def boolean : Value → Bool
  | .boolean _ => true
  | _ => false

def bytea : Value → Bool
  | .bytea _ => true
  | _ => false

/-! ### Columns -/

/-- A column that may be NULL. -/
def nullable (name : String) (typed : Value → Bool) : Column Value where
  name := name
  typed := typed
  notNull := false
  default := .null

/-- A NOT NULL column; a primary key is one. -/
def required (name : String) (typed : Value → Bool) : Column Value where
  name := name
  typed := typed
  notNull := true
  default := .null

/-- A NOT NULL column with a default. -/
def defaulted (name : String) (typed : Value → Bool)
    (default : Default Value) : Column Value where
  name := name
  typed := typed
  notNull := true
  default := default

/-- `TIMESTAMPTZ NOT NULL DEFAULT now()`. -/
def stamped (name : String) : Column Value :=
  defaulted name timestamptz .now

/-- `JSONB NOT NULL DEFAULT '{}'`. -/
def document (name : String) : Column Value :=
  defaulted name jsonb (.value (.jsonb "\x7b\x7d"))

/-- `REFERENCES table(id)`. -/
def refers (column table : String) : Reference where
  column := column
  table := table
  target := "id"

/-! ## The migrations -/

/-- The function of the triggers. -/
def denyMutation (table : String) : Except String Unit :=
  .error ("mutation denied on append-only table " ++ table)

/-- `BEFORE UPDATE OR DELETE ... EXECUTE FUNCTION deny_mutation()`. -/
def noUpdate (table : String) : Definition Value :=
  .createTrigger (table ++ "_no_update") true true table "deny_mutation"

/-- `0001_runs_events_artifacts.sql`. -/
def runsEventsArtifacts : List (Definition Value) :=
  [.createTable
      { name := "runs"
        columns :=
          [required "id" uuid,
            required "agent" text,
            stamped "started_at",
            document "metadata",
            stamped "created_at"]
        keys := [["id"]]
        references := []
        checks := []
        triggers := [] },
    .createFunction "deny_mutation" denyMutation,
    noUpdate "runs",
    .createTable
      { name := "events"
        columns :=
          [required "id" uuid,
            required "run_id" uuid,
            required "seq" bigint,
            required "kind" text,
            document "body",
            stamped "occurred_at",
            stamped "created_at"]
        keys := [["id"], ["run_id", "seq"]]
        references := [refers "run_id" "runs"]
        checks := []
        triggers := [] },
    noUpdate "events",
    .createTable
      { name := "artifacts"
        columns :=
          [required "id" uuid,
            required "run_id" uuid,
            required "sha256" text,
            required "size_bytes" bigint,
            defaulted "media_type" text
              (.value (.text "application/octet-stream")),
            defaulted "label" text (.value (.text "")),
            document "metadata",
            stamped "created_at"]
        keys := [["id"]]
        references := [refers "run_id" "runs"]
        checks := []
        triggers := [] },
    noUpdate "artifacts"]

/-- `0002_tool_invocations_side_effects.sql`. -/
def toolInvocationsSideEffects : List (Definition Value) :=
  [.createTable
      { name := "tool_invocations"
        columns :=
          [required "id" uuid,
            required "run_id" uuid,
            required "tool" text,
            document "input",
            document "output",
            required "status" text,
            nullable "status_code" int,
            stamped "started_at",
            stamped "finished_at",
            document "metadata",
            stamped "created_at"]
        keys := [["id"]]
        references := [refers "run_id" "runs"]
        checks := []
        triggers := [] },
    noUpdate "tool_invocations",
    .createTable
      { name := "side_effects"
        columns :=
          [required "id" uuid,
            required "run_id" uuid,
            nullable "tool_invocation_id" uuid,
            required "kind" text,
            required "target" text,
            required "status" text,
            document "confirmation",
            stamped "observed_at",
            stamped "created_at"]
        keys := [["id"]]
        references :=
          [refers "run_id" "runs",
            refers "tool_invocation_id" "tool_invocations"]
        checks := []
        triggers := [] },
    noUpdate "side_effects"]

/-- `0003_guardrails_human_approvals.sql`. -/
def guardrailsHumanApprovals : List (Definition Value) :=
  [.createTable
      { name := "guardrails"
        columns :=
          [required "id" uuid,
            required "run_id" uuid,
            required "name" text,
            required "stage" text,
            nullable "target" text,
            required "outcome" text,
            document "detail",
            stamped "evaluated_at",
            stamped "created_at"]
        keys := [["id"]]
        references := [refers "run_id" "runs"]
        checks := []
        triggers := [] },
    noUpdate "guardrails",
    .createTable
      { name := "human_approvals"
        columns :=
          [required "id" uuid,
            required "run_id" uuid,
            required "tool" text,
            required "decision" text,
            nullable "reason" text,
            nullable "decided_by" text,
            required "requested_at" timestamptz,
            stamped "decided_at",
            document "metadata",
            stamped "created_at"]
        keys := [["id"]]
        references := [refers "run_id" "runs"]
        checks := []
        triggers := [] },
    noUpdate "human_approvals"]

/-- `0004_prompt_policy_eval.sql`. -/
def promptPolicyEval : List (Definition Value) :=
  [.createTable
      { name := "prompt_versions"
        columns :=
          [required "id" uuid,
            required "workflow" text,
            required "version" text,
            required "git_sha" text,
            required "content_hash" text,
            document "metadata",
            stamped "created_at"]
        keys := [["id"], ["workflow", "version", "content_hash"]]
        references := []
        checks := []
        triggers := [] },
    noUpdate "prompt_versions",
    .createTable
      { name := "policy_versions"
        columns :=
          [required "id" uuid,
            required "scope" text,
            required "version" text,
            required "git_sha" text,
            required "content_hash" text,
            document "metadata",
            stamped "created_at"]
        keys := [["id"], ["scope", "version", "content_hash"]]
        references := []
        checks := []
        triggers := [] },
    noUpdate "policy_versions",
    .createTable
      { name := "eval_results"
        columns :=
          [required "id" uuid,
            required "workflow" text,
            required "version" text,
            nullable "prompt_version_id" uuid,
            required "git_sha" text,
            required "content_hash" text,
            required "passed" boolean,
            document "summary",
            stamped "ran_at",
            stamped "created_at"]
        keys := [["id"]]
        references := [refers "prompt_version_id" "prompt_versions"]
        checks := []
        triggers := [] },
    noUpdate "eval_results",
    .createTable
      { name := "run_version_bindings"
        columns :=
          [required "run_id" uuid,
            nullable "prompt_version_id" uuid,
            nullable "policy_version_id" uuid,
            nullable "eval_result_id" uuid,
            stamped "bound_at"]
        keys := [["run_id"]]
        references :=
          [refers "run_id" "runs",
            refers "prompt_version_id" "prompt_versions",
            refers "policy_version_id" "policy_versions",
            refers "eval_result_id" "eval_results"]
        checks := []
        triggers := [] },
    noUpdate "run_version_bindings"]

/-- `0005_bias_slices.sql`. -/
def biasSlices : List (Definition Value) :=
  [.createTable
      { name := "bias_slices"
        columns :=
          [required "id" uuid,
            nullable "run_id" uuid,
            nullable "eval_result_id" uuid,
            required "label" text,
            nullable "value" text,
            nullable "score" doublePrecision,
            document "metadata",
            stamped "created_at"]
        keys := [["id"]]
        references :=
          [refers "run_id" "runs",
            refers "eval_result_id" "eval_results"]
        checks :=
          [{ name := "bias_slices_check"
             holds := fun value =>
               (value "run_id").isSome ||
                 (value "eval_result_id").isSome }]
        triggers := [] },
    noUpdate "bias_slices"]

/-- `0006_custody_events.sql`. -/
def custodyEvents : List (Definition Value) :=
  [.createTable
      { name := "custody_events"
        columns :=
          [required "id" uuid,
            required "evidence_type" text,
            required "evidence_id" uuid,
            required "action" text,
            required "actor" text,
            nullable "reason" text,
            stamped "occurred_at",
            document "metadata",
            stamped "created_at"]
        keys := [["id"]]
        references := []
        checks := []
        triggers := [] },
    noUpdate "custody_events"]

/-- `0007_cases.sql`. -/
def cases : List (Definition Value) :=
  [.createTable
      { name := "cases"
        columns :=
          [required "id" uuid,
            required "title" text,
            defaulted "description" text (.value (.text "")),
            required "opened_by" text,
            stamped "opened_at",
            document "metadata",
            stamped "created_at"]
        keys := [["id"]]
        references := []
        checks := []
        triggers := [] },
    noUpdate "cases",
    .createTable
      { name := "case_evidence"
        columns :=
          [required "case_id" uuid,
            required "evidence_type" text,
            required "evidence_id" uuid,
            required "linked_by" text,
            stamped "linked_at",
            nullable "note" text,
            stamped "created_at"]
        keys := [["case_id", "evidence_type", "evidence_id"]]
        references := [refers "case_id" "cases"]
        checks := []
        triggers := [] },
    noUpdate "case_evidence"]

/-- `0008_export_bundles.sql`. -/
def exportBundles : List (Definition Value) :=
  [.createTable
      { name := "export_bundles"
        columns :=
          [required "id" uuid,
            required "case_id" uuid,
            required "manifest_json" text,
            required "manifest_sha256" text,
            required "signature" text,
            required "key_id" text,
            required "public_key_hex" text,
            required "signed_by" text,
            stamped "signed_at",
            nullable "storage_uri" text,
            stamped "created_at"]
        keys := [["id"]]
        references := [refers "case_id" "cases"]
        checks := []
        triggers := [] },
    noUpdate "export_bundles"]

/-- `0009_actor.sql`. -/
def actor : List (Definition Value) :=
  ["runs", "events", "artifacts", "tool_invocations", "side_effects",
    "guardrails", "human_approvals", "prompt_versions", "policy_versions",
    "eval_results", "run_version_bindings", "bias_slices",
    "custody_events", "cases", "case_evidence", "export_bundles"].map
    fun table =>
      .alterTable table
        [defaulted "actor_id" text (.value (.text "legacy"))] []

/-- `octet_length(column) = length`, which NULL passes. -/
def octetLength (name column : String) (length : Nat) : Check Value where
  name := name
  holds := fun value =>
    match value column with
    | some (.bytea bytes) => bytes.length = length
    | _ => true

/-- `0010_hash_chain.sql`. -/
def hashChain : List (Definition Value) :=
  ["events", "artifacts", "tool_invocations", "side_effects", "guardrails",
    "human_approvals", "bias_slices"].map
    fun table =>
      .alterTable table
        [nullable "prev_hash" bytea,
          defaulted "row_hash" bytea
            (.value (.bytea (List.replicate 32 0)))]
        [octetLength (table ++ "_prev_hash_length") "prev_hash" 32,
          octetLength (table ++ "_row_hash_length") "row_hash" 32]

/-- `anchored_to > anchored_from`. -/
def windowNonempty : Check Value where
  name := "anchors_window_nonempty"
  holds := fun value =>
    match value "anchored_from", value "anchored_to" with
    | some (.timestamptz lower), some (.timestamptz upper) => lower < upper
    | _, _ => true

/-- `leaf_count > 0`. -/
def leafCountPositive : Check Value where
  name := "anchors_leaf_count_positive"
  holds := fun value =>
    match value "leaf_count" with
    | some (.bigint count) => 0 < count.toInt
    | _ => true

/-- `0011_merkle_anchors.sql`; no trigger is created for the table. -/
def merkleAnchors : List (Definition Value) :=
  [.createTable
    { name := "anchors"
      columns :=
        [required "id" uuid,
          nullable "run_id" uuid,
          required "anchored_from" timestamptz,
          required "anchored_to" timestamptz,
          required "leaf_count" bigint,
          required "root_hash" bytea,
          required "signature" bytea,
          required "key_id" text,
          required "public_key_hex" text,
          required "anchor_target" text,
          required "anchored_at" timestamptz,
          stamped "created_at"]
      keys := [["id"]]
      references := []
      checks :=
        [octetLength "anchors_root_hash_len" "root_hash" 32,
          octetLength "anchors_signature_len" "signature" 64,
          windowNonempty,
          leafCountPositive]
      triggers := [] }]

/-- All migrations, in their order. -/
def migrations : List (Definition Value) :=
  runsEventsArtifacts ++ toolInvocationsSideEffects ++
    guardrailsHumanApprovals ++ promptPolicyEval ++ biasSlices ++
      custodyEvents ++ cases ++ exportBundles ++ actor ++ hashChain ++
        merkleAnchors

/-- The tables after all migrations. -/
def schema : Schema Value :=
  match migrate migrations with
  | some catalog => catalog.tables
  | none => []

theorem migrate_isSome : (migrate migrations).isSome = true := by
  decide +kernel

/-! ## Which tables are append-only -/

theorem names_nodup : (schema.map Table.name).Nodup := by
  decide +kernel

/-- Every table but the anchors has the trigger of its migration. -/
theorem denies_of_ne_anchors :
    ∀ table ∈ schema, table.name ≠ "anchors" → table.denies = true := by
  have checked :
      schema.all (fun table =>
        table.name = "anchors" || table.denies) = true := by
    decide +kernel
  intro table member other
  have either := List.all_eq_true.mp checked table member
  simpa [other] using either

/-- The table of anchors has no trigger. -/
theorem exists_anchors :
    ∃ table ∈ schema, table.name = "anchors" ∧ table.triggers = [] := by
  have checked :
      schema.any (fun table =>
        table.name = "anchors" && table.triggers.isEmpty) = true := by
    decide +kernel
  rcases List.any_eq_true.mp checked with ⟨table, member, both⟩
  simp only [Bool.and_eq_true, decide_eq_true_eq,
    List.isEmpty_iff] at both
  exact ⟨table, member, both⟩

theorem unreferenced_anchors : schema.unreferenced "anchors" = true := by
  decide +kernel

/--
In the course of statements on the migrated schema no committed row is lost or
changed, exactly if no DELETE matches an anchor and no UPDATE of the anchors
replaces one.
-/
theorem persistent_iff_spares_anchors
    (statements : List (Statement Value)) :
    schema.Persistent statements ↔
      Grows
        (fun before statement =>
          statement.Spares schema (schema.replay before) "anchors")
        statements := by
  rcases exists_anchors with ⟨anchors, member, named, free⟩
  have denied :
      ∀ table ∈ schema,
        table.name ≠ anchors.name → table.denies = true := by
    rw [named]
    exact denies_of_ne_anchors
  have unreferenced : schema.unreferenced anchors.name = true := by
    rw [named]
    exact unreferenced_anchors
  rw [← named]
  exact persistent_iff_spares names_nodup member free unreferenced denied

/-- The receipt of an anchor, with a root hash and a signature of zeros. -/
def insertAnchor : Statement Value :=
  .insert "anchors" (.timestamptz 3)
    [("id", some (.uuid 1)),
      ("anchored_from", some (.timestamptz 0)),
      ("anchored_to", some (.timestamptz 2)),
      ("leaf_count", some (.bigint 1)),
      ("root_hash", some (.bytea (List.replicate 32 0))),
      ("signature", some (.bytea (List.replicate 64 0))),
      ("key_id", some (.text "key")),
      ("public_key_hex", some (.text "00")),
      ("anchor_target", some (.text "noop")),
      ("anchored_at", some (.timestamptz 2))]

/-- `DELETE FROM anchors`. -/
def deleteAnchors : Statement Value :=
  .delete "anchors" fun _ => true

/-- An anchor that was committed can be deleted. -/
theorem not_persistent_of_deleteAnchors :
    ¬ ∀ statements, schema.Persistent statements := by
  intro always
  rcases exists_anchors with ⟨anchors, member, named, _⟩
  have kept :=
    always [insertAnchor, deleteAnchors] [insertAnchor]
      [insertAnchor, deleteAnchors] (List.prefix_append _ _)
      List.prefix_rfl anchors member
  rw [named] at kept
  have lost :
      ¬ ∀ row ∈ schema.replay [insertAnchor] "anchors",
        row ∈ schema.replay [insertAnchor, deleteAnchors] "anchors" := by
    decide +kernel
  exact lost kept

end Trackward.Ledger.Migrations
