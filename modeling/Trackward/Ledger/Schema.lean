import Trackward.Ledger.Dossiers
import Trackward.Lib.Admission
import Mathlib.Data.List.Pairwise

/-!
# The constraints of all tables

The keys and references the migrations declare, as the condition on a new row
of any table.  Rows are never changed or deleted, so what the constraints
demanded of a row when it was inserted stays true of it.
-/

namespace Trackward.Ledger.Schema

open Trackward.ChainCore.Encode
open Trackward.Ledger.Dossiers
open Trackward.Ledger.Models
open Trackward.Ledger.Records
open Trackward.Lib.Admission

/-! ## Keys -/

/-- The two records agree in a primary key or in a unique constraint. -/
def clash : Record → Record → Bool
  | .promptVersion first, .promptVersion second =>
      first.id = second.id ||
        first.workflow = second.workflow &&
          first.version = second.version &&
            first.contentHash = second.contentHash
  | .policyVersion first, .policyVersion second =>
      first.id = second.id ||
        first.scope = second.scope && first.version = second.version &&
          first.contentHash = second.contentHash
  | .evalResult first, .evalResult second => first.id = second.id
  | .binding first, .binding second => first.runId = second.runId
  | .custodyEvent first, .custodyEvent second => first.id = second.id
  | .case first, .case second => first.id = second.id
  | .caseEvidence first, .caseEvidence second =>
      first.caseId = second.caseId &&
        first.evidenceType = second.evidenceType &&
          first.evidenceId = second.evidenceId
  | .exportBundle first, .exportBundle second => first.id = second.id
  | _, _ => false

/-! ## References -/

def promptVersionExists (entries : List Entry) (id : Uuid) : Bool :=
  ((records entries).filterMap Record.promptVersion?).any fun row =>
    row.id = id

def policyVersionExists (entries : List Entry) (id : Uuid) : Bool :=
  ((records entries).filterMap Record.policyVersion?).any fun row =>
    row.id = id

def evalResultExists (entries : List Entry) (id : Uuid) : Bool :=
  (records entries).any fun record =>
    match record with
    | .evalResult row => row.id = id
    | _ => false

def caseExists (entries : List Entry) (id : Uuid) : Bool :=
  ((records entries).filterMap Record.case?).any fun row => row.id = id

/-- The rows a record refers to exist. -/
def refers (entries : List Entry) : Record → Bool
  | .evalResult row =>
      row.promptVersionId.all (promptVersionExists entries)
  | .binding row =>
      runExists (entries.filterMap Entry.row?) row.runId &&
        row.promptVersionId.all (promptVersionExists entries) &&
          row.policyVersionId.all (policyVersionExists entries) &&
            row.evalResultId.all (evalResultExists entries)
  | .caseEvidence row => caseExists entries row.caseId
  | .exportBundle row => caseExists entries row.caseId
  | _ => true

/-- The evaluation a row refers to exists. -/
def rowRefers (entries : List Entry) : Row → Bool
  | .chained (.biasSlice row) =>
      row.evalResultId.all (evalResultExists entries)
  | _ => true

/-- The constraints of the migrations on a new row of any table. -/
def accepts (entries : List Entry) : Entry → Bool
  | .ofRow row =>
      Models.schema (entries.filterMap Entry.row?) row &&
        rowRefers entries row
  | .ofRecord record =>
      (records entries).all (fun other => !clash other record) &&
        refers entries record

/-! ## What stays true of accepted rows -/

variable {entries : List Entry}

/-- No two records clash. -/
theorem pairwise_records (accepted : Accepted accepts entries) :
    (records entries).Pairwise fun first second =>
      clash first second = false := by
  rw [records, List.pairwise_filterMap]
  apply accepted.pairwise
  intro past entry passed other member record isRecord record' isRecord'
  cases entry with
  | ofRow row => cases isRecord'
  | ofRecord newer =>
      cases isRecord'
      simp only [accepts, Bool.and_eq_true, List.all_eq_true,
        Bool.not_eq_true'] at passed
      exact passed.1 record (List.mem_filterMap.mpr ⟨other, member, isRecord⟩)

theorem mem_chainedEntries {row : ChainedRow} :
    row ∈ chainedEntries entries ↔ Entry.ofRow (.chained row) ∈ entries := by
  simp only [chainedEntries, chainedRows, List.mem_filterMap]
  constructor
  · rintro ⟨plain, ⟨entry, member, isPlain⟩, isChained⟩
    cases entry <;> cases isPlain
    cases plain <;> cases isChained
    exact member
  · intro member
    exact ⟨.chained row, ⟨_, member, rfl⟩, rfl⟩

/-- No two rows of a chained table have the same id. -/
theorem pairwise_chainedEntries (accepted : Accepted accepts entries) :
    (chainedEntries entries).Pairwise fun first second =>
      first.table ≠ second.table ∨
        first.columns.id ≠ second.columns.id := by
  rw [chainedEntries, chainedRows, List.pairwise_filterMap,
    List.pairwise_filterMap]
  apply accepted.pairwise
  intro past entry passed other member plain isPlain plain' isPlain' row
    isRow row' isRow'
  cases entry with
  | ofRecord record => cases isPlain'
  | ofRow newer =>
      cases isPlain'
      cases plain' <;> cases isRow'
      simp only [accepts, Models.schema, primaryKey, Bool.and_eq_true,
        List.all_eq_true, Bool.or_eq_true, decide_eq_true_eq] at passed
      apply passed.1.1.1.1 row
      exact List.mem_filterMap.mpr
        ⟨plain, List.mem_filterMap.mpr ⟨other, member, isPlain⟩, isRow⟩

/-- A row of a chained table is determined by its id. -/
theorem eq_of_id_eq (accepted : Accepted accepts entries)
    {first second : ChainedRow} (member : first ∈ chainedEntries entries)
    (member' : second ∈ chainedEntries entries)
    (sameTable : first.table = second.table)
    (sameId : first.columns.id = second.columns.id) : first = second := by
  by_contra different
  have symmetric :
      Std.Symm fun first second : ChainedRow =>
        first.table ≠ second.table ∨
          first.columns.id ≠ second.columns.id :=
    ⟨fun _ _ => Or.imp Ne.symm Ne.symm⟩
  rcases
      (pairwise_chainedEntries accepted).forall member member' different with
    tables | ids
  · exact tables sameTable
  · exact ids sameId

/-- A side effect that names an invocation stands on top of that invocation. -/
theorem invocation_of_sideEffect (accepted : Accepted accepts entries)
    {effect : SideEffect} {id : Uuid}
    (member : ChainedRow.sideEffect effect ∈ chainedEntries entries)
    (named : effect.toolInvocationId = some id) :
    ∃ before after invocation,
      entries =
          before ++ .ofRow (.chained (.sideEffect effect)) :: after ∧
        ChainedRow.toolInvocation invocation ∈ chainedEntries before ∧
          invocation.id = id := by
  rcases accepted.accepts_of_mem (mem_chainedEntries.mp member) with
    ⟨before, after, split, passed⟩
  simp only [accepts, Models.schema, tableConstraints, named, Option.all_some,
    Bool.and_eq_true, List.any_eq_true, decide_eq_true_eq] at passed
  rcases passed.1.2 with ⟨row, earlier, isInvocation, isNamed⟩
  cases row <;> cases isInvocation
  rename_i invocation
  exact ⟨before, after, invocation, split, earlier, isNamed⟩

end Trackward.Ledger.Schema
