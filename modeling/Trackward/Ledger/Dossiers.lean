import Trackward.Ledger.Records

/-!
# The dossier of a run

A dossier is read section by section, each with a statement and an order of its
own.  The database sorts by the column a statement names and leaves rows with
equal values in any order; `RowOrder` is such a choice.

An anchor of the run hashes the same rows in the order of `created_at` and id
across all tables.  The two orders agree exactly if the sections, one after the
other, happen to be in that order already.
-/

namespace Trackward.Ledger.Dossiers

open Trackward.ChainCore.Chrono
open Trackward.ChainCore.Encode
open Trackward.Ledger.Anchoring
open Trackward.Ledger.Chain
open Trackward.Ledger.Models
open Trackward.Ledger.Records
open Trackward.Ledger.Timestamps
open Trackward.Lib.KeyedLists
open Trackward.Lib.Octets
open Trackward.Lib.Programs
open Trackward.Lib.Transactions

/-! ## Sections -/

/-- How the database carries out an ORDER BY. -/
structure RowOrder where
  sort : (ChainedRow → Int) → List ChainedRow → List ChainedRow
  perm : ∀ key rows, (sort key rows).Perm rows
  sorted :
    ∀ key rows,
      (sort key rows).Pairwise fun first second => key first ≤ key second

/-- Rows with equal values stay in commit order. -/
def RowOrder.stable : RowOrder where
  sort := sortByKey
  perm := sortByKey_perm
  sorted := sortByKey_pairwise

/-- What the section of a table is ordered by. -/
def sectionKey : ChainedRow → Int
  | .event row => row.seq.toInt
  | .toolInvocation row => row.startedAt.micros
  | .sideEffect row => row.observedAt.micros
  | .guardrail row => row.evaluatedAt.micros
  | .humanApproval row => row.decidedAt.micros
  | .biasSlice row => row.createdAt
  | .artifact row => row.createdAt

/-- The row is in one table and run. -/
def inSection (table : ChainTable) (runId : Uuid) (row : ChainedRow) :
    Bool :=
  row.table = table && row.runId = some runId

/-- The chained rows of the database. -/
def chainedEntries (entries : List Entry) : List ChainedRow :=
  chainedRows (entries.filterMap Entry.row?)

/-- The rows of a section. -/
def sectionRows (order : RowOrder) (runId : Uuid) (table : ChainTable)
    (entries : List Entry) : List ChainedRow :=
  order.sort sectionKey
    ((chainedEntries entries).filter (inSection table runId))

/-- The run of a dossier. -/
def findRun (runId : Uuid) (entries : List Entry) : Option Run :=
  ((entries.filterMap Entry.row?).filterMap Row.run?).find? fun run =>
    run.id = runId

/-- The binding of a run. -/
def findBinding (runId : Uuid) (entries : List Entry) :
    Option RunVersionBinding :=
  ((records entries).filterMap Record.binding?).find? fun binding =>
    binding.runId = runId

structure Dossier where
  run : Run
  events : List ChainedRow
  toolInvocations : List ChainedRow
  sideEffects : List ChainedRow
  guardrails : List ChainedRow
  humanApprovals : List ChainedRow
  biasSlices : List ChainedRow
  artifacts : List ChainedRow
  binding : Option RunVersionBinding

/-- The section of a table. -/
def Dossier.rows (dossier : Dossier) : ChainTable → List ChainedRow
  | .events => dossier.events
  | .toolInvocations => dossier.toolInvocations
  | .sideEffects => dossier.sideEffects
  | .guardrails => dossier.guardrails
  | .humanApprovals => dossier.humanApprovals
  | .biasSlices => dossier.biasSlices
  | .artifacts => dossier.artifacts

/-- The statement that reads a section. -/
def readSection (order : RowOrder) (runId : Uuid) (table : ChainTable) :
    RecordHandler (List ChainedRow) := do
  let entries ← select
  return sectionRows order runId table entries

/-- `runs::dossier`. -/
def dossier (order : RowOrder) (runId : Uuid) : RecordHandler Dossier := do
  let entries ← select
  match findRun runId entries with
  | none => .raise (.error .notFound)
  | some run =>
      let events ← readSection order runId .events
      let toolInvocations ← readSection order runId .toolInvocations
      let sideEffects ← readSection order runId .sideEffects
      let guardrails ← readSection order runId .guardrails
      let humanApprovals ← readSection order runId .humanApprovals
      let biasSlices ← readSection order runId .biasSlices
      let artifacts ← readSection order runId .artifacts
      let bound ← select
      return {
        run := run
        events := events
        toolInvocations := toolInvocations
        sideEffects := sideEffects
        guardrails := guardrails
        humanApprovals := humanApprovals
        biasSlices := biasSlices
        artifacts := artifacts
        binding := findBinding runId bound }

/-- The dossier all of whose statements read the same rows. -/
def snapshot (order : RowOrder) (runId : Uuid) (run : Run)
    (entries : List Entry) : Dossier where
  run := run
  events := sectionRows order runId .events entries
  toolInvocations := sectionRows order runId .toolInvocations entries
  sideEffects := sectionRows order runId .sideEffects entries
  guardrails := sectionRows order runId .guardrails entries
  humanApprovals := sectionRows order runId .humanApprovals entries
  biasSlices := sectionRows order runId .biasSlices entries
  artifacts := sectionRows order runId .artifacts entries
  binding := findBinding runId entries

/-- A statement that was answered with these rows. -/
def selected (entries : List Entry) : Program.Event wholeDb :=
  ⟨.select, .ok entries⟩

theorem executes_select_bind {α : Type}
    {next : List Entry → RecordHandler α}
    {events : List (Program.Event wholeDb)} {value : α}
    (ran : (select >>= next).Executes events (.ok value)) :
    ∃ entries rest,
      events = selected entries :: rest ∧
        (next entries).Executes rest (.ok value) := by
  rcases Program.executes_call_iff.mp ran with
    ⟨answer, rest, rfl, continued⟩
  cases answer with
  | ok entries => exact ⟨entries, rest, rfl, continued⟩
  | error fault => cases continued

theorem executes_readSection_bind {α : Type} {order : RowOrder}
    {runId : Uuid} {table : ChainTable}
    {next : List ChainedRow → RecordHandler α}
    {events : List (Program.Event wholeDb)} {value : α}
    (ran :
      (readSection order runId table >>= next).Executes events (.ok value)) :
    ∃ entries rest,
      events = selected entries :: rest ∧
        (next (sectionRows order runId table entries)).Executes rest
          (.ok value) := by
  rw [readSection, Program.bind_assoc] at ran
  exact executes_select_bind ran

/-- The tables of a dossier, in the order their sections are read. -/
def sections : List ChainTable :=
  [.events, .toolInvocations, .sideEffects, .guardrails, .humanApprovals,
    .biasSlices, .artifacts]

theorem mem_sections (table : ChainTable) : table ∈ sections := by
  cases table <;> decide

theorem nodup_sections : sections.Nodup := by
  decide

/-- A dossier that is answered is made of what its nine statements read. -/
theorem executes_dossier
    {order : RowOrder} {runId : Uuid} {found : Dossier}
    {events : List (Program.Event wholeDb)}
    (ran : (dossier order runId).Executes events (.ok found)) :
    ∃ (first : List Entry) (read : ChainTable → List Entry)
        (last : List Entry),
      events =
          (first :: sections.map read ++ [last]).map selected ∧
        findRun runId first = some found.run ∧
          (∀ table,
            found.rows table =
              sectionRows order runId table (read table)) ∧
            found.binding = findBinding runId last := by
  rcases executes_select_bind ran with ⟨first, _, rfl, ran₀⟩
  cases here : findRun runId first with
  | none =>
      rw [here] at ran₀
      cases ran₀
  | some run =>
      rw [here] at ran₀
      rcases executes_readSection_bind ran₀ with ⟨events, _, rfl, ran₁⟩
      rcases executes_readSection_bind ran₁ with ⟨tools, _, rfl, ran₂⟩
      rcases executes_readSection_bind ran₂ with ⟨effects, _, rfl, ran₃⟩
      rcases executes_readSection_bind ran₃ with ⟨guards, _, rfl, ran₄⟩
      rcases executes_readSection_bind ran₄ with ⟨humans, _, rfl, ran₅⟩
      rcases executes_readSection_bind ran₅ with ⟨biases, _, rfl, ran₆⟩
      rcases executes_readSection_bind ran₆ with ⟨blobs, _, rfl, ran₇⟩
      rcases executes_select_bind ran₇ with ⟨last, _, rfl, ran₈⟩
      rcases Program.executes_done_iff.mp ran₈ with ⟨rfl, same⟩
      rw [Except.ok.injEq] at same
      subst same
      let read : ChainTable → List Entry := fun table =>
        match table with
        | .events => events
        | .toolInvocations => tools
        | .sideEffects => effects
        | .guardrails => guards
        | .humanApprovals => humans
        | .biasSlices => biases
        | .artifacts => blobs
      refine ⟨first, read, last, rfl, here, fun table => ?_, rfl⟩
      cases table <;> rfl

end Trackward.Ledger.Dossiers
