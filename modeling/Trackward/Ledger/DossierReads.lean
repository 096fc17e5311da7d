import Trackward.Ledger.Actor
import Trackward.Ledger.Dossiers
import Trackward.Lib.Readers
import Trackward.Lib.Snapshots

/-!
# A dossier among concurrent writes

The nine statements of a dossier are not one transaction, so the sections it
answers may belong to different states of the database.  They are the rows of
one committed state unless a section changes after it was read and, then or
later, a section changes that is still to be read.
-/

namespace Trackward.Ledger.DossierReads

open Trackward.ChainCore.Chrono
open Trackward.ChainCore.Encode
open Trackward.ChainCore.JsonValue
open Trackward.Ledger.Actor
open Trackward.Ledger.Anchoring
open Trackward.Ledger.Concurrency
open Trackward.Ledger.Dossiers
open Trackward.Ledger.Models
open Trackward.Ledger.Records
open Trackward.Lib.Octets
open Trackward.Lib.Programs
open Trackward.Lib.Readers
open Trackward.Lib.Runs
open Trackward.Lib.Sessions
open Trackward.Lib.Snapshots
open Trackward.Lib.Traces
open Trackward.Lib.Transactions

/-! ## The whole ledger -/

/-- What a client asks of the ledger, or its own loop does. -/
inductive LedgerRequest where
  | dossier (headers : Headers) (runId : Uuid)
  | write (request : HttpRequest)
  | loopTick (now : DateTime) (id : Uuid) (anchoredAt : DateTime)

/-- The handler of a request; the dossier it answers with, if any. -/
def serveAll (state : AppState) (order : RowOrder) :
    LedgerRequest → Program wholeDb HttpError (Option Dossier)
  | .dossier headers runId =>
      if requireBearer state.authToken headers then do
        let found ← (dossier order runId).mapError HttpError.exit
        return some found
      else .raise .unauthorized
  | .write request => do
      let _ ← handle state request
      return none
  | .loopTick now id anchoredAt => do
      let _ ←
        onRows
          (anchorTick state.service.runtime state.service.signing
            state.service.sink
            { scope := .global
              untilTs := now
              id := id
              anchoredAt := anchoredAt })
      return none

/-- The whole ledger with all requests in flight. -/
abbrev WholeWorld (Client : Type) :=
  World wholeDb Client LedgerRequest (State Client Int64 Entry Effect)
    HttpError (Option Dossier)

/-- All runs of the whole ledger; `accepts` are its schema constraints. -/
def wholeLedger {Client : Type} [DecidableEq Client] (state : AppState)
    (order : RowOrder) (accepts : List Entry → Entry → Bool)
    (base : List Entry → Prop) :
    System (WholeWorld Client)
      (Move Client LedgerRequest (Choice Fault)) :=
  system (host accepts) (serveAll state order) (Protocol.atRest base)

/-! ## What a section is read as -/

/-- The parts of a dossier besides the run itself. -/
inductive Part where
  | rows (table : ChainTable)
  | binding

/-- Which statement of the dossier reads a part; the run is read first. -/
def Part.statement : Part → Nat
  | .rows .events => 1
  | .rows .toolInvocations => 2
  | .rows .sideEffects => 3
  | .rows .guardrails => 4
  | .rows .humanApprovals => 5
  | .rows .biasSlices => 6
  | .rows .artifacts => 7
  | .binding => 8

/-- The rows of a table, or the binding. -/
def Part.Content : Part → Type
  | .rows _ => List ChainedRow
  | .binding => Option RunVersionBinding

/-- The part of the committed rows that belongs to a run. -/
def Part.content (runId : Uuid) (entries : List Entry) :
    (part : Part) → part.Content
  | .rows table => (chainedEntries entries).filter (inSection table runId)
  | .binding => findBinding runId entries

/-- A dossier has exactly the rows of the run in this state. -/
structure IsSnapshot (runId : Uuid) (found : Dossier)
    (entries : List Entry) : Prop where
  rows :
    ∀ table,
      (found.rows table).Perm
        ((chainedEntries entries).filter (inSection table runId))
  binding : found.binding = findBinding runId entries

section Runs

variable {Client : Type} [DecidableEq Client]

/-- The steps of a run of the whole ledger. -/
abbrev Steps (Client : Type) :=
  List (WholeWorld Client × Move Client LedgerRequest (Choice Fault))

/-- A part of the rows of a run, at each moment. -/
def contentAt (runId : Uuid) (steps : Steps Client)
    (last : WholeWorld Client) (part : Part) (moment : Nat) :
    part.Content :=
  part.content runId (stateAt steps last moment).shared.committed

/-- The dossier a client was answered with. -/
def answerTo (client : Client) (world : WholeWorld Client) :
    Option Dossier :=
  match world.sessions client with
  | none => none
  | some session =>
      match session.program with
      | .done found => found
      | _ => none

/-- When the statement that reads a part is answered. -/
def readAt (client : Client) (steps : Steps Client) (part : Part) : Nat :=
  answeredAt client steps part.statement

/-! ## Growth -/

theorem filter_of_grown {runId : Uuid} {table : ChainTable}
    {earlier later : List Entry} (grown : earlier <+: later) :
    (chainedEntries earlier).filter (inSection table runId) <+:
      (chainedEntries later).filter (inSection table runId) := by
  rcases grown with ⟨rows, rfl⟩
  simp [chainedEntries, chainedRows]

theorem findBinding_of_grown {runId : Uuid} {earlier later : List Entry}
    (grown : earlier <+: later) {binding : RunVersionBinding}
    (bound : findBinding runId earlier = some binding) :
    findBinding runId later = some binding := by
  rcases grown with ⟨rows, rfl⟩
  unfold findBinding records at bound ⊢
  rw [List.filterMap_append, List.filterMap_append, List.find?_append, bound]
  rfl

variable {state : AppState} {order : RowOrder}
variable {accepts : List Entry → Entry → Bool} {base : List Entry → Prop}
variable {arrived finished : WholeWorld Client} {steps : Steps Client}

/-- Along a run the committed rows grow. -/
theorem committed_prefix_of_path
    (path :
      Path (wholeLedger state order accepts base) arrived steps finished)
    {earlier later : Nat} (ordered : earlier ≤ later) :
    (stateAt steps finished earlier).shared.committed <+:
      (stateAt steps finished later).shared.committed :=
  @Path.grows_stateAt _ _ _
    (fun world world' => world.shared.committed <+: world'.shared.committed)
    (fun _ => List.prefix_rfl) (fun _ _ _ => List.IsPrefix.trans)
    committed_grows_of_step arrived finished steps path earlier later ordered

/-- Equal parts of committed rows were equal all the time in between. -/
theorem neverReturns_contentAt
    (path :
      Path (wholeLedger state order accepts base) arrived steps finished)
    (runId : Uuid) (part : Part) :
    NeverReturns (contentAt runId steps finished part) := by
  intro first second third before after same
  have grown := committed_prefix_of_path path before
  have grown' := committed_prefix_of_path path after
  cases part with
  | rows table =>
      have early :=
        @filter_of_grown runId table _ _ grown
      have late :=
        @filter_of_grown runId table _ _ grown'
      have sameRows :
          (chainedEntries
              (stateAt steps finished first).shared.committed).filter
                (inSection table runId) =
            (chainedEntries
              (stateAt steps finished third).shared.committed).filter
                (inSection table runId) := same
      apply Eq.symm
      apply early.eq_of_length_le
      rw [sameRows]
      exact late.length_le
  | binding =>
      have sameBinding :
          findBinding runId (stateAt steps finished first).shared.committed =
            findBinding runId
              (stateAt steps finished third).shared.committed := same
      show findBinding runId _ = findBinding runId _
      cases bound :
          findBinding runId
            (stateAt steps finished second).shared.committed with
      | none =>
          cases earlier :
              findBinding runId
                (stateAt steps finished first).shared.committed with
          | none => rfl
          | some binding =>
              rw [findBinding_of_grown grown earlier] at bound
              cases bound
      | some binding =>
          rw [sameBinding, findBinding_of_grown grown' bound]

/-! ## The statements of a dossier -/

theorem reads_dossier (order : RowOrder) (runId : Uuid) :
    (dossier order runId).OnlyCalls Op.Reads := by
  have reads_section {α : Type} {table : ChainTable}
      {next : List ChainedRow → RecordHandler α}
      (later : ∀ rows, (next rows).OnlyCalls Op.Reads) :
      (readSection order runId table >>= next).OnlyCalls Op.Reads := by
    rw [readSection, Program.bind_assoc]
    exact onlyCalls_select_bind trivial fun entries => later _
  apply onlyCalls_select_bind trivial
  intro entries
  split
  · trivial
  · iterate 7 refine reads_section fun rows => ?_
    exact onlyCalls_select_bind trivial fun bound => trivial

/-- A request for a dossier reads and nothing else. -/
theorem reads_serveAll (state : AppState) (order : RowOrder)
    (headers : Headers) (runId : Uuid) :
    (serveAll state order (.dossier headers runId)).OnlyCalls Op.Reads := by
  rw [serveAll]
  split
  · exact
      Program.onlyCalls_bind
        (Program.onlyCalls_mapError (reads_dossier order runId))
        fun _ => trivial
  · trivial

/-- A dossier that was answered has been executed. -/
theorem executes_of_serveAll {headers : Headers} {runId : Uuid}
    {found : Dossier} {events : List (Program.Event wholeDb)}
    (ran :
      (serveAll state order (.dossier headers runId)).Executes events
        (.ok (some found))) :
    (dossier order runId).Executes events (.ok found) := by
  rw [serveAll] at ran
  split at ran
  · exact Program.executes_of_answer (Option.some_injective Dossier) ran
  · cases ran

/-- Each part was read from the rows committed when it was answered. -/
theorem parts_of_answered
    {client : Client} {headers : Headers} {runId : Uuid} {found : Dossier}
    (reached :
      Reachable (wholeLedger state order accepts base) unrestricted arrived)
    (asked :
      arrived.sessions client =
        some
          ⟨.dossier headers runId, 0,
            serveAll state order (.dossier headers runId)⟩)
    (path :
      Path (wholeLedger state order accepts base) arrived steps finished)
    (stays : Stays client steps)
    (done : answerTo client finished = some found) :
    (∀ part, readAt client steps part < steps.length) ∧
      (∀ table,
        found.rows table =
          sectionRows order runId table
            (stateAt steps finished
              (readAt client steps (.rows table))).shared.committed) ∧
        found.binding =
          findBinding runId
            (stateAt steps finished
              (readAt client steps .binding)).shared.committed := by
  rcases path.visited stays asked with
    ⟨left, visits, there, visited, befores⟩
  have ended : left = .done (some found) := by
    rw [answerTo, there] at done
    cases left <;> cases done
    rfl
  subst ended
  rcases executes_dossier (executes_of_serveAll (visited.leaves.executes rfl)) with
    ⟨first, read, last, events, _, rows, binding⟩
  let readOf : Part → List Entry := fun part =>
    match part with
    | .rows table => read table
    | .binding => last
  have listed (part : Part) :
      (visits.map Visit.event)[part.statement]? =
        some (selected (readOf part)) := by
    rw [events]
    cases part with
    | rows table => cases table <;> rfl
    | binding => rfl
  have seen (part : Part) :
      readAt client steps part < steps.length ∧
        (stateAt steps finished
            (readAt client steps part)).shared.committed = readOf part :=
    committed_of_read (fun _ => Op.Reads.immediate) reached asked
      (reads_serveAll state order headers runId) path stays visited befores
      (listed part)
  exact
    ⟨fun part => (seen part).1,
      fun table => by rw [rows table, (seen (.rows table)).2],
      by rw [binding, (seen .binding).2]⟩

/-- Rows of a table that are the same in any order are the same rows. -/
theorem contentAt_eq_of_perm
    (path :
      Path (wholeLedger state order accepts base) arrived steps finished)
    {runId : Uuid} {table : ChainTable} {first second : Nat}
    (perm :
      List.Perm (contentAt runId steps finished (.rows table) first)
        (contentAt runId steps finished (.rows table) second)) :
    contentAt runId steps finished (.rows table) first =
      contentAt runId steps finished (.rows table) second := by
  rcases Nat.le_total first second with ordered | ordered
  · exact
      (filter_of_grown
        (committed_prefix_of_path path ordered)).eq_of_length
          perm.length_eq
  · exact
      ((filter_of_grown
        (committed_prefix_of_path path ordered)).eq_of_length
          perm.length_eq.symm).symm

/-! ## When a dossier is a snapshot -/

/--
A dossier has the rows of the run in one committed state between its request
and its answer, exactly if no part changes after it was read before, or
together with, another part that is read only later.
-/
theorem isSnapshot_iff_not_torn
    {client : Client} {headers : Headers} {runId : Uuid} {found : Dossier}
    (reached :
      Reachable (wholeLedger state order accepts base) unrestricted arrived)
    (asked :
      arrived.sessions client =
        some
          ⟨.dossier headers runId, 0,
            serveAll state order (.dossier headers runId)⟩)
    (path :
      Path (wholeLedger state order accepts base) arrived steps finished)
    (stays : Stays client steps)
    (done : answerTo client finished = some found) :
    (∃ world ∈ states steps finished,
        IsSnapshot runId found world.shared.committed) ↔
      ¬ Torn (contentAt runId steps finished) (readAt client steps) := by
  rcases parts_of_answered reached asked path stays done with
    ⟨inside, rows, binding⟩
  have read (table : ChainTable) :
      (found.rows table).Perm
        (contentAt runId steps finished (.rows table)
          (readAt client steps (.rows table))) := by
    rw [rows table]
    exact order.perm _ _
  rw [← snapshot_iff_not_torn (neverReturns_contentAt path runId)
    fun part => (inside part).le]
  constructor
  · rintro ⟨world, member, snapshot⟩
    rcases exists_stateAt_of_mem_states member with ⟨moment, bounded, rfl⟩
    refine ⟨moment, bounded, fun part => ?_⟩
    cases part with
    | rows table =>
        exact
          contentAt_eq_of_perm path
            ((read table).symm.trans (snapshot.rows table))
    | binding => exact binding.symm.trans snapshot.binding
  · rintro ⟨moment, _, same⟩
    refine ⟨stateAt steps finished moment, stateAt_mem_states _ _ _, ?_⟩
    constructor
    · intro table
      refine (read table).trans ?_
      rw [same (.rows table)]
      exact .refl _
    · exact binding.trans (same .binding)

end Runs

/-! ## An event and a tool invocation beside a dossier -/

/-- The constraints of the migrations on the rows of the handlers. -/
def constraints (entries : List Entry) : Entry → Bool
  | .ofRow row => schema (entries.filterMap Entry.row?) row
  | .ofRecord _ => true

/-- A ledger without a token, where the header is optional. -/
def openState : AppState :=
  { guardedState with
    defaultActor := some "test"
    authToken := none }

/-- The open ledger at the start, with the run 7. -/
def openLedger : System (WholeWorld Nat)
    (Move Nat LedgerRequest (Choice Fault)) :=
  wholeLedger openState .stable constraints fun _ => True

/-- Client 1 has asked for the dossier of the run 7, which has no rows. -/
def asking : WholeWorld Nat where
  shared :=
    { committed := [.ofRow runSeven]
      pending := fun _ => []
      holder := fun _ => none
      clock := 0
      emitted := [] }
  sessions :=
    Function.update (fun _ => none) 1
      (some
        ⟨.dossier [] 7, 0, serveAll openState .stable (.dossier [] 7)⟩)

theorem reachable_asking : Reachable openLedger unrestricted asking := by
  let start : WholeWorld Nat := { asking with sessions := fun _ => none }
  have starts : openLedger.initial start :=
    ⟨⟨trivial, fun _ => rfl, fun _ => rfl⟩, fun _ => rfl⟩
  have moved :
      openLedger.step start (.arrive 1 (.dossier [] 7)) = some asking :=
    rfl
  exact .next (.start starts) trivial moved

/-- A request to write to the run 7. -/
def writing (route : WriteRoute) : LedgerRequest :=
  .write { peer := none, headers := [], route := route }

/-- The answers of the database to the calls of a client. -/
def answersAt (client : Nat) (now : Int) (count : Nat) :
    List (Move Nat LedgerRequest (Choice Fault)) :=
  List.replicate count (.answer client (.succeed now))

/-- Client 2 appends an event while the dossier is read. -/
def appendMeanwhile (id : Uuid) :
    List (Move Nat LedgerRequest (Choice Fault)) :=
  .arrive 2
      (writing
        (.event id 7
          { kind := "note"
            body := Json.null
            occurredAt := DateTime.epoch })) ::
    answersAt 2 1 8

/-- Client 3 records a tool invocation while the dossier is read. -/
def invokeMeanwhile (id : Uuid) :
    List (Move Nat LedgerRequest (Choice Fault)) :=
  .arrive 3
      (writing
        (.toolInvocation id
          { runId := 7
            tool := "bash"
            input := Json.null
            output := Json.null
            status := "ok"
            statusCode := none
            startedAt := DateTime.epoch
            finishedAt := DateTime.epoch
            metadata := Json.null })) ::
    answersAt 3 2 5

/-- How many events and tool invocations of the run 7 are committed. -/
def counts (world : WholeWorld Nat) : Nat × Nat :=
  let rows := chainedEntries world.shared.committed
  ((rows.filter (inSection .events 7)).length,
    (rows.filter (inSection .toolInvocations 7)).length)

/-- The dossier is empty, and an event was committed beside it. -/
def emptyBeside (_ : Steps Nat) (finished : WholeWorld Nat) : Bool :=
  (answerTo 1 finished).any fun found =>
    (∀ table ∈ sections, found.rows table = []) ∧ found.binding.isNone ∧
      counts finished = (1, 0)

/-- An event that is committed after the events were read tears nothing. -/
theorem not_torn_of_appendMeanwhile :
    ∃ (steps : Steps Nat) (finished : WholeWorld Nat),
      Path openLedger asking steps finished ∧
        counts finished = (1, 0) ∧
          ¬ Torn (contentAt 7 steps finished) (readAt 1 steps) := by
  let schedule := answersAt 1 0 2 ++ appendMeanwhile 1 ++ answersAt 1 0 7
  rcases
      @exists_path_of_trace _ _ openLedger asking schedule emptyBeside
        (by decide +kernel) with
    ⟨steps, finished, path, moves, check⟩
  rcases (Option.any_eq_true _ _).mp check with ⟨found, answer, check⟩
  simp only [decide_eq_true_eq] at check
  rcases check with ⟨rows, binding, one⟩
  refine ⟨steps, finished, path, one, ?_⟩
  have stays : Stays 1 steps := by
    apply stays_of_moves
    rw [moves]
    simp [schedule, answersAt, appendMeanwhile]
  have first : asking ∈ states steps finished := by
    rw [← path.stateAt_zero]
    exact stateAt_mem_states steps finished 0
  rw [← isSnapshot_iff_not_torn reachable_asking rfl path stays answer]
  refine ⟨asking, first, fun table => ?_, ?_⟩
  · rw [rows table (mem_sections table)]
    exact .refl _
  · exact Option.isNone_iff_eq_none.mp binding

/-- The dossier has no event, one invocation, and no state had that. -/
def torn
    (steps : Steps Nat) (finished : WholeWorld Nat) : Bool :=
  (answerTo 1 finished).any fun found =>
    (found.events.length, found.toolInvocations.length) = (0, 1) ∧
      ∀ world ∈ states steps finished, counts world ≠ (0, 1)

/--
An event and then a tool invocation are committed between the statements that
read them; the dossier has the later row without the earlier one.
-/
theorem not_isSnapshot_of_meanwhile :
    ∃ (steps : Steps Nat) (finished : WholeWorld Nat) (found : Dossier),
      Path openLedger asking steps finished ∧
        Stays 1 steps ∧
          answerTo 1 finished = some found ∧
            ¬ ∃ world ∈ states steps finished,
              IsSnapshot 7 found world.shared.committed := by
  let schedule :=
    answersAt 1 0 2 ++ appendMeanwhile 1 ++ invokeMeanwhile 2 ++
      answersAt 1 0 7
  rcases
      @exists_path_of_trace _ _ openLedger asking schedule torn
        (by decide +kernel) with
    ⟨steps, finished, path, moves, check⟩
  rcases (Option.any_eq_true _ _).mp check with ⟨found, answer, check⟩
  simp only [decide_eq_true_eq] at check
  refine ⟨steps, finished, found, path, stays_of_moves ?_, answer, ?_⟩
  · rw [moves]
    simp [schedule, answersAt, appendMeanwhile, invokeMeanwhile]
  · rintro ⟨world, member, snapshot⟩
    apply check.2 world member
    rw [← check.1, counts, Prod.mk.injEq]
    exact ⟨(snapshot.rows .events).length_eq.symm,
      (snapshot.rows .toolInvocations).length_eq.symm⟩

end Trackward.Ledger.DossierReads
