import Trackward.Ledger.Artifacts
import Trackward.Ledger.ExportBundles

/-!
# The dossier of a case

A case dossier reads the case, then its links, and then looks each linked row
up with a statement of its own.  Only runs, artifacts and tool invocations are
looked up; the rest of the evidence stays unresolved.

Nothing keeps the rows from being committed meanwhile.  They are never changed,
so a dossier resolves what could be resolved when it was asked for, and
resolves nothing that could not be when it was answered.
-/

namespace Trackward.Ledger.CaseDossiers

open Trackward.ChainCore.Chrono
open Trackward.ChainCore.Encode
open Trackward.ChainCore.JsonValue
open Trackward.Ledger.Actor
open Trackward.Ledger.Artifacts
open Trackward.Ledger.Concurrency
open Trackward.Ledger.DossierReads
open Trackward.Ledger.Dossiers
open Trackward.Ledger.ExportBundles
open Trackward.Ledger.Models
open Trackward.Ledger.Records
open Trackward.Lib.KeyedLists
open Trackward.Lib.Programs
open Trackward.Lib.Readers
open Trackward.Lib.Runs
open Trackward.Lib.Sessions
open Trackward.Lib.Traces
open Trackward.Lib.Transactions

/-! ## Evidence -/

/-- A row that a link refers to. -/
inductive Evidence where
  | run (row : Run)
  | artifact (row : Artifact)
  | toolInvocation (row : ToolInvocation)

def findCase (caseId : Uuid) (entries : List Entry) : Option Case :=
  ((records entries).filterMap Record.case?).find? fun row => row.id = caseId

def findArtifact (id : Uuid) (entries : List Entry) : Option Artifact :=
  (artifacts (entries.filterMap Entry.row?)).find? fun row => row.id = id

def toolInvocation? : ChainedRow → Option ToolInvocation
  | .toolInvocation row => some row
  | _ => none

def findToolInvocation (id : Uuid) (entries : List Entry) :
    Option ToolInvocation :=
  ((chainedEntries entries).filterMap toolInvocation?).find? fun row =>
    row.id = id

/-- `cases::resolve_evidence`. -/
def resolveEvidence (evidenceType : String) (evidenceId : Uuid) :
    RecordHandler (Option Evidence) :=
  match evidenceType with
  | "run" => do
      let entries ← select
      return (findRun evidenceId entries).map .run
  | "artifact" => do
      let entries ← select
      return (findArtifact evidenceId entries).map .artifact
  | "tool_invocation" => do
      let entries ← select
      return (findToolInvocation evidenceId entries).map .toolInvocation
  | _ => return none

/-- What these rows have for a link. -/
def resolveIn (entries : List Entry) (link : CaseEvidence) :
    Option Evidence :=
  match link.evidenceType with
  | "run" => (findRun link.evidenceId entries).map .run
  | "artifact" => (findArtifact link.evidenceId entries).map .artifact
  | "tool_invocation" =>
      (findToolInvocation link.evidenceId entries).map .toolInvocation
  | _ => none

/-- `ORDER BY linked_at ASC`, which leaves equal times in any order. -/
structure LinkOrder where
  sort : List CaseEvidence → List CaseEvidence
  perm : ∀ links, (sort links).Perm links
  sorted :
    ∀ links,
      (sort links).Pairwise fun first second =>
        first.linkedAt.micros ≤ second.linkedAt.micros

/-- Links with equal times stay in commit order. -/
def LinkOrder.stable : LinkOrder where
  sort := sortByKey fun link => link.linkedAt.micros
  perm := sortByKey_perm _
  sorted := sortByKey_pairwise _

/-- A link, with the row it refers to. -/
structure LinkedEvidence where
  link : CaseEvidence
  resolved : Option Evidence

structure CaseDossier where
  case : Case
  evidence : List LinkedEvidence

/-- Look the rows of the links up, one after the other. -/
def resolveAll : List CaseEvidence → RecordHandler (List LinkedEvidence)
  | [] => return []
  | link :: links => do
      let resolved ← resolveEvidence link.evidenceType link.evidenceId
      let entries ← resolveAll links
      return ⟨link, resolved⟩ :: entries

/-- `cases::dossier`. -/
def caseDossier (order : LinkOrder) (caseId : Uuid) :
    RecordHandler CaseDossier := do
  let known ← select
  match findCase caseId known with
  | none => .raise (.error .notFound)
  | some opened =>
      let linked ← select
      let evidence ← resolveAll (order.sort (caseLinks caseId linked))
      return { case := opened, evidence := evidence }

/-! ## What the statements read -/

section Rows

variable {earlier later : List Entry}

/-- The first match among rows is the first one among more of them. -/
theorem find?_map_append {α β : Type} {matching : α → Bool} {wrap : α → β}
    {rows more : List α} {found : β}
    (here : (rows.find? matching).map wrap = some found) :
    ((rows ++ more).find? matching).map wrap = some found := by
  rcases Option.map_eq_some_iff.mp here with ⟨row, isFound, rfl⟩
  rw [List.find?_append, isFound]
  rfl

/-- What is found among rows is found when there are more of them. -/
theorem resolveIn_of_grown (grown : earlier <+: later)
    {link : CaseEvidence} {row : Evidence}
    (found : resolveIn earlier link = some row) :
    resolveIn later link = some row := by
  rcases grown with ⟨rows, rfl⟩
  unfold resolveIn at found ⊢
  split
  all_goals simp only [*] at found
  · simp only [findRun, List.filterMap_append] at found ⊢
    exact find?_map_append found
  · simp only [findArtifact, artifacts, chainedRows, List.filterMap_append]
      at found ⊢
    exact find?_map_append found
  · simp only [findToolInvocation, chainedEntries, chainedRows,
      List.filterMap_append] at found ⊢
    exact find?_map_append found
  · cases found

/-- A link is looked up by one statement, or not at all. -/
theorem resolveEvidence_cases (link : CaseEvidence) :
    (resolveEvidence link.evidenceType link.evidenceId =
        (do
          let entries ← select
          return resolveIn entries link)) ∨
      resolveEvidence link.evidenceType link.evidenceId = .done none ∧
        ∀ entries, resolveIn entries link = none := by
  unfold resolveEvidence resolveIn
  split
  · exact Or.inl rfl
  · exact Or.inl rfl
  · exact Or.inl rfl
  · exact Or.inr ⟨rfl, fun _ => rfl⟩

/-- How the statements of a dossier resolve a link. -/
def ResolvedBy (events : List (Program.Event wholeDb))
    (item : LinkedEvidence) : Prop :=
  (item.resolved = none ∧ ∀ entries, resolveIn entries item.link = none) ∨
    ∃ entries, selected entries ∈ events ∧
      item.resolved = resolveIn entries item.link

theorem executes_bind_ok {α β : Type} {first : RecordHandler α}
    {next : α → RecordHandler β} {events : List (Program.Event wholeDb)}
    {value : β} (ran : (first >>= next).Executes events (.ok value)) :
    ∃ middle before after,
      events = before ++ after ∧ first.Executes before (.ok middle) ∧
        (next middle).Executes after (.ok value) := by
  rcases Program.executes_bind_iff.mp ran with failed | split
  · rcases failed with ⟨error, _, absurdity⟩
    cases absurdity
  · exact split

theorem executes_resolveEvidence {link : CaseEvidence}
    {events : List (Program.Event wholeDb)} {resolved : Option Evidence}
    (ran :
      (resolveEvidence link.evidenceType link.evidenceId).Executes events
        (.ok resolved)) :
    ResolvedBy events ⟨link, resolved⟩ := by
  rcases resolveEvidence_cases link with looksUp | ⟨knows, never⟩
  · rw [looksUp] at ran
    rcases executes_select_bind ran with ⟨entries, rest, rfl, continued⟩
    rcases Program.executes_done_iff.mp continued with ⟨_, ⟨⟩⟩
    exact Or.inr ⟨entries, List.mem_cons_self, rfl⟩
  · rw [knows] at ran
    rcases Program.executes_done_iff.mp ran with ⟨_, ⟨⟩⟩
    exact Or.inl ⟨rfl, never⟩

theorem ResolvedBy.mono {fewer more : List (Program.Event wholeDb)}
    (included : fewer ⊆ more) {item : LinkedEvidence}
    (resolved : ResolvedBy fewer item) : ResolvedBy more item := by
  rcases resolved with never | ⟨entries, read, same⟩
  · exact Or.inl never
  · exact Or.inr ⟨entries, included read, same⟩

/-- Every link is listed, as its own statement resolved it. -/
theorem executes_resolveAll {links : List CaseEvidence}
    {events : List (Program.Event wholeDb)} {evidence : List LinkedEvidence}
    (ran : (resolveAll links).Executes events (.ok evidence)) :
    evidence.map LinkedEvidence.link = links ∧
      ∀ item ∈ evidence, ResolvedBy events item := by
  induction links generalizing events evidence with
  | nil =>
      rcases Program.executes_done_iff.mp ran with ⟨rfl, ⟨⟩⟩
      exact ⟨rfl, by simp⟩
  | cons link links induction =>
      rcases executes_bind_ok ran with
        ⟨resolved, before, after, rfl, here, ran⟩
      rcases executes_bind_ok ran with
        ⟨entries, before', after', rfl, there, ran⟩
      rcases Program.executes_done_iff.mp ran with ⟨rfl, ⟨⟩⟩
      rcases induction there with ⟨links, all⟩
      refine ⟨by rw [List.map_cons, links], ?_⟩
      rw [List.forall_mem_cons]
      constructor
      · exact
          (executes_resolveEvidence here).mono
            (List.subset_append_left _ _)
      · intro item member
        apply (all item member).mono
        rw [List.append_nil]
        exact List.subset_append_right _ _

theorem executes_caseDossier {order : LinkOrder} {caseId : Uuid}
    {events : List (Program.Event wholeDb)} {found : CaseDossier}
    (ran : (caseDossier order caseId).Executes events (.ok found)) :
    ∃ known linked,
      selected known ∈ events ∧ selected linked ∈ events ∧
        findCase caseId known = some found.case ∧
          (found.evidence.map LinkedEvidence.link).Perm
              (caseLinks caseId linked) ∧
            ∀ item ∈ found.evidence, ResolvedBy events item := by
  rcases executes_select_bind ran with ⟨known, rest, rfl, reads⟩
  cases opened : findCase caseId known with
  | none =>
      simp only [opened] at reads
      cases reads
  | some case =>
      simp only [opened] at reads
      rcases executes_select_bind reads with ⟨linked, rest, rfl, looks⟩
      rcases executes_bind_ok looks with
        ⟨evidence, before, after, rfl, looked, ends⟩
      rcases Program.executes_done_iff.mp ends with ⟨rfl, ⟨⟩⟩
      rcases executes_resolveAll looked with ⟨links, all⟩
      refine ⟨known, linked, by simp, by simp, opened, ?_, ?_⟩
      · rw [links]
        exact order.perm _
      · intro item member
        apply (all item member).mono
        intro event here
        simp [here]

end Rows

/-! ## The ledger with cases -/

/-- What a client asks of the ledger, with its cases. -/
inductive CaseRequest where
  | dossier (headers : Headers) (caseId : Uuid)
  | other (request : LedgerRequest)

/-- The handler of a request; the case dossier it answers with, if any. -/
def serveCases (state : AppState) (order : RowOrder) (links : LinkOrder) :
    CaseRequest → Program wholeDb HttpError (Option CaseDossier)
  | .dossier headers caseId =>
      if requireBearer state.authToken headers then do
        let found ← (caseDossier links caseId).mapError HttpError.exit
        return some found
      else .raise .unauthorized
  | .other request => do
      let _ ← serveAll state order request
      return none

/-- The ledger, its cases included, with all requests in flight. -/
abbrev CaseWorld (Client : Type) :=
  World wholeDb Client CaseRequest (State Client Int64 Entry Effect)
    HttpError (Option CaseDossier)

/-- All runs of the ledger with its cases. -/
def caseLedger {Client : Type} [DecidableEq Client] (state : AppState)
    (order : RowOrder) (links : LinkOrder)
    (accepts : List Entry → Entry → Bool) (base : List Entry → Prop) :
    System (CaseWorld Client) (Move Client CaseRequest (Choice Fault)) :=
  system (host accepts) (serveCases state order links)
    (Protocol.atRest base)

/-- The case dossier a client was answered with. -/
def caseAnswerTo {Client : Type} (client : Client)
    (world : CaseWorld Client) : Option CaseDossier :=
  match world.sessions client with
  | none => none
  | some session =>
      match session.program with
      | .done found => found
      | _ => none

theorem reads_resolveAll (links : List CaseEvidence) :
    (resolveAll links).OnlyCalls Op.Reads := by
  induction links with
  | nil => trivial
  | cons link links induction =>
      refine Program.onlyCalls_bind ?_ fun resolved =>
        Program.onlyCalls_bind induction fun _ => trivial
      rcases resolveEvidence_cases link with looksUp | ⟨knows, _⟩
      · rw [looksUp]
        exact onlyCalls_select_bind trivial fun _ => trivial
      · rw [knows]
        trivial

/-- A request for a case dossier reads and nothing else. -/
theorem reads_serveCases (state : AppState) (order : RowOrder)
    (links : LinkOrder) (headers : Headers) (caseId : Uuid) :
    (serveCases state order links (.dossier headers caseId)).OnlyCalls
      Op.Reads := by
  rw [serveCases]
  split
  · refine Program.onlyCalls_bind (Program.onlyCalls_mapError ?_)
      fun _ => trivial
    apply onlyCalls_select_bind trivial
    intro known
    split
    · trivial
    · exact onlyCalls_select_bind trivial fun linked =>
        Program.onlyCalls_bind (reads_resolveAll _) fun _ => trivial
  · trivial

/-- A case dossier that was answered has been executed. -/
theorem executes_of_serveCases {state : AppState} {order : RowOrder}
    {links : LinkOrder} {headers : Headers} {caseId : Uuid}
    {found : CaseDossier} {events : List (Program.Event wholeDb)}
    (ran :
      (serveCases state order links (.dossier headers caseId)).Executes
        events (.ok (some found))) :
    (caseDossier links caseId).Executes events (.ok found) := by
  rw [serveCases] at ran
  split at ran
  · exact
      Program.executes_of_answer (Option.some_injective CaseDossier) ran
  · cases ran

/--
Whatever is committed beside it, a case dossier lists the links of one moment
between its request and its answer, resolves each to what was there when it was
asked for, and has no row that is not there when it is answered.
-/
theorem caseDossier_between
    {Client : Type} [DecidableEq Client] {state : AppState}
    {order : RowOrder} {links : LinkOrder}
    {accepts : List Entry → Entry → Bool} {base : List Entry → Prop}
    {arrived finished : CaseWorld Client}
    {steps :
      List (CaseWorld Client × Move Client CaseRequest (Choice Fault))}
    {client : Client} {headers : Headers} {caseId : Uuid}
    {found : CaseDossier}
    (reached :
      Reachable (caseLedger state order links accepts base) unrestricted
        arrived)
    (asked :
      arrived.sessions client =
        some
          ⟨.dossier headers caseId, 0,
            serveCases state order links (.dossier headers caseId)⟩)
    (path :
      Path (caseLedger state order links accepts base) arrived steps
        finished)
    (stays : Stays client steps)
    (done : caseAnswerTo client finished = some found) :
    (∃ world ∈ states steps finished,
        (found.evidence.map LinkedEvidence.link).Perm
          (caseLinks caseId world.shared.committed)) ∧
      ∀ item ∈ found.evidence,
        (∀ row,
          resolveIn arrived.shared.committed item.link = some row →
            item.resolved = some row) ∧
          ∀ row, item.resolved = some row →
            resolveIn finished.shared.committed item.link = some row := by
  rcases path.visited stays asked with
    ⟨left, visits, there, visited, befores⟩
  have ended : left = .done (some found) := by
    rw [caseAnswerTo, there] at done
    cases left <;> cases done
    rfl
  subst ended
  have ran :
      (serveCases state order links (.dossier headers caseId)).Executes
        (visits.map Visit.event) (.ok (some found)) :=
    visited.leaves.executes rfl
  rcases executes_caseDossier (executes_of_serveCases ran) with
    ⟨known, linked, _, linksRead, _, listed, resolved⟩
  have between :
      ∀ entries, selected entries ∈ visits.map Visit.event →
        ∃ world ∈ states steps finished,
          world.shared.committed = entries ∧
            arrived.shared.committed <+: entries ∧
              entries <+: finished.shared.committed :=
    fun entries read =>
      exists_state_of_read (fun _ => Op.Reads.immediate) reached asked
        (reads_serveCases state order links headers caseId) path stays
        visited befores read
  constructor
  · rcases between linked linksRead with ⟨world, member, same, _⟩
    exact ⟨world, member, by rw [same]; exact listed⟩
  · intro item member
    rcases resolved item member with ⟨nothing, never⟩ | lookedUp
    · refine ⟨fun row early => ?_, fun row late => ?_⟩
      · rw [never] at early
        cases early
      · rw [nothing] at late
        cases late
    · rcases lookedUp with ⟨entries, read, same⟩
      rcases between entries read with ⟨_, _, _, after, before⟩
      rw [same]
      exact ⟨fun row early => resolveIn_of_grown after early,
        fun row late => resolveIn_of_grown before late⟩

/-- The run 7 and the case 5, which links it and a tool invocation. -/
def twoLinks : List Entry :=
  let link : String → Uuid → Record := fun evidenceType id =>
    .caseEvidence
      { caseId := 5
        evidenceType := evidenceType
        evidenceId := id
        linkedBy := "ray"
        linkedAt := .zero
        note := none
        actorId := "test" }
  .ofRow runSeven ::
    .ofRecord
        (.case
          { id := 5
            title := "case"
            description := ""
            openedBy := "ray"
            openedAt := .zero
            metadata := Json.null
            actorId := "test" }) ::
      [.ofRecord (link "run" 7), .ofRecord (link "tool_invocation" 9)]

/-- The ledger of the case 5. -/
def twoLinksLedger :
    System (CaseWorld Nat) (Move Nat CaseRequest (Choice Fault)) :=
  caseLedger openState .stable .stable constraints fun _ => True

/-- Client 1 has asked for the dossier of the case 5. -/
def askingCase : CaseWorld Nat where
  shared :=
    { committed := twoLinks
      pending := fun _ => []
      holder := fun _ => none
      clock := 0
      emitted := [] }
  sessions :=
    Function.update (fun _ => none) 1
      (some
        ⟨.dossier [] 5, 0,
          serveCases openState .stable .stable (.dossier [] 5)⟩)

theorem reachable_askingCase :
    Reachable twoLinksLedger unrestricted askingCase := by
  let start : CaseWorld Nat := { askingCase with sessions := fun _ => none }
  have starts : twoLinksLedger.initial start :=
    ⟨⟨trivial, fun _ => rfl, fun _ => rfl⟩, fun _ => rfl⟩
  have moved :
      twoLinksLedger.step start (.arrive 1 (.dossier [] 5)) =
        some askingCase :=
    rfl
  exact .next (.start starts) trivial moved

/-- The tool invocation is recorded after its link was read. -/
def invokedMeanwhile : List (Move Nat CaseRequest (Choice Fault)) :=
  List.replicate 2 (.answer 1 (.succeed 0)) ++
    .arrive 2
        (.other
          (writing
            (.toolInvocation 9
              { runId := 7
                tool := "bash"
                input := Json.null
                output := Json.null
                status := "ok"
                statusCode := none
                startedAt := DateTime.epoch
                finishedAt := DateTime.epoch
                metadata := Json.null }))) ::
      List.replicate 5 (.answer 2 (.succeed 1)) ++
        List.replicate 2 (.answer 1 (.succeed 0))

/-- A dossier that resolves this many links. -/
def resolves (count : Nat) (finished : CaseWorld Nat) : Bool :=
  (caseAnswerTo 1 finished).any fun found =>
    (found.evidence.filter fun item => item.resolved.isSome).length = count

/-- Both links are resolved, one of them to a row committed beside them. -/
theorem caseDossier_between_of_invokedMeanwhile :
    ∃ (finished : CaseWorld Nat) (found : CaseDossier),
      caseAnswerTo 1 finished = some found ∧
        (found.evidence.filter fun item =>
          item.resolved.isSome).length = 2 ∧
          ∀ item ∈ found.evidence, ∀ row, item.resolved = some row →
            resolveIn finished.shared.committed item.link = some row := by
  rcases
      @exists_path_of_trace _ _ twoLinksLedger askingCase invokedMeanwhile
        (fun _ finished => resolves 2 finished) (by decide +kernel) with
    ⟨steps, finished, path, moves, check⟩
  rcases (Option.any_eq_true _ _).mp check with ⟨found, answer, two⟩
  have stays : Stays 1 steps := by
    apply stays_of_moves
    rw [moves]
    simp [invokedMeanwhile]
  have between :=
    caseDossier_between reachable_askingCase rfl path stays answer
  exact ⟨finished, found, answer, of_decide_eq_true two,
    fun item member => (between.2 item member).2⟩

end Trackward.Ledger.CaseDossiers
