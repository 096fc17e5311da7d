import Trackward.Ledger.Schema
import Trackward.Lib.CheckThenInsert

/-!
# Registering versions

A gateway registers the prompts and the policies it starts with.  Registering a
version again is meant to answer with the row that is there, so the handlers
look for it first; the look and the insertion are two statements.

Gateways that register one version together all get its row exactly if no two
of them are between these statements at the same time.
-/

namespace Trackward.Ledger.VersionRegistry

open Trackward.ChainCore.Encode
open Trackward.ChainCore.JsonValue
open Trackward.Ledger.Models
open Trackward.Ledger.Records
open Trackward.Ledger.Routes
open Trackward.Lib
open Trackward.Lib.Admission
open Trackward.Lib.CheckThenInsert
open Trackward.Lib.Programs
open Trackward.Lib.Runs
open Trackward.Lib.Sessions
open Trackward.Lib.Traces
open Trackward.Lib.Transactions

/-! ## Versions of prompts and of policies -/

/-- What makes a version the same version. -/
inductive VersionKey where
  | prompt (workflow version contentHash : String)
  | policy (scope version contentHash : String)
  deriving DecidableEq

/-- A request to register a version, with the identifier it mints. -/
inductive VersionRequest where
  | prompt (actor : String) (id : Uuid) (input : CreatePromptVersion)
  | policy (actor : String) (id : Uuid) (input : CreatePolicyVersion)

namespace VersionRequest

def key : VersionRequest → VersionKey
  | .prompt _ _ input =>
      .prompt input.workflow input.version input.contentHash
  | .policy _ _ input => .policy input.scope input.version input.contentHash

/-- The row a request inserts if there is none. -/
def row (runtime : Runtime) : VersionRequest → Record
  | .prompt actor id input =>
      .promptVersion
        { id := id
          workflow := input.workflow
          version := input.version
          gitSha := input.gitSha
          contentHash := input.contentHash
          metadata := runtime.jsonb input.metadata
          actorId := actor }
  | .policy actor id input =>
      .policyVersion
        { id := id
          scope := input.scope
          version := input.version
          gitSha := input.gitSha
          contentHash := input.contentHash
          metadata := runtime.jsonb input.metadata
          actorId := actor }

/-- The identifier is none of a row that exists. -/
def fresh (entries : List Entry) : VersionRequest → Bool
  | .prompt _ id _ => !Schema.promptVersionExists entries id
  | .policy _ id _ => !Schema.policyVersionExists entries id

end VersionRequest

/-- The handler of a request. -/
def createVersion (runtime : Runtime) :
    VersionRequest → RecordHandler Record
  | .prompt actor id input => createPromptVersion runtime actor id input
  | .policy actor id input => createPolicyVersion runtime actor id input

/-- The record is a row of the version. -/
def isVersion (key : VersionKey) : Record → Bool
  | .promptVersion row =>
      key = .prompt row.workflow row.version row.contentHash
  | .policyVersion row =>
      key = .policy row.scope row.version row.contentHash
  | _ => false

/-- A request for one version. -/
abbrev RequestOf (key : VersionKey) :=
  { request : VersionRequest // request.key = key }

theorem isVersion_row {runtime : Runtime} {key : VersionKey}
    (request : RequestOf key) :
    isVersion key (request.1.row runtime) = true := by
  rcases request with ⟨request, rfl⟩
  cases request <;> simp [isVersion, VersionRequest.row, VersionRequest.key]

/-- Two rows of one version do not fit in the table. -/
theorem clash_of_isVersion {key : VersionKey} {first second : Record}
    (one : isVersion key first = true) (two : isVersion key second = true) :
    Schema.clash first second = true := by
  cases first with
  | promptVersion row =>
      simp only [isVersion, decide_eq_true_eq] at one
      cases second with
      | promptVersion row' =>
          simp only [isVersion, decide_eq_true_eq, one,
            VersionKey.prompt.injEq] at two
          simp [Schema.clash, two]
      | policyVersion row' =>
          rw [isVersion, decide_eq_true_eq, one] at two
          cases two
      | evalResult | binding | custodyEvent | case | caseEvidence
      | exportBundle => cases two
  | policyVersion row =>
      simp only [isVersion, decide_eq_true_eq] at one
      cases second with
      | policyVersion row' =>
          simp only [isVersion, decide_eq_true_eq, one,
            VersionKey.policy.injEq] at two
          simp [Schema.clash, two]
      | promptVersion row' =>
          rw [isVersion, decide_eq_true_eq, one] at two
          cases two
      | evalResult | binding | custodyEvent | case | caseEvidence
      | exportBundle => cases two
  | evalResult | binding | custodyEvent | case | caseEvidence
  | exportBundle => cases one

/-- The rows of one version, under the constraints of the tables. -/
def versionRegistry (runtime : Runtime) (key : VersionKey) :
    Registry (RequestOf key) Entry Record where
  accepts := Schema.accepts
  inject := Entry.ofRecord
  part := Entry.record?
  part_eq_some_iff := by
    intro entry record
    cases entry <;> simp [Entry.record?]
  isKey := isVersion key
  own := fun request => request.1.row runtime
  unique := by
    intro entries record isKey present
    rcases List.exists_mem_of_ne_nil _ present with ⟨other, member⟩
    rcases List.mem_filter.mp member with ⟨there, isKey'⟩
    have clash := clash_of_isVersion isKey' isKey
    rw [Schema.accepts, Bool.and_eq_false_iff, List.all_eq_false]
    exact Or.inl ⟨other, there, by simp [clash]⟩

/-! ## The handlers look first, then insert -/

/-- Searching a part of a list is searching the list. -/
theorem find?_filterMap {α β : Type} {list : List α} {part : α → Option β}
    {inject : β → α} {holds : β → Bool} {isKey : α → Bool}
    (same : ∀ item, isKey item = (part item).any holds)
    (inverse : ∀ item value, part item = some value → inject value = item) :
    ((list.filterMap part).find? holds).map inject = list.find? isKey := by
  induction list with
  | nil => rfl
  | cons item list induction =>
      rw [List.find?_cons, same item]
      cases found : part item with
      | none => simpa [found] using induction
      | some value =>
          cases holds' : holds value with
          | false => simpa [found, holds'] using induction
          | true => simp [found, holds', inverse item value found]

theorem createVersion_eq_register (runtime : Runtime) {key : VersionKey}
    (request : RequestOf key) :
    createVersion runtime request.1 =
      register dbError (versionRegistry runtime key) request := by
  rcases request with ⟨request, rfl⟩
  cases request with
  | prompt actor id input =>
      show select >>= _ = attempt .select dbError >>= _
      congr 1
      funext known
      have found :
          (((records known).filterMap Record.promptVersion?).find?
              fun row =>
                row.workflow = input.workflow &&
                  row.version = input.version &&
                    row.contentHash = input.contentHash).map
                Record.promptVersion =
            (known.filterMap Entry.record?).find?
              (isVersion
                (.prompt input.workflow input.version
                  input.contentHash)) := by
        apply find?_filterMap
        · intro record
          cases record <;>
            simp [isVersion, Record.promptVersion?, eq_comm, Bool.and_assoc]
        · intro record row isRow
          cases record <;> cases isRow
          rfl
      dsimp only [versionRegistry, VersionRequest.key]
      rw [← found]
      cases List.find? _ ((records known).filterMap _) <;> rfl
  | policy actor id input =>
      show select >>= _ = attempt .select dbError >>= _
      congr 1
      funext known
      have found :
          (((records known).filterMap Record.policyVersion?).find?
              fun row =>
                row.scope = input.scope &&
                  row.version = input.version &&
                    row.contentHash = input.contentHash).map
                Record.policyVersion =
            (known.filterMap Entry.record?).find?
              (isVersion
                (.policy input.scope input.version
                  input.contentHash)) := by
        apply find?_filterMap
        · intro record
          cases record <;>
            simp [isVersion, Record.policyVersion?, eq_comm, Bool.and_assoc]
        · intro record row isRow
          cases record <;> cases isRow
          rfl
      dsimp only [versionRegistry, VersionRequest.key]
      rw [← found]
      cases List.find? _ ((records known).filterMap _) <;> rfl

/-! ## Runs of requests for one version -/

/-- The requests for one version, with all of them in flight. -/
abbrev VersionWorld (key : VersionKey) (Client : Type) :=
  RegistryWorld Client (RequestOf key) Int64 Entry Record Effect Fault Exit

/-- All runs of requests for one version. -/
def versions {Client : Type} [DecidableEq Client] (runtime : Runtime)
    (key : VersionKey) :
    System (VersionWorld key Client)
      (Move Client (RequestOf key) (Choice Fault)) :=
  system (host Schema.accepts)
    (fun request => createVersion runtime request.1)
    (Protocol.atRest (Accepted Schema.accepts))

/--
A step in which nobody leaves and no statement fails, except for an INSERT
that violates a constraint.  The identifiers are not those of earlier rows.
-/
def faultless {Client : Type} (runtime : Runtime) {key : VersionKey}
    (base : List Entry)
    (step :
      VersionWorld key Client × Move Client (RequestOf key) (Choice Fault)) :
    Bool :=
  match step.2 with
  | .arrive _ request => request.1.fresh base
  | .answer _ (.succeed _) => true
  | .answer client (.fail _) =>
      (step.1.sessions client).any fun session =>
        phase session.program = .inserting &&
          !Schema.accepts step.1.shared.committed
            (.ofRecord (session.request.1.row runtime))
  | .depart _ => false

section Runs

variable {Client : Type} [DecidableEq Client] {runtime : Runtime}
variable {key : VersionKey}

theorem versions_eq_registrations :
    (versions runtime key :
      System (VersionWorld key Client)
        (Move Client (RequestOf key) (Choice Fault))) =
      registrations dbError (versionRegistry runtime key)
        (Protocol.atRest (Accepted Schema.accepts)) := by
  have same :
      (fun request : RequestOf key => createVersion runtime request.1) =
        register dbError (versionRegistry runtime key) :=
    funext (createVersion_eq_register runtime)
  rw [versions, same]
  rfl

/-- The record is in the table of a request and has its identifier. -/
def hasId (request : VersionRequest) (record : Record) : Prop :=
  match request, record with
  | .prompt _ id _, .promptVersion row => row.id = id
  | .policy _ id _, .policyVersion row => row.id = id
  | _, _ => False

omit [DecidableEq Client] in
/-- A row clashes in its key or in its identifier. -/
theorem version_or_id_of_clash {request : RequestOf key} {other : Record}
    (clash : Schema.clash other (request.1.row runtime) = true) :
    isVersion key other = true ∨ hasId request.1 other := by
  rcases request with ⟨request, rfl⟩
  cases request with
  | prompt actor id input =>
      cases other with
      | promptVersion row =>
          simp only [Schema.clash, VersionRequest.row, Bool.or_eq_true,
            Bool.and_eq_true, decide_eq_true_eq] at clash
          rcases clash with taken | ⟨⟨workflow, version⟩, hash⟩
          · exact Or.inr taken
          · left
            simp [isVersion, VersionRequest.key, workflow, version, hash]
      | policyVersion | evalResult | binding | custodyEvent | case
      | caseEvidence | exportBundle => cases clash
  | policy actor id input =>
      cases other with
      | policyVersion row =>
          simp only [Schema.clash, VersionRequest.row, Bool.or_eq_true,
            Bool.and_eq_true, decide_eq_true_eq] at clash
          rcases clash with taken | ⟨⟨scope, version⟩, hash⟩
          · exact Or.inr taken
          · left
            simp [isVersion, VersionRequest.key, scope, version, hash]
      | promptVersion | evalResult | binding | custodyEvent | case
      | caseEvidence | exportBundle => cases clash

theorem fresh_eq_false_of_id {base : List Entry} {request : VersionRequest}
    {record : Record} (member : record ∈ records base)
    (taken : hasId request record) : request.fresh base = false := by
  cases request with
  | prompt actor id input =>
      cases record with
      | promptVersion row =>
          rw [VersionRequest.fresh, Bool.not_eq_false',
            Schema.promptVersionExists, List.any_eq_true]
          exact
            ⟨row, List.mem_filterMap.mpr ⟨_, member, rfl⟩,
              decide_eq_true taken⟩
      | policyVersion | evalResult | binding | custodyEvent | case
      | caseEvidence | exportBundle => cases taken
  | policy actor id input =>
      cases record with
      | policyVersion row =>
          rw [VersionRequest.fresh, Bool.not_eq_false',
            Schema.policyVersionExists, List.any_eq_true]
          exact
            ⟨row, List.mem_filterMap.mpr ⟨_, member, rfl⟩,
              decide_eq_true taken⟩
      | promptVersion | evalResult | binding | custodyEvent | case
      | caseEvidence | exportBundle => cases taken

omit [DecidableEq Client] in
/-- Only the key can keep the row of a fresh request out. -/
theorem admitted_of_fresh {base : List Entry} {request : RequestOf key}
    (fresh : request.1.fresh base = true) :
    Admitted (versionRegistry runtime key) base request := by
  refine ⟨isVersion_row request, fun none => ?_⟩
  show ((records base).all (fun other => !Schema.clash other _) && _) = true
  rw [Bool.and_eq_true, List.all_eq_true]
  constructor
  · intro other member
    rw [Bool.not_eq_true', ← Bool.not_eq_true]
    intro clash
    rcases version_or_id_of_clash clash with isVersion | taken
    · exact List.filter_eq_nil_iff.mp none other member isVersion
    · rw [fresh_eq_false_of_id member taken] at fresh
      cases fresh
  · rcases request with ⟨request, _⟩
    cases request <;> rfl

omit [DecidableEq Client] in
theorem honest_of_faultless {base : List Entry}
    {step :
      VersionWorld key Client × Move Client (RequestOf key) (Choice Fault)}
    (fine : faultless runtime base step = true) :
    Honest (versionRegistry runtime key) base step := by
  rcases step with ⟨world, move⟩
  cases move with
  | arrive client request => exact admitted_of_fresh fine
  | depart client => cases fine
  | answer client choice =>
      cases choice with
      | succeed now => trivial
      | fail fault =>
          rcases (Option.any_eq_true _ _).mp fine with ⟨session, here, check⟩
          simp only [Bool.and_eq_true, decide_eq_true_eq,
            Bool.not_eq_true'] at check
          exact ⟨session, here, check.1, check.2⟩

end Runs

/-! ## Two requests -/

/-- A prompt that two gateways register. -/
def promptKey : VersionKey :=
  .prompt "triage" "1.0.0" "00"

/-- A gateway's request to register the prompt. -/
def registerPrompt (id : Uuid) : RequestOf promptKey where
  val :=
    .prompt "gateway" id
      { workflow := "triage"
        version := "1.0.0"
        gitSha := "unknown"
        contentHash := "00"
        metadata := Json.null }
  property := rfl

/-- A policy that two gateways register. -/
def policyKey : VersionKey :=
  .policy "global" "1.0.0" "00"

/-- A gateway's request to register the policy. -/
def registerPolicy (id : Uuid) : RequestOf policyKey where
  val :=
    .policy "gateway" id
      { scope := "global"
        version := "1.0.0"
        gitSha := "unknown"
        contentHash := "00"
        metadata := Json.null }
  property := rfl

/-- Empty tables, and nobody there. -/
def unregistered (key : VersionKey) : VersionWorld key (Fin 2) where
  shared :=
    { committed := []
      pending := fun _ => []
      holder := fun _ => none
      clock := 0
      emitted := [] }
  sessions := fun _ => none

theorem initial_unregistered {runtime : Runtime} {key : VersionKey} :
    (versions runtime key).initial (unregistered key) :=
  ⟨⟨accepted_nil, fun _ => rfl, fun _ => rfl⟩, fun _ => rfl⟩

/-- The two requests arrive, and then are answered as the database likes. -/
def together {key : VersionKey} (first second : RequestOf key)
    (answers : List (Fin 2 × Choice Fault)) :
    List (Move (Fin 2) (RequestOf key) (Choice Fault)) :=
  .arrive 0 first :: .arrive 1 second ::
    answers.map fun turn => .answer turn.1 turn.2

/-- No fault is to blame, and both requests have ended. -/
def ended {key : VersionKey}
    (steps :
      List
        (VersionWorld key (Fin 2) ×
          Move (Fin 2) (RequestOf key) (Choice Fault)))
    (last : VersionWorld key (Fin 2)) : Bool :=
  steps.all (faultless Runtime.plain []) &&
    decide
      (∀ client : Fin 2,
        phaseAt last client = some .answered ∨
          phaseAt last client = some .refused)

theorem settled_of_ended {key : VersionKey}
    {steps :
      List
        (VersionWorld key (Fin 2) ×
          Move (Fin 2) (RequestOf key) (Choice Fault))}
    {last : VersionWorld key (Fin 2)} (check : ended steps last = true) :
    (∀ step ∈ steps, faultless Runtime.plain [] step = true) ∧
      Settled last ∧ ∀ client, last.sessions client ≠ none := by
  rw [ended, Bool.and_eq_true, List.all_eq_true, decide_eq_true_eq] at check
  refine ⟨check.1, fun client => ?_, fun client absent => ?_⟩
  · rcases check.2 client with answered | refused
    · simp [answered]
    · simp [refused]
  · have nothing : phaseAt last client = none := by
      rw [phaseAt, absent]
      rfl
    have there := check.2 client
    rw [nothing] at there
    simp at there

/-- Both requests look before either of them inserts. -/
def overlapping {key : VersionKey} (first second : RequestOf key) :
    List (Move (Fin 2) (RequestOf key) (Choice Fault)) :=
  together first second
    [(0, .succeed 1), (1, .succeed 2), (0, .succeed 3),
      (1, .fail ⟨true, "duplicate key value"⟩)]

/-- A run of two requests, without a fault, in which one is refused. -/
def Refuses (key : VersionKey) : Prop :=
  ∃ (steps :
      List
        (VersionWorld key (Fin 2) ×
          Move (Fin 2) (RequestOf key) (Choice Fault)))
    (last : VersionWorld key (Fin 2)),
    Path (versions Runtime.plain key) (unregistered key) steps last ∧
      (∀ step ∈ steps, faultless Runtime.plain [] step = true) ∧
        Settled last ∧
          ¬ RegisteredOnce (versionRegistry Runtime.plain key) last

theorem refuses_of_overlapping {key : VersionKey}
    {first second : RequestOf key}
    (played :
      (trace (versions Runtime.plain key) (unregistered key)
          (overlapping first second)).any
        (fun run =>
          ended run.1 run.2 &&
            decide (phaseAt run.2 1 = some .refused)) = true) :
    Refuses key := by
  rcases
      exists_path_of_trace (overlapping first second)
        (fun steps last =>
          ended steps last && decide (phaseAt last 1 = some .refused))
        played with
    ⟨steps, last, path, _, check⟩
  rw [Bool.and_eq_true, decide_eq_true_eq] at check
  rcases settled_of_ended check.1 with ⟨fine, settled, present⟩
  refine ⟨steps, last, path, fine, settled, ?_⟩
  rintro ⟨record, _, answered⟩
  rcases Option.ne_none_iff_exists'.mp (present 1) with ⟨session, here⟩
  have refused := check.2
  rw [phaseAt, here, Option.map_some, answered 1 session here] at refused
  cases refused

/-! ## One row for all -/

/--
All requests for a version are answered with its one row exactly if no two of
them are between the look and the insertion at the same time.
-/
theorem registeredOnce_iff
    {Client : Type} [DecidableEq Client] (runtime : Runtime)
    {key : VersionKey} {start last : VersionWorld key Client}
    {steps :
      List
        (VersionWorld key Client ×
          Move Client (RequestOf key) (Choice Fault))}
    (initial : (versions runtime key).initial start)
    (path : Path (versions runtime key) start steps last)
    (fine :
      ∀ step ∈ steps,
        faultless runtime start.shared.committed step = true)
    (settled : Settled last)
    (asked : ∃ client, last.sessions client ≠ none) :
    RegisteredOnce (versionRegistry runtime key) last ↔
      ∀ world ∈ states steps last, OneByOne world := by
  rcases initial with ⟨⟨accepted, quiet, _⟩, nobody⟩
  rw [versions_eq_registrations] at path
  apply registeredOnce_iff_oneByOne quiet nobody accepted path _ settled asked
  intro step member
  exact honest_of_faultless (fine step member)

/-- A request that looks when the other has inserted. -/
theorem registeredOnce_of_inTurn :
    ∃ (steps :
        List
          (VersionWorld promptKey (Fin 2) ×
            Move (Fin 2) (RequestOf promptKey) (Choice Fault)))
      (last : VersionWorld promptKey (Fin 2)),
      Path (versions Runtime.plain promptKey) (unregistered promptKey) steps
          last ∧
        (∀ client, last.sessions client ≠ none) ∧
          RegisteredOnce (versionRegistry Runtime.plain promptKey) last := by
  let schedule :=
    together (registerPrompt 1) (registerPrompt 2)
      [(0, .succeed 1), (0, .succeed 2), (1, .succeed 3)]
  rcases
      @exists_path_of_trace _ _ (versions Runtime.plain promptKey)
        (unregistered promptKey) schedule
        (fun steps last =>
          ended steps last &&
            (states steps last).all fun world =>
              decide
                (∀ client other : Fin 2,
                  phaseAt world client = some .inserting →
                    phaseAt world other = some .inserting →
                      client = other))
        (by decide +kernel) with
    ⟨steps, last, path, _, check⟩
  rw [Bool.and_eq_true, List.all_eq_true] at check
  rcases settled_of_ended check.1 with ⟨fine, settled, present⟩
  refine ⟨steps, last, path, present, ?_⟩
  apply
    (registeredOnce_iff Runtime.plain initial_unregistered path fine settled
      ⟨0, present 0⟩).mpr
  intro world member
  have oneByOne := check.2 world member
  rw [decide_eq_true_eq] at oneByOne
  exact oneByOne

/-- Of two requests that look before either inserts, one is refused. -/
theorem not_registeredOnce_of_overlap :
    Refuses promptKey ∧ Refuses policyKey := by
  constructor
  · exact
      @refuses_of_overlapping _ (registerPrompt 1) (registerPrompt 2)
        (by decide +kernel)
  · exact
      @refuses_of_overlapping _ (registerPolicy 1) (registerPolicy 2)
        (by decide +kernel)

end Trackward.Ledger.VersionRegistry
