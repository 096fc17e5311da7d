import Trackward.Gateway.ProxyStories

/-!
# What the proxies record

What the ledger has accepted for a request is read off the story the request
tells, with the numbers in the order of the log.  A returned handler has
recorded an outcome of its call unless the answer of the backend was of no use.
-/

namespace Trackward.Gateway.ProxyRecords

open Trackward.ChainCore.Encode
open Trackward.ChainCore.JsonValue
open Trackward.Gateway.Calls
open Trackward.Gateway.Handlers
open Trackward.Gateway.ProxyStories
open Trackward.Gateway.Retrieval
open Trackward.Lib.Logs
open Trackward.Lib.Programs
open Trackward.Lib.Sessions

variable {proxies : Proxies}

/-! ## What the ledger has -/

/-- What the ledger has accepted stays. -/
theorem subset_of_respond {store after : Store} {choice : Choice}
    {op : ProxyOp} {answer : op.Answer}
    (responded : store.respond choice op = some (answer, after)) :
    store.events ⊆ after.events ∧ store.artifacts ⊆ after.artifacts := by
  have written {id : Uuid} {seq : Int64} {call : LedgerCall} {target : Store}
      (wrote : store.write id seq call = some target) :
      store.events ⊆ target.events ∧ store.artifacts ⊆ target.artifacts := by
    unfold Store.write at wrote
    split at wrote
    · split at wrote
      · cases wrote
        simp
      · cases wrote
    · cases wrote
      simp
  cases Store.responds_of_respond responded with
  | accept call id seq _ wrote => exact written wrote
  | lose call id seq text _ wrote => exact written wrote
  | refuse | acceptUpload | loseUpload | refuseUpload | forward | search =>
      simp

/-- An accepted event is added, with a number above those of its run. -/
theorem event_of_respond {store after : Store} {choice : Choice}
    {op : ProxyOp} {answer : op.Answer} {event : StoredEvent}
    (responded : store.respond choice op = some (answer, after))
    (accepted : recorded ⟨op, answer⟩ = some event) :
    store.numbers event.runId event.seq = true ∧ event ∈ after.events := by
  unfold recorded at accepted
  split at accepted
  · rename_i runId kind body reply same
    cases same
    cases accepted
    cases Store.responds_of_respond responded with
    | accept call id seq _ wrote =>
        rw [Store.write] at wrote
        split at wrote
        · rename_i numbered
          cases wrote
          exact ⟨numbered, List.mem_append_right _ (List.mem_singleton.mpr rfl)⟩
        · cases wrote
  · cases accepted

/-- An accepted document is added. -/
theorem document_of_respond {store after : Store} {choice : Choice}
    {op : ProxyOp} {answer : op.Answer} {document : Uuid × Upload}
    (responded : store.respond choice op = some (answer, after))
    (accepted : stored ⟨op, answer⟩ = some document) :
    document ∈ after.artifacts := by
  unfold stored at accepted
  split at accepted
  · rename_i upload id same
    cases same
    cases accepted
    cases Store.responds_of_respond responded with
    | acceptUpload => exact List.mem_append_right _ (List.mem_singleton.mpr rfl)
  · cases accepted

section Runs

variable {Client : Type} [DecidableEq Client]
variable {log : ProxyLog Client} {world : ProxyWorld Client}

/-- The ledger has what it has accepted in a run. -/
theorem kept_of_run (run : ProxyRun Client proxies log world)
    {client : Client} {choice : Choice} {event : ProxyEvent}
    (member : .called client choice event ∈ log) :
    (∀ accepted, recorded event = some accepted →
        accepted ∈ world.shared.events) ∧
      ∀ document, stored event = some document →
        document ∈ world.shared.artifacts := by
  induction run with
  | start isInitial => cases member
  | arrive earlier request absent induction =>
      exact induction (by simpa using member)
  | call earlier present responded induction =>
      rcases List.mem_append.mp member with before | last
      · have kept := induction before
        have grown := subset_of_respond responded
        exact ⟨fun accepted recording => grown.1 (kept.1 accepted recording),
          fun document storing => grown.2 (kept.2 document storing)⟩
      · cases List.mem_singleton.mp last
        exact
          ⟨fun accepted recording =>
            (event_of_respond responded recording).2,
            fun document storing => document_of_respond responded storing⟩
  | depart earlier present induction =>
      exact induction (by simpa using member)

theorem kept_of_own (run : ProxyRun Client proxies log world)
    {client : Client} {event : ProxyEvent}
    (member : event ∈ own client log) :
    (∀ accepted, recorded event = some accepted →
        accepted ∈ world.shared.events) ∧
      ∀ document, stored event = some document →
        document ∈ world.shared.artifacts := by
  rcases exists_called_of_mem_own member with ⟨choice, called⟩
  exact kept_of_run run called

/-- Of one run, a session's later events have larger numbers. -/
theorem seq_lt_of_own (run : ProxyRun Client proxies log world)
    {client : Client} {before after : List ProxyEvent}
    {first second : ProxyEvent} {one other : StoredEvent}
    (split : own client log = before ++ second :: after)
    (member : first ∈ before) (recordedOne : recorded first = some one)
    (recordedOther : recorded second = some other)
    (sameRun : one.runId = other.runId) :
    one.seq < other.seq := by
  rcases exists_split_of_own split with
    ⟨earlier, choice, later, rfl, rfl, _⟩
  rcases exists_called_of_mem_own member with ⟨choice', called⟩
  rcases run.called with
    ⟨middle, request, calls, next, shared, shorter, present, responded⟩
  have kept := (kept_of_run shorter called).1 one recordedOne
  have numbered := (event_of_respond responded recordedOther).1
  have below := List.all_eq_true.mp numbered one kept
  simpa [sameRun] using below

/-! ## Every recorded call gets a recorded outcome -/

/-- The calls a session has recorded were followed by their outcomes. -/
def Answered (log : ProxyLog Client) (world : ProxyWorld Client)
    (client : Client) : Prop :=
  ∀ first ∈ own client log, ∀ call,
    recorded first = some call → call.kind ∈ callKinds →
      ∃ second ∈ own client log, ∃ outcome,
        recorded second = some outcome ∧ outcome ∈ world.shared.events ∧
          outcome.runId = call.runId ∧
            outcome.kind ∈ outcomeKinds call.kind ∧ call.seq < outcome.seq

/-- A gateway with one tool and a backend that answers queries. -/
def exampleProxies : Proxies where
  service :=
    { runtime :=
        { parseUuid := fun _ => none
          jsonFromSlice := fun _ =>
            some
              (.object
                [("docs",
                  ⟨.array [.string "first", .null], by decide⟩)])
          fromUtf8Lossy := fun _ => ""
          debug := id }
      config :=
        { toolRoutes := ⟨[("search", "http://search.svc:8080")], by decide⟩
          gatedTools := [] }
      binding := ⟨none, none, none⟩ }
  retrievalBackend := some "http://retriever.svc:8080/query"
  jsonToVec := fun _ => []
  jsonError := fun _ => ""

/-- Nobody has come yet and nothing is stored. -/
def idleProxies : ProxyWorld Nat :=
  ⟨⟨[], []⟩, fun _ => none⟩

/-- A query whose two documents are stored and recorded. -/
def foundMoves : List (Move Nat ProxyRequest Choice) :=
  [.arrive 0 (.retrieval none .null),
    .answer 0 (.accept 1 0),
    .answer 0 (.accept 2 1),
    .answer 0 (.respond (.ok ⟨200, .ok []⟩)),
    .answer 0 (.accept 3 0),
    .answer 0 (.accept 4 0),
    .answer 0 (.accept 5 2)]

/-- A call of a tool whose backend cannot be reached. -/
def unreachableMoves : List (Move Nat ProxyRequest Choice) :=
  [.arrive 0 (.tool "search" none .null),
    .answer 0 (.accept 1 0),
    .answer 0 (.accept 2 1),
    .answer 0 (.respond (.error "connection refused"))]

/-- The kinds of the events the ledger has accepted from the first client. -/
def kinds (log : ProxyLog Nat) : List String :=
  ((own 0 log).filterMap recorded).map StoredEvent.kind

/-- The first client was served, all its writes accepted, and these recorded. -/
def served (expected : List String) (log : ProxyLog Nat)
    (world : ProxyWorld Nat) : Bool :=
  (world.sessions 0).any (fun session => session.program.ended.isSome) &&
    (own 0 log).all (fun event => !refused event) &&
    kinds log = expected

theorem exists_of_served {expected : List String} {log : ProxyLog Nat}
    {world : ProxyWorld Nat} (checked : served expected log world = true) :
    ∃ session outcome,
      world.sessions 0 = some session ∧
        session.program.ended = some outcome ∧
          (∀ event ∈ own 0 log, refused event = false) ∧
            kinds log = expected := by
  simp only [served, Bool.and_eq_true, List.all_eq_true, Option.any_eq_true,
    decide_eq_true_eq, Option.isSome_iff_exists, Bool.not_eq_true'] at checked
  rcases checked with ⟨⟨⟨session, present, outcome, returned⟩, accepted⟩, same⟩
  exact ⟨session, outcome, present, returned, accepted, same⟩

/-- A schedule that plays through and passes a check is a run. -/
theorem exists_exampleRun (moves : List (Move Nat ProxyRequest Choice))
    (check : ProxyLog Nat → ProxyWorld Nat → Bool)
    (played :
      (play (proxyHost Nat) (serveProxy exampleProxies) [] idleProxies
          moves).any (fun run => check run.1 run.2) =
        true) :
    ∃ log world,
      ProxyRun Nat exampleProxies log world ∧ check log world = true :=
  exists_logged_of_play ⟨trivial, fun _ => rfl⟩ moves check played

/--
A returned handler whose writes were all accepted has recorded an outcome for
the call it recorded, exactly if the answers of the backend were usable.
-/
theorem answered_iff_usable (run : ProxyRun Client proxies log world)
    {client : Client}
    {session : Session proxyInterface ProxyRequest Error Response}
    {outcome : Except Error Response}
    (present : world.sessions client = some session)
    (returned : session.program.ended = some outcome)
    (accepted : ∀ event ∈ own client log, refused event = false) :
    Answered log world client ↔
      ∀ call ∈ own client log, announced call.op ≠ none →
        usable proxies call = true := by
  have story := run.ended (fun _ => follows_serveProxy _) present returned
  unfold Answered
  generalize whole : own client log = events at story accepted ⊢
  cases story with
  | silent quiet error =>
      constructor
      · intro _ call member announcing
        exact absurd (quiet call member).announced announcing
      · intro _ first member call recording
        rw [recorded_of_appended (quiet first member).appended] at recording
        cases recording
  | failed member refusal error =>
      rw [accepted _ member] at refusal
      cases refusal
  | @useless opening announcement call called unusable error =>
      rcases called.only with
        ⟨⟨unrecorded, announcing⟩, _, event, recording, isCall⟩
      constructor
      · intro answered
        rcases answered announcement (by simp) event recording isCall with
          ⟨second, member, result, isSecond, _, _, isOutcome, _⟩
        rcases called.mem_cases member with rfl | rfl | ⟨_, nothing⟩
        · rw [recording] at isSecond
          cases isSecond
          exact absurd isCall (not_mem_callKinds isOutcome)
        · rw [unrecorded] at isSecond
          cases isSecond
        · rw [recorded_of_appended nothing] at isSecond
          cases isSecond
      · intro use
        rw [use call (by simp) announcing] at unusable
        cases unusable
  | @complete opening stores closing announcement call last event called use
      storing recording owed quiet ending =>
      rcases owed.kind with ⟨kind, body, announcing, isOutcome⟩
      constructor
      · intro _ other member announcing'
        rcases called.complete_cases storing quiet member with
          rfl | rfl | rfl | ⟨nothing, _⟩
        · exact absurd called.only.2.1 announcing'
        · exact use
        · exact absurd (appended_of_recorded recording).2 announcing'
        · exact absurd nothing announcing'
      · intro _ first member one isFirst isCall
        rcases called.complete_cases storing quiet member with
          rfl | rfl | rfl | ⟨_, nothing⟩
        · rcases called.accepted with ⟨announcement, same, told⟩
          rw [isFirst] at same
          cases same
          rw [announcing, Option.some.injEq, Prod.mk.injEq,
            Prod.mk.injEq] at told
          rcases told with ⟨sameRun, rfl, _⟩
          refine
            ⟨last, by simp, event, recording, ?_, sameRun, isOutcome, ?_⟩
          · have inside : last ∈ own client log := by
              rw [whole]
              simp
            exact (kept_of_own run inside).1 event recording
          · refine
              @seq_lt_of_own _ _ _ _ _ run client
                (opening ++ first :: call :: stores) closing _ _ _ _ ?_
                (by simp) isFirst recording
                sameRun.symm
            rw [whole]
            simp
        · rw [called.only.1.1] at isFirst
          cases isFirst
        · rw [recording] at isFirst
          cases isFirst
          exact absurd isCall (not_mem_callKinds isOutcome)
        · rw [recorded_of_appended nothing] at isFirst
          cases isFirst

/-- The query whose documents were found has its outcome. -/
theorem answered_foundMoves :
    ∃ (log : ProxyLog Nat) (world : ProxyWorld Nat),
      ProxyRun Nat exampleProxies log world ∧
        kinds log = ["retrieval_query", "retrieval_result"] ∧
          Answered log world 0 := by
  rcases exists_exampleRun foundMoves
      (fun log world =>
        served ["retrieval_query", "retrieval_result"] log world &&
          (own 0 log).all fun event =>
            (announced event.op).isNone || usable exampleProxies event)
      (by decide) with
    ⟨log, world, run, checked⟩
  rw [Bool.and_eq_true] at checked
  rcases checked with ⟨checked, useful⟩
  rcases exists_of_served checked with
    ⟨session, outcome, present, returned, accepted, same⟩
  refine ⟨log, world, run, same, ?_⟩
  apply (answered_iff_usable run present returned accepted).mpr
  intro call member announcing
  have use := List.all_eq_true.mp useful call member
  simpa [announcing] using use

/-- The call of the tool that cannot be reached has none. -/
theorem not_answered_unreachableMoves :
    ∃ (log : ProxyLog Nat) (world : ProxyWorld Nat)
      (session : Session proxyInterface ProxyRequest Error Response)
      (outcome : Except Error Response),
      ProxyRun Nat exampleProxies log world ∧
        world.sessions 0 = some session ∧
          session.program.ended = some outcome ∧
            (∀ event ∈ own 0 log, refused event = false) ∧
              ¬ Answered log world 0 := by
  rcases exists_exampleRun unreachableMoves (served ["tool_call"])
      (by decide) with
    ⟨log, world, run, checked⟩
  rcases exists_of_served checked with
    ⟨session, outcome, present, returned, accepted, same⟩
  refine
    ⟨log, world, session, outcome, run, present, returned, accepted, ?_⟩
  intro answered
  have kind {event : ProxyEvent} {call : StoredEvent}
      (member : event ∈ own 0 log) (recording : recorded event = some call) :
      call.kind = "tool_call" := by
    have listed : call.kind ∈ kinds log :=
      List.mem_map_of_mem (List.mem_filterMap.mpr ⟨event, member, recording⟩)
    rw [same] at listed
    exact List.mem_singleton.mp listed
  have first : "tool_call" ∈ kinds log := by
    rw [same]
    exact List.mem_singleton.mpr rfl
  rcases List.mem_map.mp first with ⟨call, inside, isCall⟩
  rcases List.mem_filterMap.mp inside with ⟨event, member, recording⟩
  rcases answered event member call recording (by rw [isCall]; decide) with
    ⟨second, member', last, recording', _, _, isOutcome, _⟩
  rw [isCall, kind member' recording'] at isOutcome
  exact absurd isOutcome (by decide)

end Runs

end Trackward.Gateway.ProxyRecords
