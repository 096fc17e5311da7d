import Trackward.Gateway.ProxyRecords
import Trackward.Gateway.Redirects

/-!
# What is recorded of what is sent

A request is sent to a backend only after the ledger has accepted that it will
be called, and a handler returns the last answer only after it has recorded
what is owed for it.  The requests between are those to which the answers of
the backend redirect.
-/

namespace Trackward.Gateway.WireRecords

open Trackward.Gateway.Calls
open Trackward.Gateway.Handlers
open Trackward.Gateway.ProxyRecords
open Trackward.Gateway.ProxyStories
open Trackward.Gateway.Redirects
open Trackward.Gateway.Retrieval
open Trackward.Lib.Logs
open Trackward.Lib.Runs
open Trackward.Lib.Sessions
open Trackward.Lib.Substitution

/-! ## What is announced and concluded -/

section Records

variable (http : HttpClient) (proxies : Proxies)

/--
After what a session did, a request is sent that its call begins with, or to
which the answers so far have redirected; and the ledger was told of the call.
-/
structure Announced (past : List WireEvent) (call : BackendCall)
    (request : HttpRequest) (hops : List (HttpRequest × HttpAnswer)) :
    Prop where
  requests : past.filterMap requested = hops.map (answeredHop call)
  few : hops.length ≤ maxRedirects
  redirected : Redirected http call.request hops request
  repeated :
    request.method = .post →
      request.body = some call.input ∧
        ∀ passed ∈ hops, passed.2.status ∈ repeating
  accepted :
    ∃ told ∈ past.filterMap proxied, ∃ event,
      recorded told = some event ∧
        announced call.op = some (event.runId, event.kind, event.body)

/--
A session has called a backend, got an answer in the end, and recorded exactly
one outcome: the one owed for this answer and the documents that were stored.
-/
structure Concluded (events : List WireEvent) (store : Store)
    (call : BackendCall) (last : HttpRequest × HttpAnswer)
    (hops : List (HttpRequest × HttpAnswer)) : Prop where
  requests :
    events.filterMap requested = (hops ++ [last]).map (answeredHop call)
  stops : http.next last.1 last.2 = none
  outcome :
    ∃ told ∈ events.filterMap proxied, ∃ first outcome final,
      recorded told = some first ∧
        announced call.op = some (first.runId, first.kind, first.body) ∧
          (events.filterMap proxied).filter concludes = [outcome] ∧
            recorded outcome = some final ∧ final ∈ store.events ∧
              final.runId = first.runId ∧ first.seq < final.seq ∧
                Owed proxies
                  (call.answered (.ok ⟨last.2.status, last.2.body⟩))
                  ((events.filterMap proxied).filterMap stored)
                  (final.runId, final.kind, final.body)
  documents :
    (events.filterMap proxied).filterMap stored ⊆ store.artifacts

end Records

/-! ## What the ledger has -/

section Runs

variable {Client : Type} {http : HttpClient} {proxies : Proxies}

/-- What the ledger has it keeps. -/
theorem stable_of_grows {fact : Store → Prop}
    (grows :
      ∀ store after : Store, store.events ⊆ after.events →
        store.artifacts ⊆ after.artifacts → fact store → fact after) :
    Stable (wireHost Client) fact where
  respond := by
    intro client choice op before answer after responded here
    cases op with
    | proxy op =>
        rcases exists_respond_of_wire responded with ⟨choice', answered⟩
        have grown := subset_of_respond answered
        exact grows before after grown.1 grown.2 here
    | http call request => rwa [store_of_http responded]
  depart := fun _ _ here => here

section Logs

variable [DecidableEq Client] {log : WireLog Client}
variable {world : WireWorld Client}

/-- What the ledger has accepted of a session it has for good. -/
theorem kept_of_wired (run : WireRun Client http proxies log world)
    {client : Client} {event : ProxyEvent}
    (member : wired event ∈ own client log) :
    (∀ accepted, recorded event = some accepted →
        accepted ∈ world.shared.events) ∧
      ∀ document, stored event = some document →
        document ∈ world.shared.artifacts := by
  rcases exists_called_of_mem_own member with ⟨choice, called⟩
  rcases List.append_of_mem called with ⟨earlier, later, rfl⟩
  rcases run.called_stable with
    ⟨before, request, calls, next, shared, _, _, responded, stays⟩
  rcases exists_respond_of_wire responded with ⟨choice', answered⟩
  constructor
  · intro accepted recording
    exact
      stays (fun store => accepted ∈ store.events)
        (stable_of_grows fun _ _ events _ here => events here)
        (event_of_respond answered recording).2
  · intro document storing
    exact
      stays (fun store => document ∈ store.artifacts)
        (stable_of_grows fun _ _ _ artifacts here => artifacts here)
        (document_of_respond answered storing)

/-- Of one run, a session's later events have larger numbers. -/
theorem seq_lt_of_wired (run : WireRun Client http proxies log world)
    {client : Client} {before after : List WireEvent}
    {first second : ProxyEvent} {one other : StoredEvent}
    (split : own client log = before ++ wired second :: after)
    (member : wired first ∈ before) (recordedOne : recorded first = some one)
    (recordedOther : recorded second = some other)
    (sameRun : one.runId = other.runId) :
    one.seq < other.seq := by
  rcases exists_split_of_own split with
    ⟨earlier, choice, later, rfl, rfl, _⟩
  rcases run.called with
    ⟨middle, request, calls, next, shared, shorter, present, responded⟩
  have kept := (kept_of_wired shorter member).1 one recordedOne
  rcases exists_respond_of_wire responded with ⟨choice', answered⟩
  have numbered := (event_of_respond answered recordedOther).1
  have below := List.all_eq_true.mp numbered one kept
  simpa [sameRun] using below

/-- A client that takes a location for a URL. -/
def plainClient : HttpClient where
  next := fun request answer =>
    match answer.location with
    | none => none
    | some url =>
        if answer.status ∈ repeating then some { request with url := url }
        else if answer.status ∈ turning then some ⟨.get, url, none⟩
        else none
  redirects := by
    intro request answer request' follows
    split at follows
    · cases follows
    · rename_i url pointed
      rw [pointed]
      refine ⟨Option.some_ne_none url, ?_⟩
      split at follows
      · exact List.mem_append_right _ ‹_›
      · split at follows
        · exact List.mem_append_left _ ‹_›
        · cases follows
  repeats := by
    intro request answer request' follows repeated
    split at follows
    · cases follows
    · rw [if_pos repeated] at follows
      cases follows
      exact ⟨rfl, rfl⟩
  turns := by
    intro request answer request' follows turned
    have other : answer.status ∉ repeating := by
      intro repeated
      simp only [turning, repeating, List.mem_cons, List.not_mem_nil,
        or_false] at turned repeated
      rcases repeated with same | same
      · rw [same] at turned
        revert turned
        decide
      · rw [same] at turned
        revert turned
        decide
    split at follows
    · cases follows
    · rw [if_neg other, if_pos turned] at follows
      cases follows
      exact ⟨rfl, rfl⟩

/-- Nobody has come yet and nothing is stored. -/
def idleWire : WireWorld Nat :=
  ⟨⟨[], []⟩, fun _ => none⟩

/-- A query that is redirected once before its documents are found. -/
def redirectedMoves : List (Move Nat ProxyRequest WireChoice) :=
  [.arrive 0 (.retrieval none .null),
    .answer 0 (.proxy (.accept 1 0)),
    .answer 0 (.proxy (.accept 2 1)),
    .answer 0
      (.http (.ok ⟨307, some "http://retriever.svc:8080/query", .ok []⟩)),
    .answer 0 (.http (.ok ⟨200, none, .ok []⟩)),
    .answer 0 (.proxy (.accept 3 0)),
    .answer 0 (.proxy (.accept 4 0)),
    .answer 0 (.proxy (.accept 5 2))]

/-- A schedule that plays through and passes a check is a run. -/
theorem exists_redirectedRun
    (check : WireLog Nat → WireWorld Nat → Bool)
    (played :
      (play (wireHost Nat) (serveWire plainClient exampleProxies) [] idleWire
          redirectedMoves).any (fun run => check run.1 run.2) =
        true) :
    ∃ log world,
      WireRun Nat plainClient exampleProxies log world ∧
        check log world = true :=
  exists_logged_of_play ⟨trivial, fun _ => rfl⟩ redirectedMoves check played

/-- The requests that a session has sent to the URL of a backend. -/
def backendRequests (events : List WireEvent) : List HttpRequest :=
  (events.filterMap requested).filterMap fun sent =>
    if sent.2.1.url = sent.1.url then some sent.2.1 else none

/-- No session has called a backend twice. -/
def CalledOnce (log : WireLog Client) : Prop :=
  ∀ client, (backendRequests (own client log)).length ≤ 1

/-- A request is sent for a call the ledger has been told of. -/
theorem exists_announced_of_called (run : WireRun Client http proxies log world)
    {earlier later : WireLog Client} {client : Client} {choice : WireChoice}
    {call : BackendCall} {request : HttpRequest}
    {answer : Except String HttpAnswer}
    (split :
      log =
        earlier ++ .called client choice ⟨.http call request, answer⟩ ::
          later) :
    ∃ hops, Announced http (own client earlier) call request hops := by
  subst split
  rcases run.called with
    ⟨before, request', calls, next, shared, shorter, present, _⟩
  have leaves := shorter.leaves present
  rcases exists_calling opens_carryOut leaves with
    ⟨past, lower, partway, op, next', left, ran, carries, same, inside⟩
  rcases exists_backendCall_of_http inside with
    ⟨rfl, hops, rfl, few, redirected⟩
  have suits := (ran.tracks (follows_serveProxy request')).1
  cases announcing : announced call.op with
  | none =>
      cases call with
      | tool call => cases announcing
      | retrieval query => cases announcing
  | some announcement =>
      rcases suits announcement announcing with
        ⟨silent, told, member, accepted, recording, rfl⟩
      have sent := own_of_past carries silent call hops
      rw [← same] at sent
      exact
        ⟨hops, sent.1, few, redirected,
          fun posted => (redirected.repeats posted).2, told,
          by rwa [sent.2], accepted, recording, announcing⟩

/-- A call of a backend has an answer of one. -/
theorem exists_answered {event : ProxyEvent}
    (announcing : announced event.op ≠ none) :
    ∃ (call : BackendCall) (answer : Except String BackendResponse),
      event = call.answered answer := by
  rcases event with ⟨op, answer⟩
  cases op with
  | gateway op =>
      cases op with
      | forward call => exact ⟨.tool call, answer, rfl⟩
      | _ => exact absurd rfl announcing
  | upload upload => exact absurd rfl announcing
  | search query => exact ⟨.retrieval query, answer, rfl⟩

theorem op_answered (call : BackendCall)
    (answer : Except String BackendResponse) :
    (call.answered answer).op = call.op := by
  cases call <;> rfl

/-- A call that is of use was answered. -/
theorem exists_response_of_usable {call : BackendCall}
    {answer : Except String BackendResponse}
    (use : usable proxies (call.answered answer) = true) :
    ∃ response, answer = .ok response := by
  cases answer with
  | ok response => exact ⟨response, rfl⟩
  | error text => cases call <;> cases use

/-- The calls around an answered call of a backend are carried out as they are. -/
theorem exists_last_of_carries {before after : List ProxyEvent}
    {event : ProxyEvent} {lower : List WireEvent} {call : BackendCall}
    {response : BackendResponse}
    (carries : Carries (carryOut http) (before ++ event :: after) lower)
    (earlier : ∀ other ∈ before, announced other.op = none)
    (later : ∀ other ∈ after, announced other.op = none)
    (told : event = call.answered (.ok response)) :
    ∃ (hops : List (HttpRequest × HttpAnswer)) (last : HttpRequest)
      (reply : HttpAnswer),
      lower =
          before.map wired ++
            ((hops ++ [(last, reply)]).map (hop call) ++
              after.map wired) ∧
        http.next last reply = none ∧
          response = ⟨reply.status, reply.body⟩ := by
  have regrouped : before ++ event :: after = before ++ ([event] ++ after) :=
    rfl
  rw [regrouped] at carries
  rcases carries.exists_append with ⟨first, rest, rfl, opening, carries⟩
  rcases carries.exists_append with ⟨middle, last, rfl, one, closing⟩
  rcases @Carries.exists_concat _ _ _ [] _ _ one with
    ⟨none, events, rfl, nothing, ran⟩
  rcases executes_carryOut told ran with ⟨hops, request, answer, rfl, tells⟩
  rcases tells response rfl with ⟨reply, rfl, stops, same⟩
  refine ⟨hops, request, reply, ?_, stops, same⟩
  rw [carries_unannounced opening earlier, carries_unannounced closing later,
    carries_unannounced nothing (by simp)]
  simp [hop]

/-- What the proxies called, and what was sent, around the call of a backend. -/
theorem sent_of_last (before after : List ProxyEvent) (call : BackendCall)
    (hops : List (HttpRequest × HttpAnswer)) :
    (before.map wired ++
            (hops.map (hop call) ++ after.map wired)).filterMap proxied =
        before ++ after ∧
      (before.map wired ++
            (hops.map (hop call) ++ after.map wired)).filterMap requested =
        hops.map (answeredHop call) := by
  simp only [List.filterMap_append, proxied_wired, proxied_hops,
    requested_wired, requested_hops, List.nil_append, List.append_nil,
    and_self]

/-- What is done before the call of a backend calls none. -/
theorem unannounced_before {opening : List ProxyEvent}
    {announcement call : ProxyEvent}
    (called : Called opening announcement call) :
    ∀ event ∈ opening ++ [announcement], announced event.op = none := by
  rw [List.forall_mem_append, List.forall_mem_singleton]
  exact
    ⟨fun event member => (called.quiet event member).announced,
      called.only.2.1⟩

/-- What is done after the call of a backend calls none. -/
theorem unannounced_after {stores closing : List ProxyEvent}
    {outcome : ProxyEvent} {final : StoredEvent}
    (storing :
      ∀ event ∈ stores, announced event.op = none ∧ appended event.op = none)
    (recording : recorded outcome = some final)
    (quiet : ∀ event ∈ closing, Quiet event.op) :
    ∀ event ∈ stores ++ outcome :: closing, announced event.op = none := by
  rw [List.forall_mem_append, List.forall_mem_cons]
  exact
    ⟨fun event member => (storing event member).1,
      (appended_of_recorded recording).2,
      fun event member => (quiet event member).announced⟩

/-- A session that has returned what a backend answered has concluded. -/
theorem exists_concluded_of_returned
    (run : WireRun Client http proxies log world) {client : Client}
    {session : Session wireInterface ProxyRequest Error Response}
    {response : Response} (present : world.sessions client = some session)
    (returned : session.program.ended = some (.ok response)) :
    ∃ call last hops,
      Concluded http proxies (own client log) world.shared call last
        hops := by
  rcases exists_carries opens_carryOut (run.leaves present) with
    ⟨upper, lower, rest, exchange, ran, carries, stands, whole⟩
  rcases stands.ended opens_carryOut returned with ⟨ended, rfl⟩
  rw [exchanged, List.append_nil] at whole
  have story := (ran.tracks (follows_serveProxy _)).ended ended
  cases story with
  | @complete opening stores closing announcement backend outcome final
      called use storing recording owed quiet ending =>
      rcases exists_answered called.only.1.2 with ⟨call, answer, rfl⟩
      rcases exists_response_of_usable use with ⟨answered, rfl⟩
      have carries' :
          Carries (carryOut http)
            ((opening ++ [announcement]) ++
              call.answered (.ok answered) :: (stores ++ outcome :: closing))
            lower := by
        rw [← List.append_cons]
        exact carries
      rcases
          exists_last_of_carries carries' (unannounced_before called)
            (unannounced_after storing recording quiet) rfl with
        ⟨hops, last, reply, rfl, stops, rfl⟩
      rcases sent_of_last (opening ++ [announcement])
          (stores ++ outcome :: closing) call (hops ++ [(last, reply)]) with
        ⟨events, requests⟩
      rw [← whole] at events requests
      rw [← List.append_cons] at events
      rcases called.accepted with ⟨first, accepted, told⟩
      rcases owed.kind with ⟨kind, body, announced', _⟩
      have single := called.filter_concludes storing recording owed quiet
      have documents := called.filterMap_stored stores recording quiet
      rw [← events] at single documents
      have kept {event : ProxyEvent}
          (member : event ∈ (own client log).filterMap proxied) :=
        kept_of_wired run (wired_mem_of_proxied member)
      have sameRun : final.runId = first.runId := by
        rw [announced', Option.some.injEq, Prod.mk.injEq] at told
        exact told.1
      have ordered : first.seq < final.seq := by
        have split :
            own client log =
              ((opening ++ [announcement]).map wired ++
                  ((hops ++ [(last, reply)]).map (hop call) ++
                    stores.map wired)) ++
                wired outcome :: closing.map wired := by
          rw [whole]
          simp
        exact
          seq_lt_of_wired run split
            (List.mem_append_left _ (List.mem_map_of_mem (by simp)))
            accepted recording sameRun.symm
      refine
        ⟨call, (last, reply), hops, requests, stops,
          ⟨announcement, ?_, first, outcome, final, accepted, ?_, single,
            recording, (kept ?_).1 final recording, sameRun, ordered, ?_⟩,
          ?_⟩
      · rw [events]
        simp
      · rwa [op_answered] at told
      · rw [events]
        simp
      · rwa [documents]
      · intro document listed
        rcases List.mem_filterMap.mp listed with ⟨event, inside, storing'⟩
        exact (kept inside).2 document storing'

/--
A backend is sent one request for a request to a proxy, and after that only
requests to which its answers redirect, and only after the ledger has accepted
the announcement.  A handler that returns the answer of a backend has recorded
exactly one outcome, which is the one owed for the last of these answers and
the documents that were stored.
-/
theorem announced_and_concluded (run : WireRun Client http proxies log world) :
    (∀ earlier client choice call request answer later,
      log =
          earlier ++ .called client choice ⟨.http call request, answer⟩ ::
            later →
        ∃ hops, Announced http (own client earlier) call request hops) ∧
      ∀ client session response,
        world.sessions client = some session →
          session.program.ended = some (.ok response) →
            ∃ call last hops,
              Concluded http proxies (own client log) world.shared call last
                hops :=
  ⟨fun _ _ _ _ _ _ _ split => exists_announced_of_called run split,
    fun _ _ _ present returned =>
      exists_concluded_of_returned run present returned⟩

/-- The query was sent twice before its documents were recorded. -/
theorem announced_and_concluded_redirectedMoves :
    ∃ (log : WireLog Nat) (world : WireWorld Nat),
      WireRun Nat plainClient exampleProxies log world ∧
        ((own 0 log).filterMap requested).length = 2 ∧
          ∃ call last hops,
            Concluded plainClient exampleProxies (own 0 log) world.shared call
              last hops := by
  rcases exists_redirectedRun
      (fun log world =>
        (world.sessions 0).any (fun session =>
            session.program.ended.any fun outcome => outcome.toBool) &&
          ((own 0 log).filterMap requested).length = 2)
      (by decide +kernel) with
    ⟨log, world, run, checked⟩
  rw [Bool.and_eq_true, Option.any_eq_true, decide_eq_true_eq] at checked
  rcases checked with ⟨⟨session, present, ended⟩, twice⟩
  rw [Option.any_eq_true] at ended
  rcases ended with ⟨error | response, returned, isOk⟩
  · cases isOk
  · exact
      ⟨log, world, run, twice,
        (announced_and_concluded run).2 0 session response present returned⟩

/-- A backend that redirects to itself is sent the query a second time. -/
theorem not_calledOnce_redirectedMoves :
    ∃ (log : WireLog Nat) (world : WireWorld Nat),
      WireRun Nat plainClient exampleProxies log world ∧
        ¬ CalledOnce log ∧
          ((own 0 log).filterMap requested).map
              (fun sent => (sent.2.1.method, sent.2.1.url)) =
            [(.post, "http://retriever.svc:8080/query"),
              (.post, "http://retriever.svc:8080/query")] := by
  rcases exists_redirectedRun
      (fun log _ =>
        decide (¬ (backendRequests (own 0 log)).length ≤ 1) &&
          ((own 0 log).filterMap requested).map
              (fun sent => (sent.2.1.method, sent.2.1.url)) =
            [(.post, "http://retriever.svc:8080/query"),
              (.post, "http://retriever.svc:8080/query")])
      (by decide +kernel) with
    ⟨log, world, run, checked⟩
  rw [Bool.and_eq_true, decide_eq_true_eq, decide_eq_true_eq] at checked
  exact ⟨log, world, run, fun once => checked.1 (once 0), checked.2⟩

/--
What can be seen of the proxies on the wire is what can be seen of proxies
whose calls are answered at once: the requests, their outcomes and the store.
-/
theorem wire_refines
    (reached :
      Reachable
        (system (wireHost Client) (serveWire http proxies) fun _ => True)
        unrestricted world) :
    ∃ abstract : ProxyWorld Client,
      Reachable
          (system (proxyHost Client) (serveProxy proxies) fun _ => True)
          unrestricted abstract ∧
        abstract.shared = world.shared ∧
          ∀ client,
            (world.sessions client).map seen =
              (abstract.sessions client).map seen := by
  rcases
      exists_simulated simulates_wire (fun store _ => ⟨store, trivial, rfl⟩)
        reached with
    ⟨exchanges, abstract, above, same, fits⟩
  exact
    ⟨abstract, above, same.symm, fun client =>
      (fits client).seen_eq opens_carryOut⟩

/-- A redirected query is seen as one that was answered at once. -/
theorem wire_refines_redirectedMoves :
    ∃ abstract : ProxyWorld Nat,
      Reachable
          (system (proxyHost Nat) (serveProxy exampleProxies) fun _ => True)
          unrestricted abstract ∧
        abstract.shared.events.length = 2 ∧
          abstract.shared.artifacts.length = 2 ∧
            ∃ session, abstract.sessions 0 = some session ∧
              session.program.ended ≠ none := by
  rcases exists_redirectedRun
      (fun log world =>
        ((own 0 log).filterMap requested).length = 2 &&
          (world.shared.events.length = 2 &&
            world.shared.artifacts.length = 2) &&
            (world.sessions 0).any fun session =>
              session.program.ended.isSome)
      (by decide +kernel) with
    ⟨log, world, run, checked⟩
  simp only [Bool.and_eq_true, decide_eq_true_eq, Option.any_eq_true]
    at checked
  rcases checked with ⟨⟨_, events, artifacts⟩, session, present, ended⟩
  rcases wire_refines run.reachable with ⟨abstract, above, same, alike⟩
  have seenAlike := alike 0
  rw [present] at seenAlike
  cases here : abstract.sessions 0 with
  | none =>
      rw [here] at seenAlike
      cases seenAlike
  | some session' =>
      rw [here, Option.map_some, Option.map_some, Option.some_inj] at seenAlike
      refine ⟨abstract, above, ?_, ?_, session', here, ?_⟩
      · rw [same, events]
      · rw [same, artifacts]
      · rw [← show _ = session'.program.ended from congrArg Prod.snd seenAlike]
        exact Option.isSome_iff_ne_none.mp ended

end Logs

end Runs

end Trackward.Gateway.WireRecords
