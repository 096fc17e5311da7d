import Trackward.Gateway.Retrieval

/-!
# The stories of a proxied request

A proxy announces a call in the ledger, makes it, and records what came of it.
The calls and answers of a request tell one of four stories: it ended before
the announcement, the ledger did not accept a write, the answer of the backend
was of no use, or the outcome was recorded.
-/

namespace Trackward.Gateway.ProxyStories

open Trackward.ChainCore.Encode
open Trackward.ChainCore.JsonValue
open Trackward.Gateway.Calls
open Trackward.Gateway.Handlers
open Trackward.Gateway.Retrieval
open Trackward.Lib.Logs
open Trackward.Lib.Octets
open Trackward.Lib.Programs
open Trackward.Lib.Programs.Program (Tracks tracks_bind tracks_of_onlyCalls)
open Trackward.Lib.Sessions

/-! ## What a call and its answer are -/

/-- A call of a proxy with its answer. -/
abbrev ProxyEvent := Program.Event proxyInterface

/-- What is recorded before a backend is called: a run, a kind and a body. -/
def announced : ProxyOp → Option (Uuid × String × Json)
  | .gateway (.forward call) =>
      some
        (call.runId, "tool_call",
          .object [("tool", .string call.tool), ("input", call.input)])
  | .search query => some (query.runId, "retrieval_query", query.input)
  | _ => none

/-- An event offered to the ledger. -/
def appended : ProxyOp → Option (Uuid × String × Json)
  | .gateway (.ledger (.appendEvent runId kind body)) =>
      some (runId, kind, body)
  | _ => none

/-- A document offered to the ledger. -/
def uploaded : ProxyOp → Option Upload
  | .upload upload => some upload
  | _ => none

/-- A call that neither calls a backend nor records an event or a document. -/
structure Quiet (op : ProxyOp) : Prop where
  announced : announced op = none
  appended : appended op = none
  uploaded : uploaded op = none

/-- The event the ledger has accepted. -/
def recorded : ProxyEvent → Option StoredEvent
  | ⟨.gateway (.ledger (.appendEvent runId kind body)), .ok reply⟩ =>
      some ⟨runId, kind, body, reply.id, reply.seq⟩
  | _ => none

/-- The document the ledger has accepted. -/
def stored : ProxyEvent → Option (Uuid × Upload)
  | ⟨.upload upload, .ok id⟩ => some (id, upload)
  | _ => none

/-- A write whose acceptance the gateway did not learn of. -/
def refused : ProxyEvent → Bool
  | ⟨.gateway (.ledger _), .error _⟩ => true
  | ⟨.upload _, .error _⟩ => true
  | _ => false

/-- The handler can conclude from the answer of the backend. -/
def usable (proxies : Proxies) : ProxyEvent → Bool
  | ⟨.gateway (.forward _), .ok ⟨_, .ok _⟩⟩ => true
  | ⟨.search _, .ok ⟨status, .ok body⟩⟩ =>
      !isSuccess status ||
        (proxies.service.runtime.jsonFromSlice body).isSome
  | _ => false

/--
What is to be recorded of an answer once these documents were stored: one for
each document of a successful query, in order, and none otherwise.
-/
inductive Owed (proxies : Proxies) :
    ProxyEvent → List (Uuid × Upload) → Uuid × String × Json → Prop where
  | toolResult (call : ToolCall) {status : UInt16} (body : Bytes)
      (success : isSuccess status = true) :
      Owed proxies ⟨.gateway (.forward call), .ok ⟨status, .ok body⟩⟩ []
        (call.runId, "tool_result",
          .object
            [("tool", .string call.tool),
              ("output", bodyValue proxies.service.runtime body)])
  | toolError (call : ToolCall) {status : UInt16} (body : Bytes)
      (failure : isSuccess status = false) :
      Owed proxies ⟨.gateway (.forward call), .ok ⟨status, .ok body⟩⟩ []
        (call.runId, "tool_error",
          .object
            [("tool", .string call.tool),
              ("status", .natural status),
              ("body", bodyValue proxies.service.runtime body)])
  | retrievalError (query : Query) {status : UInt16} (body : Bytes)
      (failure : isSuccess status = false) :
      Owed proxies ⟨.search query, .ok ⟨status, .ok body⟩⟩ []
        (query.runId, "retrieval_error", errorBody proxies status body)
  | retrievalResult (query : Query) {status : UInt16} {body : Bytes}
      (success : isSuccess status = true) {result : Json}
      (parsed : proxies.service.runtime.jsonFromSlice body = some result)
      {stores : List (Uuid × Upload)}
      (documents :
        stores.map Prod.snd =
          (docsOf result).zipIdx.map fun doc =>
            uploadOf proxies query.runId doc.2 doc.1) :
      Owed proxies ⟨.search query, .ok ⟨status, .ok body⟩⟩ stores
        (query.runId, "retrieval_result",
          resultBody (docsOf result).length (stores.map Prod.fst))

/-- The kinds of the events that announce a call. -/
def callKinds : List String :=
  ["tool_call", "retrieval_query"]

/-- The kinds of the events that record what came of a call. -/
def outcomeKinds (kind : String) : List String :=
  if kind = "tool_call" then ["tool_result", "tool_error"]
  else if kind = "retrieval_query" then
    ["retrieval_result", "retrieval_error"]
  else []

/-- An event offered to the ledger that records what came of a call. -/
def concludes (event : ProxyEvent) : Bool :=
  (appended event.op).any fun told =>
    callKinds.any fun kind => told.2.1 ∈ outcomeKinds kind

/-! ## The stories of a request -/

/-- Of the calls so far the last is to a backend, and was announced. -/
structure Called (opening : List ProxyEvent) (announcement call : ProxyEvent) :
    Prop where
  quiet : ∀ event ∈ opening, Quiet event.op
  accepted :
    ∃ event, recorded announcement = some event ∧
      announced call.op = some (event.runId, event.kind, event.body)

/-- How the calls and answers of a request end, and with what. -/
inductive Story (proxies : Proxies) :
    List ProxyEvent → Except Error Response → Prop where
  | silent {events : List ProxyEvent}
      (quiet : ∀ event ∈ events, Quiet event.op) (error : Error) :
      Story proxies events (.error error)
  | failed {events : List ProxyEvent} {event : ProxyEvent}
      (member : event ∈ events) (refusal : refused event = true)
      (error : Error) :
      Story proxies events (.error error)
  | useless {opening : List ProxyEvent} {announcement call : ProxyEvent}
      (called : Called opening announcement call)
      (unusable : usable proxies call = false) (error : Error) :
      Story proxies (opening ++ [announcement] ++ [call]) (.error error)
  | complete {opening stores closing : List ProxyEvent}
      {announcement call outcome : ProxyEvent} {event : StoredEvent}
      (called : Called opening announcement call)
      (use : usable proxies call = true)
      (storing :
        ∀ event ∈ stores,
          announced event.op = none ∧ appended event.op = none)
      (accepted : recorded outcome = some event)
      (owed :
        Owed proxies call (stores.filterMap stored)
          (event.runId, event.kind, event.body))
      (quiet : ∀ event ∈ closing, Quiet event.op)
      (ending : Except Error Response) :
      Story proxies
        (opening ++ announcement :: call :: (stores ++ outcome :: closing))
        ending

/-- A backend is called once, after the ledger has accepted that it will be. -/
def Announces (past : List ProxyEvent) (op : ProxyOp) : Prop :=
  ∀ announcement, announced op = some announcement →
    (∀ event ∈ past, announced event.op = none) ∧
      ∃ earlier ∈ past, ∃ event,
        recorded earlier = some event ∧
          announcement = (event.runId, event.kind, event.body)

theorem announces_of_none {past : List ProxyEvent} {op : ProxyOp}
    (none : announced op = none) : Announces past op := by
  intro announcement some
  rw [none] at some
  cases some

/-- The handler calls backends after their announcement and ends in a story. -/
abbrev Follows (proxies : Proxies) (handler : ProxyHandler Response)
    (past : List ProxyEvent) : Prop :=
  handler.Tracks Announces (Story proxies) past

variable {proxies : Proxies}

theorem lift_bind {α β : Type} (first : Handler α) (second : α → Handler β) :
    lift (first >>= second) =
      lift first >>= fun value => lift (second value) :=
  Program.translate_bind first second

theorem onlyCalls_lift {α : Type} {handler : Handler α}
    (only : handler.OnlyCalls fun op => Quiet (.gateway op)) :
    (lift handler).OnlyCalls Quiet := by
  have same (op : Op) (quiet : Quiet (.gateway op)) :
      Quiet (ProxyOp.gateway op) := quiet
  exact Program.onlyCalls_translate same only

/-- A write that must succeed leads on, or into a story of failure. -/
theorem follows_ledger (call : LedgerCall)
    {next : LedgerReply call → ProxyHandler Response}
    {past : List ProxyEvent}
    (accepted :
      ∀ reply,
        Follows proxies (next reply)
          (past ++ [⟨.gateway (.ledger call), .ok reply⟩])) :
    Follows proxies (lift (ledger call) >>= next) past := by
  refine ⟨announces_of_none rfl, fun answer => ?_⟩
  cases answer with
  | ok reply => exact accepted reply
  | error text =>
      exact @Story.failed _ _ ⟨.gateway (.ledger call), .error text⟩
        (by simp) rfl _

/-- The run of a request is found or made quietly. -/
theorem follows_resolveOrMintRun {runIdHeader : Option String}
    {origin : String} {next : Uuid × Bool → ProxyHandler Response}
    (follows :
      ∀ opening value, (∀ event ∈ opening, Quiet event.op) →
        Follows proxies (next value) opening) :
    Follows proxies
      (lift (resolveOrMintRun proxies.service runIdHeader origin) >>= next)
      [] := by
  have only :
      (lift (resolveOrMintRun proxies.service runIdHeader origin)).OnlyCalls
        Quiet := by
    apply onlyCalls_lift
    exact onlyCalls_resolveOrMintRun (fun _ _ => ⟨rfl, rfl, rfl⟩)
      fun _ _ => ⟨rfl, rfl, rfl⟩
  refine tracks_bind (Tracks.weaken ?_ (tracks_of_onlyCalls only ?_))
  · rintro past outcome ⟨opening, rfl, quiet, _⟩
    cases outcome with
    | ok value => exact follows _ value quiet
    | error error => exact .silent quiet error
  · intro events op _ quiet
    exact announces_of_none quiet.announced

/-- An accepted event was offered, and no backend was called for it. -/
theorem appended_of_recorded {event : ProxyEvent} {accepted : StoredEvent}
    (recording : recorded event = some accepted) :
    appended event.op =
        some (accepted.runId, accepted.kind, accepted.body) ∧
      announced event.op = none := by
  unfold recorded at recording
  split at recording
  · cases recording
    exact ⟨rfl, rfl⟩
  · cases recording

/-- After the announcement the backend may be called. -/
theorem announces_of_accepted {opening : List ProxyEvent}
    {announcement : ProxyEvent} {event : StoredEvent} {op : ProxyOp}
    (quiet : ∀ event ∈ opening, Quiet event.op)
    (accepted : recorded announcement = some event)
    (same : announced op = some (event.runId, event.kind, event.body)) :
    Announces (opening ++ [announcement]) op := by
  intro told some
  rw [same] at some
  cases some
  constructor
  · intro earlier member
    rcases List.mem_append.mp member with before | last
    · exact (quiet earlier before).announced
    · rw [List.mem_singleton.mp last]
      exact (appended_of_recorded accepted).2
  · exact ⟨announcement, by simp, event, accepted, rfl⟩

section Conclusion

variable {opening stores : List ProxyEvent} {announcement call : ProxyEvent}

/-- After the outcome was recorded only quiet calls follow. -/
theorem follows_closing {handler : ProxyHandler Response}
    {outcome : ProxyEvent} (event : StoredEvent)
    (called : Called opening announcement call)
    (use : usable proxies call = true)
    (storing :
      ∀ event ∈ stores,
        announced event.op = none ∧ appended event.op = none)
    (accepted : recorded outcome = some event)
    (owed :
      Owed proxies call (stores.filterMap stored)
        (event.runId, event.kind, event.body))
    (only : handler.OnlyCalls Quiet) :
    Follows proxies handler
      (opening ++ [announcement] ++ [call] ++ stores ++ [outcome]) := by
  refine Tracks.weaken ?_ (tracks_of_onlyCalls only ?_)
  · rintro past ending ⟨closing, rfl, quiet, _⟩
    have complete :=
      Story.complete called use storing accepted owed quiet ending
    simpa using complete
  · intro events op _ quiet
    exact announces_of_none quiet.announced

/-- What is owed is recorded, or the ledger does not accept it. -/
theorem follows_record {next : EventResponse → ProxyHandler Response}
    {runId : Uuid} {kind : String} {body : Json}
    (called : Called opening announcement call)
    (use : usable proxies call = true)
    (storing :
      ∀ event ∈ stores,
        announced event.op = none ∧ appended event.op = none)
    (owed :
      Owed proxies call (stores.filterMap stored) (runId, kind, body))
    (only : ∀ reply, (next reply).OnlyCalls Quiet) :
    Follows proxies (record runId kind body >>= next)
      (opening ++ [announcement] ++ [call] ++ stores) := by
  refine follows_ledger (.appendEvent runId kind body) fun reply => ?_
  exact follows_closing ⟨runId, kind, body, reply.id, reply.seq⟩ called use
    storing rfl owed (only reply)

end Conclusion

/-! ## The tool proxy -/

/-- What is owed to a tool call is what the tool proxy records. -/
theorem owed_outcomeEvent (call : ToolCall) (status : UInt16) (body : Bytes) :
    Owed proxies ⟨.gateway (.forward call), .ok ⟨status, .ok body⟩⟩ []
      (call.runId,
        outcomeEvent call.tool status
          (bodyValue proxies.service.runtime body)) := by
  rw [outcomeEvent]
  cases success : isSuccess status with
  | true => exact .toolResult call body success
  | false => exact .toolError call body success

/-- The tool proxy tells one of the stories. -/
theorem follows_proxy (tool : String) (runIdHeader : Option String)
    (input : Json) :
    Follows proxies (lift (proxy proxies.service tool runIdHeader input))
      [] := by
  unfold proxy
  split
  · exact .silent (by simp) _
  · rename_i backendUrl _
    rw [lift_bind]
    refine follows_resolveOrMintRun fun opening value quiet => ?_
    rcases value with ⟨runId, minted⟩
    rw [lift_bind]
    refine follows_ledger _ fun reply => ?_
    have called {answer : Except String BackendResponse} :
        Called opening
          ⟨.gateway
              (.ledger
                (.appendEvent runId "tool_call"
                  (.object [("tool", .string tool), ("input", input)]))),
            .ok reply⟩
          ⟨.gateway (.forward ⟨runId, tool, backendUrl, input⟩), answer⟩ :=
      ⟨quiet, _, rfl, rfl⟩
    refine ⟨announces_of_accepted quiet rfl rfl, fun answer => ?_⟩
    rcases answer with text | ⟨status, text | body⟩
    · exact .useless called rfl _
    · exact .useless called rfl _
    · change
        Follows proxies
          (lift
            (ledger
                (.appendEvent runId
                  (outcomeEvent tool status
                    (bodyValue proxies.service.runtime body)).1
                  (outcomeEvent tool status
                    (bodyValue proxies.service.runtime body)).2) >>=
              _))
          _
      rw [lift_bind, ← List.append_nil (_ ++ [_])]
      refine follows_record called rfl (by simp)
        (owed_outcomeEvent _ status body) fun _ => ?_
      apply onlyCalls_lift
      refine Program.onlyCalls_bind (onlyCalls_perform ⟨rfl, rfl, rfl⟩)
        fun row => ?_
      refine Program.onlyCalls_bind ?_ fun _ => trivial
      split
      · exact onlyCalls_recordConfirmations fun _ => ⟨rfl, rfl, rfl⟩
      · trivial

/-! ## The retrieval proxy -/

/-- Documents are stored one for one, or the ledger does not accept one. -/
theorem tracks_uploadDocs (runId : Uuid) (index : Nat) (docs : List Json)
    (past : List ProxyEvent) :
    (uploadDocs proxies runId index docs).Tracks Announces
      (fun later outcome =>
        ∃ stores,
          later = past ++ stores ∧
            (∀ event ∈ stores,
              announced event.op = none ∧ appended event.op = none) ∧
            match outcome with
            | .ok ids =>
                (stores.filterMap stored).map Prod.fst = ids ∧
                  (stores.filterMap stored).map Prod.snd =
                    (docs.zipIdx index).map fun doc =>
                      uploadOf proxies runId doc.2 doc.1
            | .error _ => ∃ event ∈ stores, refused event = true)
      past := by
  induction docs generalizing index past with
  | nil => exact ⟨[], by simp, by simp, rfl, rfl⟩
  | cons doc docs induction =>
      refine ⟨announces_of_none rfl, fun answer => ?_⟩
      rcases answer with text | id
      · refine
          ⟨[⟨.upload (uploadOf proxies runId index doc), .error text⟩], rfl,
            ?_, ?_⟩
        · simp [announced, appended]
        · simp [refused]
      · refine tracks_bind (Tracks.weaken ?_ (induction (index + 1) _))
        rintro later (error | ids) ⟨stores, rfl, storing, ended⟩
        · rcases ended with ⟨event, member, refusal⟩
          refine
            ⟨⟨.upload (uploadOf proxies runId index doc), .ok id⟩ :: stores,
              by simp, ?_, event, List.mem_cons_of_mem _ member, refusal⟩
          exact List.forall_mem_cons.mpr ⟨⟨rfl, rfl⟩, storing⟩
        · rcases ended with ⟨rfl, documents⟩
          refine
            ⟨⟨.upload (uploadOf proxies runId index doc), .ok id⟩ :: stores,
              by simp, List.forall_mem_cons.mpr ⟨⟨rfl, rfl⟩, storing⟩, rfl,
              ?_⟩
          rw [List.zipIdx_cons, List.map_cons, ← documents]
          rfl

/-- The documents of a successful answer are stored, then recorded. -/
theorem follows_recordDocs {opening : List ProxyEvent}
    {announcement : ProxyEvent} {query : Query} {status : UInt16}
    {body : Bytes}
    (called :
      Called opening announcement
        ⟨.search query, .ok ⟨status, .ok body⟩⟩)
    (success : isSuccess status = true) :
    Follows proxies (recordDocs proxies query.runId status body)
      (opening ++ [announcement] ++
        [⟨.search query, .ok ⟨status, .ok body⟩⟩]) := by
  unfold recordDocs
  split
  · rename_i unread
    refine .useless called ?_ _
    simp [usable, success, unread]
  · rename_i result parsed
    refine tracks_bind (Tracks.weaken ?_ (tracks_uploadDocs query.runId 0 _ _))
    rintro later (error | ids) ⟨stores, rfl, storing, ended⟩
    · rcases ended with ⟨event, member, refusal⟩
      exact .failed (List.mem_append_right _ member) refusal error
    · rcases ended with ⟨rfl, documents⟩
      refine follows_record called ?_ storing
        (.retrievalResult query success parsed documents) fun _ => trivial
      simp [usable, parsed]

/-- The retrieval proxy tells one of the stories. -/
theorem follows_retrieve (runIdHeader : Option String) (input : Json) :
    Follows proxies (retrieve proxies runIdHeader input) [] := by
  unfold retrieve
  split
  · exact .silent (by simp) _
  · rename_i backendUrl _
    refine follows_resolveOrMintRun fun opening value quiet => ?_
    rcases value with ⟨runId, minted⟩
    refine follows_ledger _ fun reply => ?_
    have called {answer : Except String BackendResponse} :
        Called opening
          ⟨.gateway
              (.ledger (.appendEvent runId "retrieval_query" input)),
            .ok reply⟩
          ⟨.search ⟨runId, backendUrl, input⟩, answer⟩ :=
      ⟨quiet, _, rfl, rfl⟩
    refine ⟨announces_of_accepted quiet rfl rfl, fun answer => ?_⟩
    rcases answer with text | ⟨status, text | body⟩
    · exact .useless called rfl _
    · exact .useless called rfl _
    · change
        Follows proxies
          (if isSuccess status then recordDocs proxies runId status body
          else do
            let _ ←
              record runId "retrieval_error" (errorBody proxies status body)
            return .proxied status runId body)
          _
      split
      · rename_i success
        exact follows_recordDocs called success
      · rename_i failure
        rw [← List.append_nil (_ ++ [_])]
        refine follows_record called ?_ (by simp)
          (.retrievalError _ body (by simpa using failure)) fun _ => trivial
        simp [usable, failure]

/-- Every request tells one of the stories. -/
theorem follows_serveProxy (request : ProxyRequest) :
    Follows proxies (serveProxy proxies request) [] := by
  cases request with
  | tool tool runIdHeader input => exact follows_proxy tool runIdHeader input
  | retrieval runIdHeader input => exact follows_retrieve runIdHeader input

/-! ## The calls of a story -/

theorem recorded_of_appended {event : ProxyEvent}
    (nothing : appended event.op = none) : recorded event = none := by
  cases result : recorded event with
  | none => rfl
  | some accepted =>
      have offered := (appended_of_recorded result).1
      rw [nothing] at offered
      cases offered

theorem kind_of_announced {op : ProxyOp} {told : Uuid × String × Json}
    (announcement : announced op = some told) :
    told.2.1 ∈ callKinds ∧ appended op = none ∧ uploaded op = none := by
  unfold announced at announcement
  split at announcement
  · cases announcement
    exact ⟨by simp [callKinds], rfl, rfl⟩
  · cases announcement
    exact ⟨by simp [callKinds], rfl, rfl⟩
  · cases announcement

theorem Owed.kind {call : ProxyEvent} {documents : List (Uuid × Upload)}
    {told : Uuid × String × Json} (owed : Owed proxies call documents told) :
    ∃ kind body,
      announced call.op = some (told.1, kind, body) ∧
        told.2.1 ∈ outcomeKinds kind := by
  cases owed with
  | toolResult call body success =>
      exact ⟨_, _, rfl, by simp [outcomeKinds]⟩
  | toolError call body failure =>
      exact ⟨_, _, rfl, by simp [outcomeKinds]⟩
  | retrievalError query body failure =>
      exact ⟨_, _, rfl, by simp [outcomeKinds]⟩
  | retrievalResult query success parsed documents =>
      exact ⟨_, _, rfl, by simp [outcomeKinds]⟩

/-- Kinds of calls and kinds of outcomes are different kinds. -/
theorem not_mem_callKinds {kind outcome : String}
    (isOutcome : outcome ∈ outcomeKinds kind) : outcome ∉ callKinds := by
  unfold outcomeKinds at isOutcome
  split at isOutcome
  · simp only [List.mem_cons, List.not_mem_nil, or_false] at isOutcome
    rcases isOutcome with rfl | rfl
    · decide
    · decide
  · split at isOutcome
    · simp only [List.mem_cons, List.not_mem_nil, or_false] at isOutcome
      rcases isOutcome with rfl | rfl
      · decide
      · decide
    · cases isOutcome

/-- Neither announced nor offered to the ledger. -/
theorem Called.mem_cases {opening : List ProxyEvent}
    {announcement call event : ProxyEvent}
    (called : Called opening announcement call)
    (member : event ∈ opening ++ [announcement] ++ [call]) :
    event = announcement ∨ event = call ∨
      announced event.op = none ∧ appended event.op = none := by
  simp only [List.mem_append, List.mem_singleton] at member
  rcases member with (before | same) | same
  · have quiet := called.quiet event before
    exact Or.inr (Or.inr ⟨quiet.announced, quiet.appended⟩)
  · exact Or.inl same
  · exact Or.inr (Or.inl same)

theorem Called.complete_cases {opening stores closing : List ProxyEvent}
    {announcement call outcome event : ProxyEvent}
    (called : Called opening announcement call)
    (storing :
      ∀ event ∈ stores,
        announced event.op = none ∧ appended event.op = none)
    (quiet : ∀ event ∈ closing, Quiet event.op)
    (member :
      event ∈
        opening ++ announcement :: call :: (stores ++ outcome :: closing)) :
    event = announcement ∨ event = call ∨ event = outcome ∨
      announced event.op = none ∧ appended event.op = none := by
  simp only [List.mem_append, List.mem_cons] at member
  rcases member with before | same | same | between | same | after
  · have silent := called.quiet event before
    exact Or.inr (Or.inr (Or.inr ⟨silent.announced, silent.appended⟩))
  · exact Or.inl same
  · exact Or.inr (Or.inl same)
  · exact Or.inr (Or.inr (Or.inr (storing event between)))
  · exact Or.inr (Or.inr (Or.inl same))
  · have silent := quiet event after
    exact Or.inr (Or.inr (Or.inr ⟨silent.announced, silent.appended⟩))

/-- The announcement is the only event, and the call the only one announced. -/
theorem Called.only {opening : List ProxyEvent}
    {announcement call : ProxyEvent}
    (called : Called opening announcement call) :
    (recorded call = none ∧ announced call.op ≠ none) ∧
      announced announcement.op = none ∧
        ∃ event,
          recorded announcement = some event ∧ event.kind ∈ callKinds := by
  rcases called.accepted with ⟨event, accepted, announcing⟩
  have kinds := kind_of_announced announcing
  refine ⟨⟨recorded_of_appended kinds.2.1, ?_⟩,
    (appended_of_recorded accepted).2, event, accepted, kinds.1⟩
  rw [announcing]
  exact Option.some_ne_none _

theorem not_concludes {event : ProxyEvent}
    (nothing : appended event.op = none) : concludes event = false := by
  rw [concludes, nothing]
  rfl

theorem stored_of_uploaded {event : ProxyEvent}
    (nothing : uploaded event.op = none) : stored event = none := by
  unfold stored
  split
  · cases nothing
  · rfl

theorem stored_of_recorded {event : ProxyEvent} {accepted : StoredEvent}
    (recording : recorded event = some accepted) : stored event = none := by
  unfold recorded at recording
  split at recording
  · rfl
  · cases recording

/-- One of the events of a complete request records an outcome. -/
theorem Called.filter_concludes {opening stores closing : List ProxyEvent}
    {announcement call outcome : ProxyEvent} {event : StoredEvent}
    {documents : List (Uuid × Upload)}
    (called : Called opening announcement call)
    (storing :
      ∀ event ∈ stores,
        announced event.op = none ∧ appended event.op = none)
    (recording : recorded outcome = some event)
    (owed :
      Owed proxies call documents (event.runId, event.kind, event.body))
    (quiet : ∀ event ∈ closing, Quiet event.op) :
    (opening ++ announcement ::
        (stores ++ outcome :: closing)).filter concludes =
      [outcome] := by
  have before : opening.filter concludes = [] := by
    rw [List.filter_eq_nil_iff]
    intro event member
    simp [not_concludes (called.quiet event member).appended]
  have between : stores.filter concludes = [] := by
    rw [List.filter_eq_nil_iff]
    intro event member
    simp [not_concludes (storing event member).2]
  have after : closing.filter concludes = [] := by
    rw [List.filter_eq_nil_iff]
    intro event member
    simp [not_concludes (quiet event member).appended]
  rcases owed.kind with ⟨kind, body, announcing, isOutcome⟩
  have kinds := kind_of_announced announcing
  have last : concludes outcome = true := by
    rw [concludes, (appended_of_recorded recording).1]
    simpa using ⟨kind, kinds.1, isOutcome⟩
  have first : concludes announcement = false := by
    rcases called.only.2.2 with ⟨told, accepted, isCall⟩
    rw [concludes, (appended_of_recorded accepted).1]
    simpa using fun kind _ isOutcome =>
      @not_mem_callKinds kind _ isOutcome isCall
  rw [List.filter_append, List.filter_cons, List.filter_append,
    List.filter_cons, before, between, after, last, first]
  rfl

/-- The documents of a complete request were stored after the call. -/
theorem Called.filterMap_stored {opening closing : List ProxyEvent}
    {announcement call outcome : ProxyEvent} {event : StoredEvent}
    (called : Called opening announcement call) (stores : List ProxyEvent)
    (recording : recorded outcome = some event)
    (quiet : ∀ event ∈ closing, Quiet event.op) :
    (opening ++ announcement ::
        (stores ++ outcome :: closing)).filterMap stored =
      stores.filterMap stored := by
  have before : opening.filterMap stored = [] := by
    rw [List.filterMap_eq_nil_iff]
    intro event member
    exact stored_of_uploaded (called.quiet event member).uploaded
  have after : closing.filterMap stored = [] := by
    rw [List.filterMap_eq_nil_iff]
    intro event member
    exact stored_of_uploaded (quiet event member).uploaded
  rcases called.accepted with ⟨told, accepted, _⟩
  rw [List.filterMap_append,
    List.filterMap_cons_none (stored_of_recorded accepted),
    List.filterMap_append,
    List.filterMap_cons_none (stored_of_recorded recording), before, after,
    List.nil_append, List.append_nil]

end Trackward.Gateway.ProxyStories
