import Trackward.Gateway.Histories

/-!
# What becomes of declared side effects

A backend may declare in its answer what it has changed in other systems.  The
tool proxy records the call first and then every declared side effect, one
after the other, under the id the ledger has given to the call.  A row that is
not accepted is left behind, and the next one is offered.
-/

namespace Trackward.Gateway.SideEffectRecords

open Trackward.ChainCore.Encode
open Trackward.ChainCore.JsonValue
open Trackward.Gateway.ApprovalChannels
open Trackward.Gateway.Calls
open Trackward.Gateway.Handlers
open Trackward.Gateway.Histories
open Trackward.Lib.Logs
open Trackward.Lib.Octets
open Trackward.Lib.Programs
open Trackward.Lib.Programs.Program (Tracks tracks_bind tracks_of_onlyCalls)
open Trackward.Lib.Runs
open Trackward.Lib.Sessions

/-! ## The rows of an answer -/

/-- The side effects a backend declares in its answer. -/
def declared (output : Json) : List Json :=
  ((output.get "side_effects").bind Json.asArray).getD []

/-- The rows of all declared side effects, in order. -/
def confirmations
    (runId : Uuid) (toolInvocationId : Option Uuid) (output : Json) :
    List LedgerCall :=
  (declared output).map (confirmation runId toolInvocationId)

/-- A row of a side effect that is offered to the ledger. -/
def sideEffect? : Op → Option LedgerCall
  | .ledger (.recordSideEffect runId invocation kind target status text) =>
      some (.recordSideEffect runId invocation kind target status text)
  | _ => none

/-- A call that offers no side effect. -/
abbrev Other (op : Op) : Prop :=
  sideEffect? op = none

/-- The side effects a request has offered so far, in order. -/
def offered (events : List GatewayEvent) : List LedgerCall :=
  events.filterMap fun event => sideEffect? event.op

theorem offered_eq_nil {events : List GatewayEvent}
    (others : ∀ event ∈ events, Other event.op) : offered events = [] :=
  List.filterMap_eq_nil_iff.mpr others

/-- The declared side effects are recorded in their order. -/
theorem recordConfirmations_eq (runId : Uuid)
    (toolInvocationId : Option Uuid) (output : Json) :
    recordConfirmations runId toolInvocationId output =
      recordEntries runId toolInvocationId (declared output) := by
  rw [recordConfirmations, declared]
  split
  · rename_i found
    rw [found]
    rfl
  · rename_i missing
    rw [missing]
    rfl

/-! ## What a request does before it offers a side effect -/

/-- The answer of a backend, and the two records of it. -/
def recording (service : Service) (call : ToolCall) (status : UInt16)
    (body : Bytes) (reply : EventResponse) (recorded : Except String Uuid) :
    List GatewayEvent :=
  let output := bodyValue service.runtime body
  [⟨.forward call, .ok ⟨status, .ok body⟩⟩,
    ⟨.ledger
        (.appendEvent call.runId "tool_result"
          (.object [("tool", .string call.tool), ("output", output)])),
      .ok reply⟩,
    ⟨.ledger
        (.recordToolInvocation call.runId call.tool call.input output "ok"
          (some status)),
      recorded⟩]

/-- These side effects are still to be offered after a successful call. -/
inductive Owing (service : Service) (call : ToolCall) (status : UInt16)
    (body : Bytes) : List GatewayEvent → List LedgerCall → Prop where
  | intro {opening written : List GatewayEvent} {left : List LedgerCall}
      (others : ∀ event ∈ opening, Other event.op)
      (success : isSuccess status = true) (reply : EventResponse)
      (recorded : Except String Uuid)
      (order :
        written.map (fun event => sideEffect? event.op) ++ left.map some =
          (confirmations call.runId recorded.toOption
            (bodyValue service.runtime body)).map some) :
      Owing service call status body
        (opening ++ recording service call status body reply recorded ++
          written)
        left

/-- Where nothing is owed any more, everything was offered in order. -/
theorem Owing.offered_eq {service : Service} {call : ToolCall}
    {status : UInt16} {body : Bytes} {past : List GatewayEvent}
    (owing : Owing service call status body past []) :
    ∃ recorded : Except String Uuid,
      ⟨.ledger
          (.recordToolInvocation call.runId call.tool call.input
            (bodyValue service.runtime body) "ok" (some status)),
          recorded⟩ ∈
          past ∧
        isSuccess status = true ∧
          offered past =
            confirmations call.runId recorded.toOption
              (bodyValue service.runtime body) := by
  cases owing with
  | @intro opening written _ others success reply recorded order =>
      refine ⟨recorded, by simp [recording], success, ?_⟩
      have rows :
          offered written =
            confirmations call.runId recorded.toOption
              (bodyValue service.runtime body) := by
        have kept := congrArg (List.filterMap id) order
        simpa [offered, List.filterMap_map] using kept
      have none :
          offered (recording service call status body reply recorded) = [] :=
        rfl
      rw [offered, List.filterMap_append, List.filterMap_append]
      change offered opening ++ offered _ ++ offered written = _
      rw [offered_eq_nil others, none, rows]
      rfl

/-- A side effect is the next one that is owed. -/
def Offers (service : Service) (past : List GatewayEvent) (op : Op) : Prop :=
  ∀ row, sideEffect? op = some row →
    ∃ call status body left,
      op = .ledger row ∧ Owing service call status body past (row :: left)

/-- A successful answer leaves nothing to offer, and no other offers any. -/
inductive Settled (service : Service) :
    List GatewayEvent → Except Error Response → Prop where
  | silent {past : List GatewayEvent} {outcome : Except Error Response}
      (others : ∀ event ∈ past, Other event.op)
      (unsuccessful :
        ∀ status runId body, outcome = .ok (.proxied status runId body) →
          isSuccess status = false) :
      Settled service past outcome
  | complete {past : List GatewayEvent} {call : ToolCall} {status : UInt16}
      {body : Bytes} (owing : Owing service call status body past []) :
      Settled service past (.ok (.proxied status call.runId body))

variable {service : Service}

theorem offers_of_other {past : List GatewayEvent} {op : Op}
    (other : Other op) : Offers service past op := by
  intro row same
  rw [other] at same
  cases same

/-- A request without side effects goes on, or ends without any. -/
theorem tracks_others {α : Type} {handler : Handler α}
    {next : α → Handler Response} {past : List GatewayEvent}
    (others : ∀ event ∈ past, Other event.op)
    (only : handler.OnlyCalls Other)
    (follows :
      ∀ opening value, (∀ event ∈ opening, Other event.op) →
        (next value).Tracks (Offers service) (Settled service) opening) :
    (handler >>= next).Tracks (Offers service) (Settled service) past := by
  refine tracks_bind (Tracks.weaken ?_ (tracks_of_onlyCalls only ?_))
  · rintro later outcome ⟨events, rfl, after, _⟩
    have both : ∀ event ∈ past ++ events, Other event.op := by
      intro event member
      rcases List.mem_append.mp member with before | new
      · exact others event before
      · exact after event new
    cases outcome with
    | ok value => exact follows _ value both
    | error error => exact .silent both (by simp)
  · intro events op _ other
    exact offers_of_other other

/-- What is owed is offered row after row, whatever the ledger answers. -/
theorem tracks_recordEntries {call : ToolCall} {status : UInt16}
    {body : Bytes} {toolInvocationId : Option Uuid} {entries : List Json}
    {past : List GatewayEvent}
    (owing :
      Owing service call status body past
        (entries.map (confirmation call.runId toolInvocationId))) :
    (recordEntries call.runId toolInvocationId entries).Tracks
      (Offers service)
      (fun later outcome =>
        outcome = .ok () ∧ Owing service call status body later [])
      past := by
  induction entries generalizing past with
  | nil => exact ⟨rfl, owing⟩
  | cons entry entries induction =>
      refine ⟨?_, fun answer => induction ?_⟩
      · rintro row ⟨⟩
        exact ⟨call, status, body, _, rfl, owing⟩
      · cases owing with
        | intro others success reply recorded order =>
            rw [List.append_assoc]
            refine .intro others success reply recorded ?_
            simpa [sideEffect?, confirmation] using order

/-- All that is owed after the call was recorded is offered. -/
theorem tracks_recordConfirmations {call : ToolCall} {status : UInt16}
    {body : Bytes} {opening : List GatewayEvent}
    (others : ∀ event ∈ opening, Other event.op)
    (success : isSuccess status = true) (reply : EventResponse)
    (recorded : Except String Uuid) :
    (recordConfirmations call.runId recorded.toOption
        (bodyValue service.runtime body) >>=
      fun _ => .done (.proxied status call.runId body)).Tracks
      (Offers service) (Settled service)
      (opening ++ recording service call status body reply recorded) := by
  rw [recordConfirmations_eq]
  have owing :
      Owing service call status body
        (opening ++ recording service call status body reply recorded)
        (confirmations call.runId recorded.toOption
          (bodyValue service.runtime body)) := by
    rw [← List.append_nil (opening ++ _)]
    exact .intro others success reply recorded rfl
  refine tracks_bind (Tracks.weaken ?_ (tracks_recordEntries owing))
  rintro past outcome ⟨rfl, settled⟩
  exact .complete settled

theorem onlyCalls_origin {runIdHeader : Option String} {origin : String} :
    (resolveOrMintRun service runIdHeader origin).OnlyCalls Other :=
  onlyCalls_resolveOrMintRun (fun _ _ => rfl) fun _ _ => rfl

/-- The tool proxy offers all side effects of a call that succeeds. -/
theorem tracks_proxy (tool : String) (runIdHeader : Option String)
    (input : Json) :
    (proxy service tool runIdHeader input).Tracks (Offers service)
      (Settled service) [] := by
  unfold proxy
  split
  · exact .silent (by simp) (by simp)
  · rename_i backendUrl _
    refine tracks_others (by simp) onlyCalls_origin
      fun opening value others => ?_
    rcases value with ⟨runId, minted⟩
    refine tracks_others others (onlyCalls_ledger rfl)
      fun opening _ others => ?_
    have alone {answer : Except String BackendResponse} :
        ∀ event ∈
            opening ++ [⟨.forward ⟨runId, tool, backendUrl, input⟩, answer⟩],
          Other event.op := by
      intro event member
      rcases List.mem_append.mp member with before | last
      · exact others event before
      · rw [List.mem_singleton.mp last]
        rfl
    refine ⟨offers_of_other rfl, fun answer => ?_⟩
    rcases answer with text | ⟨status, text | body⟩
    · exact .silent alone (by simp)
    · exact .silent alone (by simp)
    · change
        (ledger
            (.appendEvent runId
              (outcomeEvent tool status
                (bodyValue service.runtime body)).1
              (outcomeEvent tool status
                (bodyValue service.runtime body)).2) >>=
          _).Tracks (Offers service) (Settled service) _
      cases success : isSuccess status with
      | false =>
          refine tracks_others alone (onlyCalls_ledger rfl)
            fun opening _ others => ?_
          refine tracks_others others (onlyCalls_perform rfl)
            fun opening recorded others => ?_
          rw [if_neg Bool.false_ne_true]
          exact .silent others (by rintro _ _ _ ⟨⟩; exact success)
      | true =>
          rw [outcomeEvent, if_pos success]
          refine ⟨offers_of_other rfl, fun answer => ?_⟩
          rcases answer with text | reply
          · refine .silent ?_ (by simp)
            intro event member
            rcases List.mem_append.mp member with before | last
            · exact alone event before
            · rw [List.mem_singleton.mp last]
              rfl
          · refine ⟨offers_of_other rfl, fun recorded => ?_⟩
            rw [List.append_assoc, List.append_assoc]
            exact @tracks_recordConfirmations service
              ⟨runId, tool, backendUrl, input⟩ status body _ others success
              reply recorded

/-- A request for an approval offers no side effect. -/
theorem tracks_request (runIdHeader : Option String) (body : Json) :
    (Approval.request service runIdHeader body).Tracks (Offers service)
      (Settled service) [] := by
  refine tracks_others (by simp) onlyCalls_origin fun opening value others => ?_
  rcases value with ⟨runId, minted⟩
  refine tracks_others others (onlyCalls_perform rfl)
    fun opening approvalId others => ?_
  refine tracks_others others (onlyCalls_perform rfl)
    fun opening channel others => ?_
  refine tracks_others others (onlyCalls_perform rfl)
    fun opening requestedAt others => ?_
  refine tracks_others others (onlyCalls_perform rfl)
    fun opening _ others => ?_
  refine tracks_others others (onlyCalls_perform rfl)
    fun opening written others => ?_
  split
  · exact tracks_others others (onlyCalls_perform rfl) fun opening _ others =>
      .silent others (by simp)
  · refine tracks_others others (onlyCalls_perform rfl)
      fun opening received others => ?_
    split
    · exact .silent others (by simp)
    · refine tracks_others others (onlyCalls_ledger rfl)
        fun opening _ others => ?_
      exact tracks_others others (onlyCalls_perform rfl)
        fun opening _ others => .silent others (by simp)

/-- A decision offers no side effect. -/
theorem tracks_decide (id : Uuid) (body : Json) :
    (Approval.decide service id body).Tracks (Offers service)
      (Settled service) [] := by
  refine tracks_others (by simp) (onlyCalls_perform rfl)
    fun opening removed others => ?_
  split
  · exact .silent others (by simp)
  · split
    · exact tracks_others others (onlyCalls_perform rfl)
        fun opening _ others => .silent others (by simp)
    · refine tracks_others others (onlyCalls_perform rfl)
        fun opening delivered others => ?_
      split
      · exact .silent others (by simp)
      · exact .silent others (by simp)

theorem tracks_serve (request : Request) :
    (serve service request).Tracks (Offers service) (Settled service) [] := by
  cases request with
  | tool tool runIdHeader input => exact tracks_proxy tool runIdHeader input
  | approval runIdHeader body => exact tracks_request runIdHeader body
  | decide id body => exact tracks_decide id body

/-! ## In a run of the gateway -/

variable {Client : Type} [DecidableEq Client]

/-- A write that was answered with a reply is in the history. -/
theorem wrote_of_reply {log : GatewayLog Client}
    {world : GatewayWorld Client}
    (run : GatewayRun Client service log world) {client : Client}
    {choice : Choice} {call : LedgerCall} {reply : LedgerReply call}
    (member : .called client choice ⟨.ledger call, .ok reply⟩ ∈ log) :
    ∃ id seq,
      reply = .accepted id seq call ∧
        .wrote call id seq ∈ world.shared.history := by
  rcases List.append_of_mem member with ⟨earlier, later, rfl⟩
  rcases run.called with
    ⟨before, request, calls, next, shared, _, _, responded⟩
  rw [history_of_run run]
  cases State.responds_of_respond responded with
  | accept call id seq =>
      exact ⟨id, seq, rfl, List.mem_filterMap.mpr ⟨_, member, rfl⟩⟩

/-- A call to a backend that was answered is in the history. -/
theorem forwarded_of_answer {log : GatewayLog Client}
    {world : GatewayWorld Client}
    (run : GatewayRun Client service log world) {client : Client}
    {choice : Choice} {call : ToolCall}
    {answer : Except String BackendResponse}
    (member : .called client choice ⟨.forward call, answer⟩ ∈ log) :
    .forwarded call ∈ world.shared.history := by
  rcases List.append_of_mem member with ⟨earlier, later, rfl⟩
  rcases run.called with
    ⟨before, request, calls, next, shared, _, _, responded⟩
  rw [history_of_run run]
  cases State.responds_of_respond responded with
  | respond call response =>
      exact List.mem_filterMap.mpr ⟨_, member, rfl⟩

/-- Where in the log something in the history has happened. -/
theorem exists_entry {log : GatewayLog Client} {world : GatewayWorld Client}
    (run : GatewayRun Client service log world)
    {earlier later : List Happening} {what : Happening}
    (history : world.shared.history = earlier ++ what :: later) :
    ∃ before entry after,
      log = before ++ entry :: after ∧
        before.filterMap happening = earlier ∧
          happening entry = some what := by
  rw [history_of_run run] at history
  rcases List.filterMap_eq_append_iff.mp history with
    ⟨opening, rest, rfl, rfl, found⟩
  rcases List.filterMap_eq_cons_iff.mp found with
    ⟨silent, entry, after, rfl, nothing, here, _⟩
  refine ⟨opening ++ silent, entry, after, by simp, ?_, here⟩
  rw [List.filterMap_append, List.filterMap_eq_nil_iff.mpr nothing,
    List.append_nil]

/-- A side effect in the history was owed after the records of its call. -/
theorem exists_recording {world : GatewayWorld Client}
    (reached : Reachable (gateway Client service) unrestricted world)
    {earlier later : List Happening} {runId id : Uuid}
    {toolInvocationId : Option Uuid} {kind target status : String}
    {text : Json} {seq : Int64}
    (history :
      world.shared.history =
        earlier ++
          .wrote
              (.recordSideEffect runId toolInvocationId kind target status
                text)
              id seq ::
            later) :
    ∃ (log : GatewayLog Client) (middle : GatewayWorld Client)
      (call : ToolCall) (code : UInt16) (body : Bytes)
      (reply : EventResponse) (recorded : Except String Uuid),
      GatewayRun Client service log middle ∧
        middle.shared.history = earlier ∧ isSuccess code = true ∧
          (∀ event ∈ recording service call code body reply recorded,
              ∃ client choice, .called client choice event ∈ log) ∧
            .recordSideEffect runId toolInvocationId kind target status text ∈
              confirmations call.runId recorded.toOption
                (bodyValue service.runtime body) := by
  rcases exists_logged reached with ⟨log, run⟩
  rcases exists_entry run history with
    ⟨before, entry, after, rfl, rfl, here⟩
  rcases called_of_happening here with ⟨client, choice, answer, rfl⟩
  rcases run.tracked tracks_serve _ rfl with
    ⟨call, code, body, left, _, owing⟩
  rcases run.upTo with ⟨middle, shorter⟩
  generalize past : own client before = events at owing
  cases owing with
  | @intro opening written _ others success reply recorded order =>
      refine
        ⟨before, middle, call, code, body, reply, recorded, shorter,
          history_of_run shorter, success, ?_, ?_⟩
      · intro event member
        refine ⟨client, exists_called_of_mem_own ?_⟩
        rw [past]
        simp [member]
      · rw [← List.mem_map_of_injective (Option.some_injective _), ← order]
        simp

/-! ## A backend that has sent two messages -/

/-- An answer that declares two side effects. -/
def twoMessages : Json :=
  ⟨.object
      [("side_effects",
        .array
          [.object [("kind", .string "email")],
            .object [("target", .string "inbox")]])],
    by decide⟩

/-- A gateway with a backend that always gives this answer. -/
def mailService : Service where
  runtime :=
    { parseUuid := fun _ => some 3
      jsonFromSlice := fun _ => some twoMessages
      fromUtf8Lossy := fun _ => ""
      debug := id }
  config :=
    { toolRoutes := ⟨[("mail", "backend")], by decide⟩
      gatedTools := [] }
  binding := ⟨none, none, none⟩

/-- A call is recorded; the first of its side effects is not. -/
def mailMoves : List (Move Nat Request Choice) :=
  [.arrive 0 (.tool "mail" (some "run") .null),
    .answer 0 (.accept 1 1),
    .answer 0 (.respond (.ok ⟨200, .ok []⟩)),
    .answer 0 (.accept 2 2),
    .answer 0 (.accept 9 0),
    .answer 0 (.refuse "unavailable"),
    .answer 0 (.accept 5 0)]

/-- The side effect that has happened last, and the row it names. -/
def lastSideEffect (world : GatewayWorld Nat) : Option (Uuid × Option Uuid) :=
  match world.shared.history.getLast? with
  | some (.wrote (.recordSideEffect runId invocation _ _ _ _) _ _) =>
      some (runId, invocation)
  | _ => none

/-- A client was answered with the success of a backend. -/
def isAnswered (world : GatewayWorld Nat) (client : Nat) : Bool :=
  match (world.sessions client).bind fun session => session.program.ended with
  | some (.ok (.proxied status 3 _)) => isSuccess status
  | _ => false

/-- This schedule plays through. -/
theorem exists_mailRun :
    ∃ log world,
      GatewayRun Nat mailService log world ∧
        (lastSideEffect world = some (3, some 9) ∧
          isAnswered world 0 = true) := by
  have idle : (gateway Nat mailService).initial ⟨.initial, fun _ => none⟩ :=
    ⟨rfl, fun _ => rfl⟩
  rcases
      exists_logged_of_play idle mailMoves
        (fun _ world =>
          lastSideEffect world = some (3, some 9) && isAnswered world 0)
        (by decide)
    with ⟨log, world, run, checked⟩
  rw [Bool.and_eq_true, decide_eq_true_iff] at checked
  exact ⟨log, world, run, checked⟩

/--
Every side effect in the history was declared in the recorded answer of a
successful call of the same run, and names the row of that call if it names
any.
-/
theorem sideEffect_declared {world : GatewayWorld Client}
    (reached : Reachable (gateway Client service) unrestricted world)
    {earlier later : List Happening} {runId id : Uuid}
    {toolInvocationId : Option Uuid} {kind target status : String}
    {text : Json} {seq : Int64}
    (history :
      world.shared.history =
        earlier ++
          .wrote
              (.recordSideEffect runId toolInvocationId kind target status
                text)
              id seq ::
            later) :
    ∃ call code output,
      call.runId = runId ∧ .forwarded call ∈ earlier ∧
        isSuccess code = true ∧
          (∃ id seq,
            .wrote
                (.appendEvent runId "tool_result"
                  (.object [("tool", .string call.tool), ("output", output)]))
                id seq ∈
              earlier) ∧
            .recordSideEffect runId toolInvocationId kind target status text ∈
                confirmations runId toolInvocationId output ∧
              ∀ invocation, toolInvocationId = some invocation →
                ∃ seq,
                  .wrote
                      (.recordToolInvocation runId call.tool call.input output
                        "ok" (some code))
                      invocation seq ∈
                    earlier := by
  rcases exists_recording reached history with
    ⟨log, middle, call, code, body, reply, recorded, run, rfl, success, told,
      owed⟩
  rcases List.mem_map.mp owed with ⟨declaration, _, same⟩
  rw [confirmation, LedgerCall.recordSideEffect.injEq] at same
  rcases same with ⟨rfl, rfl, _⟩
  refine
    ⟨call, code, bodyValue service.runtime body, rfl, ?_, success, ?_, owed,
      ?_⟩
  · rcases told _ List.mem_cons_self with ⟨client, choice, there⟩
    exact forwarded_of_answer run there
  · rcases told _ (List.mem_cons_of_mem _ List.mem_cons_self) with
      ⟨client, choice, there⟩
    rcases wrote_of_reply run there with ⟨id, seq, _, wrote⟩
    exact ⟨id, seq, wrote⟩
  · intro invocation named
    rcases recorded with text | found
    · cases named
    · cases named
      have last :=
        told _ (List.mem_cons_of_mem _
          (List.mem_cons_of_mem _ List.mem_cons_self))
      rcases last with ⟨client, choice, there⟩
      rcases wrote_of_reply run there with ⟨id, seq, rfl, wrote⟩
      exact ⟨seq, wrote⟩

/-- A side effect that is recorded after one that was not. -/
theorem sideEffect_declared_mailMoves :
    ∃ world earlier, ∃ call : ToolCall, ∃ code output seq,
      Reachable (gateway Nat mailService) unrestricted world ∧
        earlier <+: world.shared.history ∧
          call.runId = (3 : Uuid) ∧
            .wrote
                (.recordToolInvocation 3 call.tool call.input output "ok"
                  (some code))
                9 seq ∈
              earlier := by
  rcases exists_mailRun with ⟨log, world, run, last, _⟩
  unfold lastSideEffect at last
  split at last
  · rename_i runId invocation kind target status text id seq found
    cases last
    rcases List.getLast?_eq_some_iff.mp found with ⟨earlier, history⟩
    rcases sideEffect_declared run.reachable history with
      ⟨call, code, output, same, _, _, _, _, named⟩
    rcases named 9 rfl with ⟨seq, wrote⟩
    exact
      ⟨world, earlier, call, code, output, seq, run.reachable,
        ⟨_, history.symm⟩, same, wrote⟩
  · cases last

/--
When a request has been answered, it has offered exactly the side effects
declared in a successful answer, in their order and whatever became of each,
and none otherwise.
-/
theorem offered_of_returned {log : GatewayLog Client}
    {world : GatewayWorld Client}
    (run : GatewayRun Client service log world) {client : Client}
    {session : Session gatewayHost Request Error Response}
    {outcome : Except Error Response}
    (present : world.sessions client = some session)
    (returned : session.program.ended = some outcome) :
    (∀ status runId body,
        outcome = .ok (.proxied status runId body) →
          isSuccess status = true →
            ∃ tool input recorded,
              ⟨.ledger
                  (.recordToolInvocation runId tool input
                    (bodyValue service.runtime body) "ok" (some status)),
                  recorded⟩ ∈
                  own client log ∧
                offered (own client log) =
                  confirmations runId recorded.toOption
                    (bodyValue service.runtime body)) ∧
      ((∀ status runId body,
          outcome = .ok (.proxied status runId body) →
            isSuccess status = false) →
        offered (own client log) = []) := by
  have settled : Settled service (own client log) outcome :=
    run.ended tracks_serve present returned
  cases settled with
  | silent others unsuccessful =>
      refine ⟨?_, fun _ => offered_eq_nil others⟩
      intro status runId body same success
      rw [unsuccessful status runId body same] at success
      cases success
  | @complete call status body owing =>
      rcases owing.offered_eq with ⟨recorded, member, success, rows⟩
      constructor
      · rintro _ _ _ ⟨⟩ _
        exact ⟨call.tool, call.input, recorded, member, rows⟩
      · intro unsuccessful
        rw [unsuccessful _ _ _ rfl] at success
        cases success

/-- Both side effects were offered when the request was answered. -/
theorem offered_of_returned_mailMoves :
    ∃ log world recorded,
      GatewayRun Nat mailService log world ∧
        offered (own 0 log) =
          confirmations 3 recorded (bodyValue mailService.runtime []) := by
  rcases exists_mailRun with ⟨log, world, run, _, answered⟩
  unfold isAnswered at answered
  split at answered
  · rename_i status body found
    rcases Option.bind_eq_some_iff.mp found with ⟨session, present, returned⟩
    rcases (offered_of_returned run present returned).1 status 3 body rfl
        answered with
      ⟨tool, input, recorded, _, rows⟩
    exact ⟨log, world, recorded.toOption, run, rows⟩
  · cases answered

end Trackward.Gateway.SideEffectRecords
