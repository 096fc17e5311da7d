import Trackward.Gateway.ProxyStories
import Trackward.Lib.Substitution

/-!
# The backends behind their redirects

The proxies send a request to a backend through an HTTP client that follows
redirects.  So one call of a backend is a chain of HTTP requests, each of which
but the first goes where the answer before it has pointed; the call is answered
with the last answer, or fails.

Here the calls of the proxies are carried out request by request.
-/

namespace Trackward.Gateway.Redirects

open Trackward.ChainCore.Encode
open Trackward.ChainCore.JsonValue
open Trackward.Gateway.Calls
open Trackward.Gateway.Handlers
open Trackward.Gateway.ProxyStories
open Trackward.Gateway.Retrieval
open Trackward.Lib.Logs
open Trackward.Lib.Octets
open Trackward.Lib.Programs
open Trackward.Lib.Programs.Program (Leaves)
open Trackward.Lib.Sessions
open Trackward.Lib.Substitution

/-! ## The HTTP client -/

/-- The methods of the requests to a backend. -/
inductive Method where
  | get
  | post
  deriving DecidableEq

/-- A request on the wire. -/
structure HttpRequest where
  method : Method
  url : String
  body : Option Json

/-- An answer on the wire, with its body if it could be read. -/
structure HttpAnswer where
  status : UInt16
  location : Option String
  body : Except String Bytes

/-- The statuses after which a request is repeated elsewhere. -/
def repeating : List UInt16 :=
  [307, 308]

/-- The statuses after which a request becomes a GET. -/
def turning : List UInt16 :=
  [301, 302, 303]

/--
What the HTTP client makes of an answer: it goes on with another request if the
answer redirects.
-/
structure HttpClient where
  next : HttpRequest → HttpAnswer → Option HttpRequest
  redirects :
    ∀ {request answer request'}, next request answer = some request' →
      answer.location ≠ none ∧ answer.status ∈ turning ++ repeating
  repeats :
    ∀ {request answer request'}, next request answer = some request' →
      answer.status ∈ repeating →
        request'.method = request.method ∧ request'.body = request.body
  turns :
    ∀ {request answer request'}, next request answer = some request' →
      answer.status ∈ turning →
        request'.method = .get ∧ request'.body = none

/-- How many redirects are followed. -/
def maxRedirects : Nat :=
  10

/-- A call of a backend by one of the proxies. -/
inductive BackendCall where
  | tool (call : ToolCall)
  | retrieval (query : Query)

namespace BackendCall

/-- The call as the proxy makes it. -/
def op : BackendCall → ProxyOp
  | .tool call => .gateway (.forward call)
  | .retrieval query => .search query

/-- The call with its answer. -/
def answered (answer : Except String BackendResponse) :
    BackendCall → ProxyEvent
  | .tool call => ⟨.gateway (.forward call), answer⟩
  | .retrieval query => ⟨.search query, answer⟩

/-- The URL the backend is configured with. -/
def url : BackendCall → String
  | .tool call => call.backendUrl
  | .retrieval query => query.backendUrl

/-- The input that is forwarded. -/
def input : BackendCall → Json
  | .tool call => call.input
  | .retrieval query => query.input

/-- The first request of a call. -/
def request (call : BackendCall) : HttpRequest where
  method := .post
  url := call.url
  body := some call.input

end BackendCall

/-! ## Calls, request by request -/

/--
What the proxies do on the wire.  The call that a request is made for is not
sent: it is kept to speak about the request.
-/
inductive WireOp where
  | proxy (op : ProxyOp)
  | http (call : BackendCall) (request : HttpRequest)

/-- What each of these answers. -/
def WireOp.Answer : WireOp → Type
  | .proxy op => op.Answer
  | .http _ _ => Except String HttpAnswer

/-- The interface of the wire. -/
def wireInterface : Interface where
  Op := WireOp
  Answer := WireOp.Answer

/-- Something done on the wire with its answer. -/
abbrev WireEvent := Program.Event wireInterface

/-- Send a request and follow so many redirects. -/
def send (http : HttpClient) (call : BackendCall) (left : Nat)
    (request : HttpRequest) :
    Program wireInterface Empty (Except String BackendResponse) :=
  .call (.http call request) fun answer =>
    match answer with
    | .error text => .done (.error text)
    | .ok reply =>
        match http.next request reply with
        | none => .done (.ok ⟨reply.status, reply.body⟩)
        | some request' =>
            match left with
            | 0 => .done (.error "error following redirect")
            | left + 1 => send http call left request'

/-- Carry out a call of a proxy. -/
def carryOut (http : HttpClient) :
    (op : ProxyOp) → Program wireInterface Empty op.Answer
  | .gateway (.forward call) =>
      send http (.tool call) maxRedirects (BackendCall.tool call).request
  | .search query =>
      send http (.retrieval query) maxRedirects
        (BackendCall.retrieval query).request
  | .gateway op => .call (.proxy (.gateway op)) .done
  | .upload upload => .call (.proxy (.upload upload)) .done

/-- What the environment answers. -/
inductive WireChoice where
  | proxy (choice : Choice)
  | http (answer : Except String HttpAnswer)

/-- The ledger as before; a request on the wire is answered with anything. -/
def wireHost (Client : Type) :
    Host wireInterface Client WireChoice Store where
  respond := fun _ choice op store =>
    match choice, op with
    | .proxy choice, .proxy op => store.respond choice op
    | .http answer, .http _ _ => some (answer, store)
    | _, _ => none
  depart := fun _ store => store

/-- The handler of a request, request by request. -/
def serveWire (http : HttpClient) (proxies : Proxies)
    (request : ProxyRequest) : Program wireInterface Error Response :=
  substitute (carryOut http) (serveProxy proxies request)

/-- The log of a run on the wire. -/
abbrev WireLog (Client : Type) :=
  List (Entry wireInterface Client ProxyRequest WireChoice)

/-- The proxies on the wire with all requests in flight. -/
abbrev WireWorld (Client : Type) :=
  World wireInterface Client ProxyRequest Store Error Response

/-- All runs on the wire, whatever the ledger has stored before. -/
abbrev WireRun (Client : Type) [DecidableEq Client] (http : HttpClient)
    (proxies : Proxies) : WireLog Client → WireWorld Client → Prop :=
  Logged (wireHost Client) (serveWire http proxies) fun _ => True

/-! ## Chains of requests -/

section Chains

variable (http : HttpClient)

/-- Each request but the first goes where the answer before it has pointed. -/
inductive Redirected : HttpRequest → List (HttpRequest × HttpAnswer) →
    HttpRequest → Prop where
  | here (request : HttpRequest) : Redirected request [] request
  | further {first second last : HttpRequest} {answer : HttpAnswer}
      {hops : List (HttpRequest × HttpAnswer)}
      (follows : http.next first answer = some second)
      (later : Redirected second hops last) :
      Redirected first ((first, answer) :: hops) last

/-- A request that was answered, on the wire. -/
def hop (call : BackendCall) (passed : HttpRequest × HttpAnswer) :
    WireEvent :=
  ⟨.http call passed.1, .ok passed.2⟩

variable {http} {call : BackendCall}

/-- A request that is still to be posted carries the input. -/
theorem Redirected.repeats {first last : HttpRequest}
    {hops : List (HttpRequest × HttpAnswer)}
    (redirected : Redirected http first hops last)
    (posted : last.method = .post) :
    first.method = .post ∧ last.body = first.body ∧
      ∀ passed ∈ hops, passed.2.status ∈ repeating := by
  induction redirected with
  | here request => exact ⟨posted, rfl, by simp⟩
  | further follows later induction =>
      rcases induction posted with ⟨method, body, passed⟩
      have status := (http.redirects follows).2
      rcases List.mem_append.mp status with turned | repeated
      · rw [(http.turns follows turned).1] at method
        cases method
      · have same := http.repeats follows repeated
        rw [same.1] at method
        rw [same.2] at body
        exact
          ⟨method, body, List.forall_mem_cons.mpr ⟨repeated, passed⟩⟩

/-- After one request the call is over, or a redirect is followed. -/
theorem send_cases (limit : Nat) (first : HttpRequest) :
    ∃ next,
      send http call limit first = .call (.http call first) next ∧
        ∀ answer,
          (∃ value, next answer = .done value ∧
              ∀ response, value = .ok response →
                ∃ reply, answer = .ok reply ∧
                  http.next first reply = none ∧
                    response = ⟨reply.status, reply.body⟩) ∨
            ∃ reply second left,
              answer = .ok reply ∧ http.next first reply = some second ∧
                limit = left + 1 ∧ next answer = send http call left second := by
  rw [send]
  refine ⟨_, rfl, fun answer => ?_⟩
  cases answer with
  | error text => exact Or.inl ⟨_, rfl, fun _ absurdity => by cases absurdity⟩
  | ok reply =>
      cases follows : http.next first reply with
      | none =>
          refine Or.inl ⟨.ok ⟨reply.status, reply.body⟩, ?_, ?_⟩
          · simp only [follows]
          · rintro _ ⟨⟩
            exact ⟨reply, rfl, follows, rfl⟩
      | some second =>
          cases limit with
          | zero =>
              refine Or.inl ⟨.error "error following redirect", ?_, ?_⟩
              · simp only [follows]
              · rintro _ ⟨⟩
          | succ left =>
              refine Or.inr ⟨reply, second, left, rfl, follows, rfl, ?_⟩
              simp only [follows]

/-- A request is sent after redirects only. -/
theorem leaves_send {limit : Nat} {first : HttpRequest}
    {events : List WireEvent} {op : WireOp}
    {next :
      op.Answer →
        Program wireInterface Empty (Except String BackendResponse)}
    (leaves : Leaves (send http call limit first) events (.call op next)) :
    ∃ hops request,
      op = .http call request ∧ events = hops.map (hop call) ∧
        hops.length ≤ limit ∧ Redirected http first hops request := by
  induction events generalizing limit first with
  | nil =>
      rcases send_cases limit first with ⟨_, opened, _⟩
      cases (Program.leaves_nil leaves).trans opened
      exact ⟨[], first, rfl, rfl, Nat.zero_le limit, .here first⟩
  | cons event events induction =>
      rcases event with ⟨lower, answer⟩
      rcases send_cases limit first with ⟨_, opened, each⟩
      rw [opened] at leaves
      rcases Program.leaves_cons leaves with ⟨_, same, rest⟩
      cases same
      rcases each answer with
        ⟨value, ended, _⟩ | ⟨reply, second, left, rfl, follows, rfl, on⟩
      · rw [ended] at rest
        cases rest
      · rw [on] at rest
        rcases induction rest with ⟨hops, request, rfl, rfl, few, later⟩
        exact
          ⟨(first, reply) :: hops, request, rfl, rfl,
            Nat.succ_le_succ few, .further follows later⟩

/-- An answered call ends with an answer that does not redirect. -/
theorem executes_send {limit : Nat} {first : HttpRequest}
    {events : List WireEvent} {value : Except String BackendResponse}
    (ran : (send http call limit first).Executes events (.ok value)) :
    ∃ hops request answer,
      events = hops.map (hop call) ++ [⟨.http call request, answer⟩] ∧
        hops.length ≤ limit ∧ Redirected http first hops request ∧
          ∀ response, value = .ok response →
            ∃ reply, answer = .ok reply ∧ http.next request reply = none ∧
              response = ⟨reply.status, reply.body⟩ := by
  induction events generalizing limit first with
  | nil =>
      rcases send_cases limit first with ⟨_, opened, _⟩
      rw [opened] at ran
      rcases Program.executes_call_iff.mp ran with ⟨_, _, absurdity, _⟩
      cases absurdity
  | cons event events induction =>
      rcases send_cases limit first with ⟨_, opened, each⟩
      rw [opened] at ran
      rcases Program.executes_call_iff.mp ran with ⟨answer, _, same, on⟩
      cases same
      rcases each answer with
        ⟨value, ended, tells⟩ | ⟨reply, second, left, rfl, follows, rfl, more⟩
      · rw [ended] at on
        rcases Program.executes_done_iff.mp on with ⟨rfl, same⟩
        cases same
        exact
          ⟨[], first, answer, rfl, Nat.zero_le limit, .here first, tells⟩
      · rw [more] at on
        rcases induction on with
          ⟨hops, request, answer, rfl, few, later, tells⟩
        exact
          ⟨(first, reply) :: hops, request, answer, rfl,
            Nat.succ_le_succ few, .further follows later, tells⟩

end Chains

/-! ## Calls and what carries them out -/

/-- A request on the wire with its answer. -/
def requested : WireEvent →
    Option (BackendCall × HttpRequest × Except String HttpAnswer)
  | ⟨.http call request, answer⟩ => some (call, request, answer)
  | _ => none

/-- A call that is none of a backend. -/
def proxied : WireEvent → Option ProxyEvent
  | ⟨.proxy op, answer⟩ => some ⟨op, answer⟩
  | _ => none

/-- A call that is none of a backend, on the wire. -/
def wired (event : ProxyEvent) : WireEvent :=
  ⟨.proxy event.op, event.answer⟩

/-- A request that was answered. -/
def answeredHop (call : BackendCall) (passed : HttpRequest × HttpAnswer) :
    BackendCall × HttpRequest × Except String HttpAnswer :=
  (call, passed.1, .ok passed.2)

section Calls

variable {http : HttpClient}

theorem requested_wired (events : List ProxyEvent) :
    (events.map wired).filterMap requested = [] := by
  rw [List.filterMap_map, List.filterMap_eq_nil_iff]
  exact fun _ _ => rfl

theorem proxied_wired (events : List ProxyEvent) :
    (events.map wired).filterMap proxied = events := by
  rw [List.filterMap_map]
  exact List.filterMap_some

theorem wired_mem_of_proxied {events : List WireEvent} {event : ProxyEvent}
    (member : event ∈ events.filterMap proxied) : wired event ∈ events := by
  rcases List.mem_filterMap.mp member with ⟨⟨op, answer⟩, inside, same⟩
  cases op with
  | proxy op =>
      cases same
      exact inside
  | http call request => cases same

theorem proxied_hops (call : BackendCall)
    (hops : List (HttpRequest × HttpAnswer)) :
    (hops.map (hop call)).filterMap proxied = [] := by
  rw [List.filterMap_map, List.filterMap_eq_nil_iff]
  exact fun _ _ => rfl

theorem requested_hops (call : BackendCall)
    (hops : List (HttpRequest × HttpAnswer)) :
    (hops.map (hop call)).filterMap requested =
      hops.map (answeredHop call) := by
  rw [List.filterMap_map, ← List.filterMap_eq_map]
  rfl

/-- A call that is announced is one of a backend. -/
theorem exists_backendCall {op : ProxyOp}
    {announcement : Uuid × String × Json}
    (announcing : announced op = some announcement) :
    ∃ call : BackendCall, op = call.op := by
  unfold announced at announcing
  split at announcing
  · exact ⟨.tool _, rfl⟩
  · exact ⟨.retrieval _, rfl⟩
  · cases announcing

/-- A call of a backend is carried out by a chain of requests. -/
theorem leaves_carryOut {call : BackendCall} {events : List WireEvent}
    {lower : WireOp}
    {left :
      lower.Answer → Program wireInterface Empty (call.op.Answer)}
    (leaves : Leaves (carryOut http call.op) events (.call lower left)) :
    ∃ hops request,
      lower = .http call request ∧ events = hops.map (hop call) ∧
        hops.length ≤ maxRedirects ∧
          Redirected http call.request hops request := by
  cases call with
  | tool call => exact leaves_send leaves
  | retrieval query => exact leaves_send leaves

theorem executes_carryOut {event : ProxyEvent} {call : BackendCall}
    {answer : Except String BackendResponse}
    (told : event = call.answered answer) {events : List WireEvent}
    (ran : (carryOut http event.op).Executes events (.ok event.answer)) :
    ∃ (hops : List (HttpRequest × HttpAnswer)) (request : HttpRequest)
      (last : Except String HttpAnswer),
      events = hops.map (hop call) ++ [⟨.http call request, last⟩] ∧
        ∀ response, answer = .ok response →
          ∃ reply, last = .ok reply ∧ http.next request reply = none ∧
            response = ⟨reply.status, reply.body⟩ := by
  subst told
  cases call with
  | tool call =>
      rcases executes_send ran with ⟨hops, request, last, same, _, _, tells⟩
      exact ⟨hops, request, last, same, tells⟩
  | retrieval query =>
      rcases executes_send ran with ⟨hops, request, last, same, _, _, tells⟩
      exact ⟨hops, request, last, same, tells⟩

/-- A call that is not announced is carried out at once. -/
theorem carryOut_of_unannounced {op : ProxyOp}
    (silent : announced op = none) :
    carryOut http op = .call (.proxy op) .done := by
  cases op with
  | gateway op =>
      cases op with
      | forward call => cases silent
      | _ => rfl
  | upload upload => rfl
  | search query => cases silent

/-- Calls that are not announced are carried out as they are. -/
theorem carries_unannounced {past : List ProxyEvent}
    {events : List WireEvent}
    (carries : Carries (carryOut http) past events)
    (silent : ∀ event ∈ past, announced event.op = none) :
    events = past.map wired := by
  induction carries with
  | nil => rfl
  | @concat upper lower events op value earlier ran induction =>
      rcases List.forall_mem_append.mp silent with ⟨others, last⟩
      rw [carryOut_of_unannounced (last _ List.mem_cons_self)] at ran
      rcases Program.executes_call_iff.mp ran with ⟨answer, _, rfl, done⟩
      rcases Program.executes_done_iff.mp done with ⟨rfl, same⟩
      cases same
      rw [induction others, List.map_append]
      rfl

/-- What is sent over HTTP is sent for a call of a backend. -/
theorem exists_backendCall_of_http {op : ProxyOp} {events : List WireEvent}
    {call : BackendCall} {request : HttpRequest}
    {left :
      (WireOp.http call request).Answer →
        Program wireInterface Empty op.Answer}
    (leaves :
      Leaves (carryOut http op) events (.call (.http call request) left)) :
    op = call.op ∧
      ∃ hops,
        events = hops.map (hop call) ∧ hops.length ≤ maxRedirects ∧
          Redirected http call.request hops request := by
  cases announcing : announced op with
  | none =>
      rw [carryOut_of_unannounced announcing] at leaves
      cases leaves with
      | call answer rest => cases rest
  | some announcement =>
      rcases exists_backendCall announcing with ⟨call', rfl⟩
      rcases leaves_carryOut leaves with ⟨hops, _, same, rfl, few, redirected⟩
      cases same
      exact ⟨rfl, hops, rfl, few, redirected⟩

/-- What the proxies called before a backend, and on its way to it. -/
theorem own_of_past {past : List ProxyEvent} {before : List WireEvent}
    (carries : Carries (carryOut http) past before)
    (silent : ∀ event ∈ past, announced event.op = none)
    (call : BackendCall) (hops : List (HttpRequest × HttpAnswer)) :
    (before ++ hops.map (hop call)).filterMap requested =
        hops.map (answeredHop call) ∧
      (before ++ hops.map (hop call)).filterMap proxied = past := by
  rw [carries_unannounced carries silent, List.filterMap_append,
    List.filterMap_append, requested_wired, requested_hops, proxied_wired,
    proxied_hops, List.nil_append, List.append_nil]
  exact ⟨rfl, rfl⟩

end Calls

/-! ## Runs on the wire -/

section Runs

variable {Client : Type} {http : HttpClient} {proxies : Proxies}

theorem opens_carryOut (op : ProxyOp) :
    ∃ lower next, carryOut http op = .call lower next := by
  cases announcing : announced op with
  | none => exact ⟨_, _, carryOut_of_unannounced announcing⟩
  | some announcement =>
      rcases exists_backendCall announcing with ⟨call, rfl⟩
      cases call with
      | tool call =>
          rcases send_cases maxRedirects _ with ⟨next, opened, _⟩
          exact ⟨_, next, opened⟩
      | retrieval query =>
          rcases send_cases maxRedirects _ with ⟨next, opened, _⟩
          exact ⟨_, next, opened⟩

/-- What the ledger answers on the wire it answers the proxies. -/
theorem exists_respond_of_wire {client : Client} {choice : WireChoice}
    {op : ProxyOp} {store after : Store} {answer : op.Answer}
    (responded :
      (wireHost Client).respond client choice (.proxy op) store =
        some (answer, after)) :
    ∃ choice', store.respond choice' op = some (answer, after) := by
  cases choice with
  | proxy choice => exact ⟨choice, responded⟩
  | http reply => cases responded

/-- A request on the wire leaves the ledger as it is. -/
theorem store_of_http {client : Client} {choice : WireChoice}
    {call : BackendCall} {request : HttpRequest} {store after : Store}
    {answer : Except String HttpAnswer}
    (responded :
      (wireHost Client).respond client choice (.http call request) store =
        some (answer, after)) :
    after = store := by
  cases choice with
  | proxy choice => cases responded
  | http reply =>
      cases responded
      rfl

/-- The wire carries out every call of the proxies, and answers it. -/
theorem simulates_wire [DecidableEq Client] :
    Simulates (carryOut http) (proxyHost Client) (wireHost Client)
      fun _ store store' => store = store' where
  opens := opens_carryOut
  goesOn := by
    intro exchanges store _ client op events lower left choice answer after
      same under leaves responded unfinished
    subst same
    cases announcing : announced op with
    | none =>
        rw [carryOut_of_unannounced announcing] at leaves
        cases leaves with
        | stop => cases unfinished
        | call answer rest => cases rest
    | some announcement =>
        rcases exists_backendCall announcing with ⟨call, rfl⟩
        rcases leaves_carryOut leaves with ⟨_, request, rfl, _⟩
        exact store_of_http responded
  returns := by
    intro exchanges store _ client op events lower choice answer after value
      same under responded ran
    subst same
    cases announcing : announced op with
    | none =>
        rw [carryOut_of_unannounced announcing] at ran
        rcases Program.executes_call_iff.mp ran with ⟨_, rest, whole, done⟩
        rcases Program.executes_done_iff.mp done with ⟨rfl, same⟩
        cases same
        rcases List.append_eq_singleton_iff.mp whole with
          ⟨_, last⟩ | ⟨_, absurdity⟩
        · cases last
          rcases exists_respond_of_wire responded with ⟨choice', answered⟩
          exact ⟨choice', after, answered, rfl⟩
        · cases absurdity
    | some announcement =>
        rcases exists_backendCall announcing with ⟨call, rfl⟩
        cases call with
        | tool call =>
            rcases executes_send ran with ⟨_, request, last, whole, _⟩
            cases (List.append_inj' whole rfl).2
            exact
              ⟨.respond value, store, rfl, store_of_http responded⟩
        | retrieval query =>
            rcases executes_send ran with ⟨_, request, last, whole, _⟩
            cases (List.append_inj' whole rfl).2
            exact
              ⟨.respond value, store, rfl, store_of_http responded⟩
  departs := by
    intro exchanges store _ client same leaves
    subst same
    exact ⟨store, .leave store, rfl⟩

end Runs

end Trackward.Gateway.Redirects
