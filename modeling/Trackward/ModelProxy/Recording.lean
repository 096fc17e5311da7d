import Trackward.Lib.Programs
import Trackward.ModelProxy.RecursionLimits

/-!
# What the model proxy records

After it has forwarded an exchange, the proxy posts one event about the request
and one about the response.  An event holds a handful of members of the body,
so it tells nothing about the others, and a body that is no object has no
members to be asked for: the proxy stops recording there.  A member that nests
too deep for `to_safe` costs its event.

A recorded member that is null may have been left out, so an auditor reads an
event back without its nulls.
-/

namespace Trackward.ModelProxy.Recording

open Trackward.Lib.Octets
open Trackward.Lib.Programs
open Trackward.ModelProxy.Coercion
open Trackward.ModelProxy.PythonValue
open Trackward.ModelProxy.RecursionLimits
open Trackward.ModelProxy.ToSafe

/-! ## Exchanges -/

/-- What the request to the upstream came to. -/
inductive Upstream where
  | answered (status : Int) (body : Bytes)
  | httpError (code : Int) (body : Bytes)
  | failed (text : PyStr)

/-- A request to the proxy, and what the upstream made of it. -/
structure Exchange where
  command : PyStr
  path : PyStr
  requestBody : Bytes
  upstream : Upstream

/-- The key of a member. -/
abbrev key (name : String) : PyStr :=
  ofString name

section Proxy

variable (interpreter : Interpreter)

/-- The status and the body that are sent back. -/
def received : Upstream → Int × Bytes
  | .answered status body => (status, body)
  | .httpError code body => (code, body)
  | .failed text =>
      (502,
        utf8
          (.ofList
            (dumps interpreter.printing
              (.dict [(key "error", .str (key "upstream: " ++ text))]))))

/-- The JSON value of a body, if it is one. -/
def jsonOf (body : Bytes) : Option PyValue :=
  if body.isEmpty then none else interpreter.json body

/-- A body as the proxy reads it: as JSON, or else its length. -/
def bodyValue (body : Bytes) : PyValue :=
  if body.isEmpty then .dict []
  else
    match interpreter.loads body with
    | some value => value
    | none => .dict [(key "_raw_bytes", .int body.length)]

/-! ## Events -/

/-- `value.get(name)` -/
def get (value : PyValue) (name : PyStr) : Except PyError PyValue :=
  match value with
  | .dict entries => .ok ((entries.lookup name).getD .none)
  | _ => .error (.attribute (key "get"))

/-- The named members of a body. -/
def getAll (value : PyValue) : List String → Except PyError (List Entry)
  | [] => .ok []
  | name :: names => do
      let member ← get value (key name)
      let members ← getAll value names
      return (key name, member) :: members

/-- The members of a request that are recorded. -/
def requestNames : List String :=
  ["model", "messages", "tools", "system", "max_tokens", "temperature"]

/-- The members of a response that are recorded. -/
def responseNames : List String :=
  ["id", "stop_reason", "content", "usage", "choices"]

/-- The body of a `model_request` event. -/
def requestEvent (exchange : Exchange) (body : PyValue) :
    Except PyError (List Entry) := do
  let members ← getAll body requestNames
  return (key "method", .str exchange.command) ::
    (key "path", .str exchange.path) :: members

/-- The body of a `model_response` event. -/
def responseEvent (exchange : Exchange) (body : PyValue) :
    Except PyError (List Entry) := do
  let members ← getAll body responseNames
  return (key "status", .int (received interpreter exchange.upstream).1) ::
    members

/-! ## Posting -/

/-- Where a post goes: to the runs, or to the events of one. -/
inductive Route where
  | runs
  | events (runId : PyValue)

/-- A post to the ledger, with its coerced body. -/
structure Post where
  route : Route
  body : PyValue

/-- The ledger: a post is answered with JSON, or an exception is raised. -/
abbrev ledgerApi : Interface where
  Op := Post
  Answer := fun _ => Except PyError PyValue

def liftPy {α : Type} : Except PyError α → Program ledgerApi PyError α
  | .ok value => .done value
  | .error error => .raise error

/-- Send a post and wait for its answer. -/
def send (post : Post) : Program ledgerApi PyError PyValue :=
  .call post fun answer =>
    match answer with
    | .ok reply => .done reply
    | .error error => .raise error

/-- `_ledger_post` -/
def ledgerPost (route : Route) (body : PyValue) :
    Program ledgerApi PyError PyValue := do
  let safe ← liftPy (interpreter.encode body)
  send ⟨route, safe⟩

/-- `reply["id"]` -/
def idOf (reply : PyValue) : Except PyError PyValue :=
  match reply with
  | .dict entries =>
      match entries.lookup (key "id") with
      | some id => .ok id
      | none => .error (.key (key "id"))
  | _ => .error (.raised (key "not subscriptable"))

/-- The body of the post of a run. -/
def runBody (metadata : List Entry) : PyValue :=
  .dict
    [(key "agent", .str (key "model-proxy")),
      (key "metadata", .dict metadata)]

/-- `ensure_run`; `known` is the run of an earlier exchange. -/
def ensureRun (known : Option PyValue) (metadata : List Entry) :
    Program ledgerApi PyError PyValue :=
  match known with
  | some run => .done run
  | none => do
      let reply ← ledgerPost interpreter .runs (runBody metadata)
      liftPy (idOf reply)

/-- An exception is dropped unless the proxy is to fail loud. -/
def bestEffort (failLoud : Bool) :
    Program ledgerApi PyError Unit → Program ledgerApi PyError Unit
  | .done value => .done value
  | .raise error => if failLoud then .raise error else .done ()
  | .call post next =>
      .call post fun answer => bestEffort failLoud (next answer)

/-- The body of a post of an event. -/
def eventBody (kind : String) (members : List Entry) : PyValue :=
  .dict [(key "kind", .str (key kind)), (key "body", .dict members)]

/-- `post_event` -/
def postEvent (failLoud : Bool) (run : PyValue) (kind : String)
    (members : List Entry) : Program ledgerApi PyError Unit :=
  bestEffort failLoud do
    let _ ← ledgerPost interpreter (.events run) (eventBody kind members)
    return ()

/-- What `_proxy` does between the upstream's answer and its own. -/
def record (failLoud : Bool) (upstreamBase : PyStr) (known : Option PyValue)
    (exchange : Exchange) : Program ledgerApi PyError Unit :=
  bestEffort failLoud do
    let run ←
      ensureRun interpreter known
        [(key "upstream", .str upstreamBase),
          (key "first_path", .str exchange.path)]
    let request ←
      liftPy
        (requestEvent exchange (bodyValue interpreter exchange.requestBody))
    postEvent interpreter failLoud run "model_request" request
    let response ←
      liftPy
        (responseEvent interpreter exchange
          (bodyValue interpreter (received interpreter exchange.upstream).2))
    postEvent interpreter failLoud run "model_response" response

end Proxy

/-! ## What an event tells -/

/-- The same JSON value: the order of the members does not matter. -/
inductive SameJson : PyValue → PyValue → Prop where
  | none : SameJson .none .none
  | bool (value : Bool) : SameJson (.bool value) (.bool value)
  | int (value : Int) : SameJson (.int value) (.int value)
  | float (value : PyFloat) : SameJson (.float value) (.float value)
  | str (text : PyStr) : SameJson (.str text) (.str text)
  | list {items items' : List PyValue}
      (same : List.Forall₂ SameJson items items') :
      SameJson (.list items) (.list items')
  | dict {entries reordered entries' : List Entry}
      (order : entries.Perm reordered)
      (keys : reordered.map Prod.fst = entries'.map Prod.fst)
      (values :
        List.Forall₂ SameJson (reordered.map Prod.snd)
          (entries'.map Prod.snd)) :
      SameJson (.dict entries) (.dict entries')

/-- The ledger accepts every post, and tells the id of a run it has made. -/
def Accepts (events : List (Program.Event ledgerApi)) : Prop :=
  ∀ event ∈ events, ∃ reply,
    event.answer = .ok reply ∧
      (event.op.route = .runs → ∃ id, idOf reply = .ok id)

/-- The events that were posted, with their runs. -/
def posted (events : List (Program.Event ledgerApi)) :
    List (PyValue × PyValue) :=
  events.filterMap fun event =>
    match event.op.route with
    | .runs => none
    | .events runId => some (runId, event.op.body)

/-- The events the proxy is to post about an exchange. -/
def eventBodies (printing : Printing) (request response : List Entry) :
    List PyValue :=
  [toSafe printing (eventBody "model_request" request),
    toSafe printing (eventBody "model_response" response)]

section Events

variable (interpreter : Interpreter)
variable (failLoud : Bool) (upstreamBase : PyStr) (known : Option PyValue)
variable (exchange : Exchange)

/-- If the ledger accepts, one event about each side is appended to the run. -/
def AppendsBoth : Prop :=
  ∀ events outcome,
    (record interpreter failLoud upstreamBase known exchange).Executes events
        outcome →
      Accepts events →
        ∃ run request response,
          requestEvent exchange
              (bodyValue interpreter exchange.requestBody) =
              .ok request ∧
            responseEvent interpreter exchange
                (bodyValue interpreter
                  (received interpreter exchange.upstream).2) =
              .ok response ∧
              posted events =
                (eventBodies interpreter.printing request response).map
                  fun body => (run, body)

/-- The coerced value can be recovered from the event that is posted. -/
def Recovered (recover : PyValue → PyValue) (kind : String)
    (event : Except PyError (List Entry)) (value : PyValue) : Prop :=
  ∃ members,
    event = .ok members ∧
      SameJson
        (recover (toSafe interpreter.printing (eventBody kind members)))
        (toSafe interpreter.printing value)

/--
The exchange is mirrored: both events are there, and the bodies can be
recovered from them.
-/
structure Mirrors (recover recover' : PyValue → PyValue) : Prop where
  appends : AppendsBoth interpreter failLoud upstreamBase known exchange
  request :
    ∀ value, jsonOf interpreter exchange.requestBody = some value →
      Recovered interpreter recover "model_request"
        (requestEvent exchange (bodyValue interpreter exchange.requestBody))
        value
  response :
    ∀ value,
      jsonOf interpreter (received interpreter exchange.upstream).2 =
          some value →
        Recovered interpreter recover' "model_response"
          (responseEvent interpreter exchange
            (bodyValue interpreter
              (received interpreter exchange.upstream).2))
          value

end Events

/-- The members of an object, none of them in anything else. -/
def membersOf : PyValue → List Entry
  | .dict entries => entries
  | _ => []

/-- The value is null. -/
def isNone : PyValue → Bool
  | .none => true
  | _ => false

/-- The named members of the body of an event, without those that are null. -/
def readBack (names : List String) (event : PyValue) : PyValue :=
  .dict
    ((membersOf (((membersOf event).lookup (key "body")).getD .none)).filter
      fun entry =>
        entry.1 ∈ names.map key && !isNone entry.2)

/-! ## Members that are recorded -/

section Members

/-- What is recorded of the members of an object. -/
def asked (names : List String) (entries : List Entry) : List Entry :=
  names.map fun name => (key name, (entries.lookup (key name)).getD .none)

/-- The recorded members that are read back. -/
def kept (printing : Printing) (names : List String)
    (entries : List Entry) : List Entry :=
  ((asked names entries).map (toSafeEntry printing)).filter fun entry =>
    !isNone entry.2

/-- An object without nulls, all of whose members are recorded. -/
structure Recorded (names : List String) (entries : List Entry) : Prop where
  distinct : (entries.map Prod.fst).Nodup
  named : ∀ entry ∈ entries, entry.1 ∈ names.map key
  present : ∀ entry ∈ entries, isNone entry.2 = false

theorem SameJson.refl (value : PyValue) : SameJson value value := by
  induction value using PyValue.nesting_induction with
  | none => exact .none
  | bool value => exact .bool value
  | int value => exact .int value
  | float value => exact .float value
  | str text => exact .str text
  | list items induction => exact .list (List.forall₂_same.mpr induction)
  | dict entries induction =>
      exact
        .dict .rfl rfl
          (List.forall₂_same.mpr (List.forall_mem_map.mpr induction))

theorem keys_perm_of_sameJson {entries entries' : List Entry}
    (same : SameJson (.dict entries) (.dict entries')) :
    (entries.map Prod.fst).Perm (entries'.map Prod.fst) := by
  cases same with
  | dict order keys _ =>
      rw [← keys]
      exact order.map _

theorem getAll_dict (names : List String) (entries : List Entry) :
    getAll (.dict entries) names = .ok (asked names entries) := by
  induction names with
  | nil => rfl
  | cons name names induction =>
      rw [getAll, induction]
      rfl

variable (printing : Printing)

theorem isNone_toSafe (value : PyValue) :
    isNone (toSafe printing value) = isNone value := by
  cases value with
  | float value =>
      rcases toSafe_float printing value with ⟨whole, _, same⟩ | ⟨_, same⟩
      · rw [same]
        rfl
      · rw [same]
        rfl
  | none | bool | int | str | list | dict => rfl

theorem fst_toSafeEntry (entries : List Entry) :
    (entries.map (toSafeEntry printing)).map Prod.fst =
      entries.map Prod.fst := by
  rw [List.map_map]
  rfl

theorem fst_asked (names : List String) (entries : List Entry) :
    (asked names entries).map Prod.fst = names.map key := by
  rw [asked, List.map_map]
  rfl

/-- The members that are read back have different names. -/
theorem nodup_kept {names : List String} (distinct : (names.map key).Nodup)
    (entries : List Entry) :
    ((kept printing names entries).map Prod.fst).Nodup := by
  have smaller :
      ((kept printing names entries).map Prod.fst).Sublist
        (((asked names entries).map (toSafeEntry printing)).map Prod.fst) :=
    List.filter_sublist.map Prod.fst
  rw [fst_toSafeEntry, fst_asked] at smaller
  exact smaller.nodup distinct

theorem mem_kept_iff {names : List String} {entries : List Entry}
    {entry : Entry} :
    entry ∈ kept printing names entries ↔
      entry.1 ∈ names.map key ∧ isNone entry.2 = false ∧
        entry.2 =
          toSafe printing ((entries.lookup entry.1).getD .none) := by
  rcases entry with ⟨name, value⟩
  simp only [kept, asked, List.mem_filter, List.mem_map, toSafeEntry,
    Bool.not_eq_true', Prod.mk.injEq]
  constructor
  · rintro ⟨⟨_, ⟨known, member, rfl⟩, rfl, rfl⟩, present⟩
    exact ⟨⟨known, member, rfl⟩, present, rfl⟩
  · rintro ⟨⟨known, member, rfl⟩, present, rfl⟩
    exact ⟨⟨_, ⟨known, member, rfl⟩, rfl, rfl⟩, present⟩

/-- A member of an object is found under its name. -/
theorem lookup_of_mem {entries : List Entry}
    (distinct : (entries.map Prod.fst).Nodup) {entry : Entry}
    (member : entry ∈ entries) :
    entries.lookup entry.1 = some entry.2 := by
  rcases List.append_of_mem member with ⟨before, after, rfl⟩
  refine List.lookup_eq_some_iff.mpr ⟨before, after, rfl, ?_⟩
  intro other earlier
  rw [List.map_append, List.map_cons, List.nodup_middle] at distinct
  have different : entry.1 ≠ other.1 := by
    intro same
    apply (List.nodup_cons.mp distinct).1
    rw [same]
    exact List.mem_append_left _ (List.mem_map_of_mem earlier)
  simpa using different

/-- The object is read back exactly if all of it is recorded. -/
theorem sameJson_kept_iff {names : List String}
    (distinct : (names.map key).Nodup) {entries : List Entry} :
    SameJson (.dict (kept printing names entries))
        (toSafe printing (.dict entries)) ↔
      Recorded names entries := by
  rw [toSafe_dict]
  constructor
  · intro same
    have keys := keys_perm_of_sameJson same
    rw [fst_toSafeEntry] at keys
    have apart := keys.nodup_iff.mp (nodup_kept printing distinct entries)
    have listed {entry : Entry} (member : entry ∈ entries) :
        ∃ value, (entry.1, value) ∈ kept printing names entries := by
      have inside := keys.mem_iff.mpr (List.mem_map_of_mem member)
      rcases List.mem_map.mp inside with ⟨other, found, same⟩
      exact ⟨other.2, by rwa [← same]⟩
    refine ⟨apart, fun entry member => ?_, fun entry member => ?_⟩
    · rcases listed member with ⟨value, found⟩
      exact ((mem_kept_iff printing).mp found).1
    · rcases listed member with ⟨value, found⟩
      rcases (mem_kept_iff printing).mp found with ⟨_, present, tells⟩
      rwa [tells, lookup_of_mem apart member, isNone_toSafe] at present
  · intro recorded
    have order :
        (kept printing names entries).Perm
          (entries.map (toSafeEntry printing)) := by
      rw [List.perm_ext_iff_of_nodup
        (nodup_kept printing distinct entries).of_map
        (by
          have apart := recorded.distinct
          rw [← fst_toSafeEntry printing] at apart
          exact apart.of_map)]
      intro entry
      rw [mem_kept_iff]
      constructor
      · rintro ⟨named, present, tells⟩
        cases found : entries.lookup entry.1 with
        | none =>
            rw [found] at tells
            rw [tells, isNone_toSafe] at present
            cases present
        | some value =>
            rcases List.lookup_eq_some_iff.mp found with
              ⟨before, after, rfl, _⟩
            rw [found] at tells
            exact
              List.mem_map.mpr
                ⟨(entry.1, value),
                  List.mem_append_right _ List.mem_cons_self,
                  Prod.ext rfl tells.symm⟩
      · intro inside
        rcases List.mem_map.mp inside with ⟨entry, member, rfl⟩
        refine ⟨recorded.named entry member, ?_, ?_⟩
        · rw [toSafeEntry, isNone_toSafe]
          exact recorded.present entry member
        · rw [toSafeEntry, lookup_of_mem recorded.distinct member]
          rfl
    exact
      .dict order rfl (List.forall₂_same.mpr fun value _ => .refl value)

end Members

/-! ## What is read back from an event -/

section ReadBack

variable {interpreter : Interpreter} {exchange : Exchange}

/-- Reading an event back gives the members that are kept. -/
theorem readBack_eventBody (printing : Printing) {names : List String}
    {kind : String} {extra : List Entry}
    (apart : ∀ entry ∈ extra, entry.1 ∉ names.map key)
    (entries : List Entry) :
    readBack names
        (toSafe printing
          (eventBody kind (extra ++ asked names entries))) =
      .dict (kept printing names entries) := by
  have other : (key "body" == key "kind") = false := by decide
  have body :
      membersOf
          (((membersOf
              (toSafe printing
                (eventBody kind (extra ++ asked names entries)))).lookup
            (key "body")).getD .none) =
        extra.map (toSafeEntry printing) ++
          (asked names entries).map (toSafeEntry printing) := by
    rw [eventBody, toSafe_dict, membersOf, List.map_cons, List.map_cons,
      toSafeEntry, toSafeEntry, List.lookup_cons, other, List.lookup_cons,
      beq_self_eq_true, toSafe_dict, List.map_append]
    rfl
  rw [readBack, body, List.filter_append]
  congr 1
  have dropped :
      (extra.map (toSafeEntry printing)).filter
          (fun entry =>
            decide (entry.1 ∈ names.map key) && !isNone entry.2) =
        [] := by
    rw [List.filter_eq_nil_iff]
    intro entry member
    rcases List.mem_map.mp member with ⟨before, inside, rfl⟩
    have outside := apart before inside
    simp [toSafeEntry, outside]
  rw [dropped, List.nil_append, kept]
  apply List.filter_congr
  intro entry member
  have named : entry.1 ∈ names.map key := by
    have inside := List.mem_map_of_mem (f := Prod.fst) member
    rwa [fst_toSafeEntry, fst_asked] at inside
  rw [decide_eq_true named, Bool.true_and]

theorem requestEvent_dict (entries : List Entry) :
    requestEvent exchange (.dict entries) =
      .ok
        ([(key "method", .str exchange.command),
            (key "path", .str exchange.path)] ++
          asked requestNames entries) := by
  rw [requestEvent, getAll_dict]
  rfl

theorem responseEvent_dict (entries : List Entry) :
    responseEvent interpreter exchange (.dict entries) =
      .ok
        ([(key "status",
            .int (received interpreter exchange.upstream).1)] ++
          asked responseNames entries) := by
  rw [responseEvent, getAll_dict]
  rfl

end ReadBack

/-! ## Executions that the ledger accepts -/

section Executions

variable {interpreter : Interpreter} {failLoud : Bool}
variable {upstreamBase : PyStr} {known : Option PyValue}
variable {exchange : Exchange}
variable {events : List (Program.Event ledgerApi)}

theorem accepts_append {first second : List (Program.Event ledgerApi)}
    (accepts : Accepts (first ++ second)) :
    Accepts first ∧ Accepts second :=
  List.forall_mem_append.mp accepts

theorem posted_append (first second : List (Program.Event ledgerApi)) :
    posted (first ++ second) = posted first ++ posted second :=
  List.filterMap_append

/-- A program whose exceptions may be dropped goes on where it succeeds. -/
theorem executes_bestEffort {program : Program ledgerApi PyError Unit}
    {outcome : Except PyError Unit}
    (ran : (bestEffort failLoud program).Executes events outcome) :
    ∃ outcome',
      program.Executes events outcome' ∧
        (outcome' = .ok () → outcome = .ok ()) := by
  induction program generalizing events with
  | done value => exact ⟨_, ran, id⟩
  | raise error =>
      rw [bestEffort] at ran
      split at ran
      · exact ⟨_, ran, id⟩
      · rcases Program.executes_done_iff.mp ran with ⟨rfl, rfl⟩
        exact ⟨_, .raise error, fun _ => rfl⟩
  | call post next induction =>
      rcases Program.executes_call_iff.mp ran with
        ⟨answer, rest, rfl, continued⟩
      rcases induction answer continued with ⟨outcome', ran', succeeds⟩
      exact ⟨outcome', .call answer ran', succeeds⟩

theorem executes_liftPy_bind {α β : Type} {value : α}
    {next : α → Program ledgerApi PyError β} {outcome : Except PyError β}
    {result : Except PyError α} (isOk : result = .ok value)
    (ran : (liftPy result >>= next).Executes events outcome) :
    (next value).Executes events outcome := by
  rw [isOk] at ran
  exact ran

/-- What is encoded is posted and answered; nothing else is posted. -/
theorem executes_ledgerPost {route : Route} {body : PyValue}
    {outcome : Except PyError PyValue}
    (ran : (ledgerPost interpreter route body).Executes events outcome)
    (accepts : Accepts events) :
    (∃ safe reply,
        interpreter.encode body = .ok safe ∧
          events = [⟨⟨route, safe⟩, .ok reply⟩] ∧ outcome = .ok reply) ∨
      (∀ safe, interpreter.encode body ≠ .ok safe) ∧ events = [] := by
  unfold ledgerPost at ran
  cases encoded : interpreter.encode body with
  | error error =>
      rw [encoded] at ran
      rcases Program.executes_raise_iff.mp ran with ⟨rfl, _⟩
      exact Or.inr ⟨fun _ absurdity => (by cases absurdity), rfl⟩
  | ok safe =>
      rw [encoded] at ran
      rcases Program.executes_call_iff.mp ran with
        ⟨answer, rest, rfl, continued⟩
      rcases accepts _ List.mem_cons_self with ⟨reply, isReply, _⟩
      cases isReply
      rcases Program.executes_done_iff.mp continued with ⟨rfl, rfl⟩
      exact Or.inl ⟨safe, reply, rfl, rfl, rfl⟩

/-- The run is known or made, and no event is posted for it. -/
theorem executes_ensureRun {metadata : List Entry}
    {outcome : Except PyError PyValue}
    (fits : ∀ member ∈ metadata, interpreter.Fits member.2)
    (ran : (ensureRun interpreter known metadata).Executes events outcome)
    (accepts : Accepts events) :
    posted events = [] ∧ ∃ run, outcome = .ok run := by
  cases known with
  | some run =>
      rcases Program.executes_done_iff.mp ran with ⟨rfl, rfl⟩
      exact ⟨rfl, run, rfl⟩
  | none =>
      have encodes : ∃ safe, interpreter.encode (runBody metadata) = .ok safe :=
        Interpreter.exists_encode_nested_iff.mpr fits
      rcases Program.executes_bind_iff.mp ran with
        ⟨error, failed, _⟩ | ⟨reply, before, after, rfl, ran, continued⟩
      · rcases executes_ledgerPost failed accepts with
          ⟨_, _, _, _, absurdity⟩ | ⟨misfits, _⟩
        · cases absurdity
        · rcases encodes with ⟨safe, encoded⟩
          exact absurd encoded (misfits safe)
      · rcases accepts_append accepts with ⟨first, _⟩
        rcases executes_ledgerPost ran first with
          ⟨safe, reply', _, rfl, same⟩ | ⟨misfits, _⟩
        · cases same
          rcases first _ List.mem_cons_self with ⟨_, isReply, tells⟩
          rcases tells rfl with ⟨id, isId⟩
          cases isReply
          rw [isId] at continued
          rcases Program.executes_done_iff.mp continued with ⟨rfl, rfl⟩
          exact ⟨rfl, id, rfl⟩
        · rcases encodes with ⟨safe, encoded⟩
          exact absurd encoded (misfits safe)

/-- An event is posted exactly if it is encoded. -/
theorem executes_postEvent {run : PyValue} {members : List Entry}
    {kind : String} {outcome : Except PyError Unit}
    (ran :
      (postEvent interpreter failLoud run kind members).Executes events
        outcome)
    (accepts : Accepts events) :
    (∃ safe,
        interpreter.encode (eventBody kind members) = .ok safe ∧
          posted events = [(run, safe)] ∧ outcome = .ok ()) ∨
      (∀ safe, interpreter.encode (eventBody kind members) ≠ .ok safe) ∧
        posted events = [] := by
  rcases executes_bestEffort ran with ⟨outcome', ran', succeeds⟩
  rcases Program.executes_bind_iff.mp ran' with
    ⟨error, failed, _⟩ | ⟨reply, before, after, rfl, sent, continued⟩
  · rcases executes_ledgerPost failed accepts with
      ⟨_, _, _, _, absurdity⟩ | ⟨misfits, rfl⟩
    · cases absurdity
    · exact Or.inr ⟨misfits, rfl⟩
  · rcases Program.executes_done_iff.mp continued with ⟨rfl, rfl⟩
    rw [List.append_nil] at accepts ⊢
    rcases executes_ledgerPost sent accepts with
      ⟨safe, _, encoded, rfl, _⟩ | ⟨misfits, rfl⟩
    · exact Or.inl ⟨safe, encoded, rfl, succeeds rfl⟩
    · exact Or.inr ⟨misfits, rfl⟩

/-- Some ledger accepts. -/
theorem exists_accepted (program : Program ledgerApi PyError Unit) :
    ∃ events outcome, program.Executes events outcome ∧ Accepts events := by
  rcases
      Program.exists_executes
        (fun _ =>
          (Except.ok (.dict [(key "id", .str (key "1"))]) :
            Except PyError PyValue))
        program with
    ⟨events, outcome, ran, answered⟩
  refine ⟨events, outcome, ran, fun event member => ?_⟩
  exact ⟨_, answered event member, fun _ => ⟨.str (key "1"), rfl⟩⟩

end Executions

/-! ## When an exchange is mirrored -/

section Mirrors

variable (interpreter : Interpreter)

/-- What `json.loads` makes of a body, if it gets through. -/
def readOf (body : Bytes) : Option PyValue :=
  if body.isEmpty then none else interpreter.loads body

/-- An object whose recorded members are flat enough. -/
def Postable (names : List String) (value : PyValue) : Prop :=
  ∃ entries,
    value = .dict entries ∧
      ∀ name ∈ names,
        interpreter.Fits ((entries.lookup (key name)).getD .none)

/--
A value that `json.loads` gets through, and that is an object without nulls,
all of whose members are recorded and flat enough.
-/
def Mirrorable (names : List String) (value : PyValue) : Prop :=
  interpreter.parses value = true ∧
    ∃ entries,
      value = .dict entries ∧ Recorded names entries ∧
        ∀ entry ∈ entries, interpreter.Fits entry.2

variable {interpreter}

/-- A body that is not read as JSON has no member that is recorded. -/
theorem bodyValue_of_none {body : Bytes}
    (unread : readOf interpreter body = none) :
    ∃ entries,
      bodyValue interpreter body = .dict entries ∧
        ∀ name, key name ≠ key "_raw_bytes" →
          entries.lookup (key name) = none := by
  unfold readOf at unread
  unfold bodyValue
  split at unread
  · rename_i empty
    rw [if_pos empty]
    exact ⟨[], rfl, fun _ _ => rfl⟩
  · rename_i nonempty
    rw [if_neg nonempty, unread]
    refine ⟨_, rfl, fun name other => ?_⟩
    rw [List.lookup_cons, beq_eq_false_iff_ne.mpr other]
    rfl

theorem bodyValue_of_some {body : Bytes} {value : PyValue}
    (read : readOf interpreter body = some value) :
    bodyValue interpreter body = value := by
  unfold readOf at read
  unfold bodyValue
  split at read
  · cases read
  · rename_i nonempty
    rw [if_neg nonempty, read]

theorem postable_bodyValue_iff {names : List String}
    (others : ∀ name ∈ names, key name ≠ key "_raw_bytes") {body : Bytes} :
    Postable interpreter names (bodyValue interpreter body) ↔
      ∀ value, readOf interpreter body = some value →
        Postable interpreter names value := by
  cases read : readOf interpreter body with
  | some value =>
      rw [bodyValue_of_some read]
      constructor
      · rintro postable _ ⟨⟩
        exact postable
      · exact fun all => all value rfl
  | none =>
      refine ⟨fun _ _ absurdity => (by cases absurdity), fun _ => ?_⟩
      rcases bodyValue_of_none read with ⟨entries, same, absent⟩
      refine ⟨entries, same, fun name member => ?_⟩
      rw [absent name (others name member)]
      exact Interpreter.fits_flat rfl rfl

theorem others_requestNames :
    ∀ name ∈ requestNames, key name ≠ key "_raw_bytes" := by
  simp only [requestNames, List.forall_mem_cons]
  decide +kernel

theorem others_responseNames :
    ∀ name ∈ responseNames, key name ≠ key "_raw_bytes" := by
  simp only [responseNames, List.forall_mem_cons]
  decide +kernel

/-- An event is encoded exactly if what it records is flat enough. -/
theorem exists_encode_event_iff (kind : String) {extra : List Entry}
    (flat : ∀ entry ∈ extra, interpreter.Fits entry.2)
    {names : List String} {entries : List Entry} :
    (∃ safe,
        interpreter.encode
            (eventBody kind (extra ++ asked names entries)) =
          .ok safe) ↔
      ∀ name ∈ names,
        interpreter.Fits ((entries.lookup (key name)).getD .none) := by
  refine Interpreter.exists_encode_nested_iff.trans ?_
  rw [List.forall_mem_append]
  constructor
  · intro fits name member
    exact fits.2 _ (List.mem_map_of_mem member)
  · intro fits
    exact ⟨flat, List.forall_mem_map.mpr fits⟩

variable {failLoud : Bool} {upstreamBase : PyStr} {known : Option PyValue}
variable {exchange : Exchange}

/-- The body of the response that the proxy has received. -/
abbrev responseBody (interpreter : Interpreter) (exchange : Exchange) :
    Bytes :=
  (received interpreter exchange.upstream).2

theorem flat_request (exchange : Exchange) :
    ∀ entry ∈
        [(key "method", PyValue.str exchange.command),
          (key "path", .str exchange.path)],
      interpreter.Fits entry.2 := by
  rw [List.forall_mem_cons, List.forall_mem_singleton]
  exact ⟨Interpreter.fits_flat rfl rfl, Interpreter.fits_flat rfl rfl⟩

theorem flat_response (status : Int) :
    ∀ entry ∈ [(key "status", PyValue.int status)],
      interpreter.Fits entry.2 := by
  rw [List.forall_mem_singleton]
  exact Interpreter.fits_flat rfl rfl

/-- The events that the proxy posts are those that are encoded. -/
theorem posted_of_record {request response : List Entry}
    (requested :
      requestEvent exchange (bodyValue interpreter exchange.requestBody) =
        .ok request)
    (responded :
      responseEvent interpreter exchange
          (bodyValue interpreter (responseBody interpreter exchange)) =
        .ok response)
    {events : List (Program.Event ledgerApi)} {outcome : Except PyError Unit}
    (ran :
      (record interpreter failLoud upstreamBase known exchange).Executes
        events outcome)
    (accepts : Accepts events) :
    (∃ run safe safe',
        interpreter.encode (eventBody "model_request" request) = .ok safe ∧
          interpreter.encode (eventBody "model_response" response) =
              .ok safe' ∧
            posted events = [(run, safe), (run, safe')]) ∨
      ((∀ safe,
            interpreter.encode (eventBody "model_request" request) ≠
              .ok safe) ∨
          ∀ safe,
            interpreter.encode (eventBody "model_response" response) ≠
              .ok safe) ∧
        (posted events).length ≤ 1 := by
  have texts :
      ∀ member ∈
          [(key "upstream", PyValue.str upstreamBase),
            (key "first_path", .str exchange.path)],
        interpreter.Fits member.2 := by
    rw [List.forall_mem_cons, List.forall_mem_singleton]
    exact ⟨Interpreter.fits_flat rfl rfl, Interpreter.fits_flat rfl rfl⟩
  rcases executes_bestEffort ran with ⟨outcome', inner, _⟩
  rcases Program.executes_bind_iff.mp inner with
    ⟨error, failed, _⟩ | ⟨run, before, rest, rfl, ensured, continued⟩
  · rcases executes_ensureRun texts failed accepts with ⟨_, _, absurdity⟩
    cases absurdity
  rcases accepts_append accepts with ⟨first, later⟩
  rw [posted_append, (executes_ensureRun texts ensured first).1,
    List.nil_append]
  have asks := executes_liftPy_bind requested continued
  rcases Program.executes_bind_iff.mp asks with
    ⟨error, failed, _⟩ | ⟨_, one, two, rfl, posts, continued'⟩
  · rcases executes_postEvent failed later with
      ⟨_, _, _, absurdity⟩ | ⟨misfits, none⟩
    · cases absurdity
    · rw [none]
      exact Or.inr ⟨Or.inl misfits, Nat.zero_le 1⟩
  rcases accepts_append later with ⟨acceptsOne, acceptsTwo⟩
  have posts' := executes_liftPy_bind responded continued'
  rw [posted_append]
  rcases executes_postEvent posts acceptsOne with
    ⟨safe, encoded, once, _⟩ | ⟨misfits, none⟩
  · rcases executes_postEvent posts' acceptsTwo with
      ⟨safe', encoded', twice, _⟩ | ⟨misfits, none⟩
    · rw [once, twice]
      exact Or.inl ⟨run, safe, safe', encoded, encoded', rfl⟩
    · rw [once, none]
      exact Or.inr ⟨Or.inr misfits, Nat.le_refl 1⟩
  · rcases executes_postEvent posts' acceptsTwo with
      ⟨_, _, twice, _⟩ | ⟨_, none'⟩
    · rw [none, twice]
      exact Or.inr ⟨Or.inl misfits, Nat.le_refl 1⟩
    · rw [none, none']
      exact Or.inr ⟨Or.inl misfits, Nat.zero_le 1⟩

theorem exists_dict_of_requestEvent {value : PyValue}
    {request : List Entry}
    (requested : requestEvent exchange value = .ok request) :
    ∃ entries, value = .dict entries := by
  cases value with
  | dict entries => exact ⟨entries, rfl⟩
  | none | bool | int | float | str | list => cases requested

theorem exists_dict_of_responseEvent {value : PyValue}
    {response : List Entry}
    (responded : responseEvent interpreter exchange value = .ok response) :
    ∃ entries, value = .dict entries := by
  cases value with
  | dict entries => exact ⟨entries, rfl⟩
  | none | bool | int | float | str | list => cases responded

theorem appendsBoth_iff_postable :
    AppendsBoth interpreter failLoud upstreamBase known exchange ↔
      Postable interpreter requestNames
          (bodyValue interpreter exchange.requestBody) ∧
        Postable interpreter responseNames
          (bodyValue interpreter (responseBody interpreter exchange)) := by
  constructor
  · intro appends
    rcases
        exists_accepted
          (record interpreter failLoud upstreamBase known exchange) with
      ⟨events, outcome, ran, accepts⟩
    rcases appends events outcome ran accepts with
      ⟨run, request, response, requested, responded, both⟩
    rcases posted_of_record requested responded ran accepts with
      ⟨_, safe, safe', encoded, encoded', _⟩ | ⟨_, few⟩
    · rcases exists_dict_of_requestEvent requested with ⟨entries, isDict⟩
      rcases exists_dict_of_responseEvent responded with
        ⟨entries', isDict'⟩
      rw [isDict, requestEvent_dict] at requested
      rw [isDict', responseEvent_dict] at responded
      cases requested
      cases responded
      exact
        ⟨⟨entries, isDict,
            (exists_encode_event_iff _ (flat_request exchange)).mp
              ⟨safe, encoded⟩⟩,
          ⟨entries', isDict',
            (exists_encode_event_iff _ (flat_response _)).mp
              ⟨safe', encoded'⟩⟩⟩
    · rw [both, List.length_map] at few
      exact absurd few (Nat.not_succ_le_self 1)
  · rintro ⟨⟨entries, isDict, fits⟩, entries', isDict', fits'⟩ events outcome
      ran accepts
    have requested :=
      (congrArg (requestEvent exchange) isDict).trans
        (requestEvent_dict entries)
    have responded :=
      (congrArg (responseEvent interpreter exchange) isDict').trans
        (responseEvent_dict entries')
    have encodes :=
      (exists_encode_event_iff "model_request" (flat_request exchange)).mpr
        fits
    have encodes' :=
      (exists_encode_event_iff "model_response"
          (flat_response (received interpreter exchange.upstream).1)).mpr
        fits'
    rcases posted_of_record requested responded ran accepts with
      ⟨run, safe, safe', encoded, encoded', both⟩ | ⟨misfits | misfits, _⟩
    · refine ⟨run, _, _, requested, responded, ?_⟩
      rw [both, Interpreter.encode_eq_ok encoded,
        Interpreter.encode_eq_ok encoded']
      rfl
    · rcases encodes with ⟨safe, encoded⟩
      exact absurd encoded (misfits safe)
    · rcases encodes' with ⟨safe, encoded⟩
      exact absurd encoded (misfits safe)

/-- An object without nulls is empty if none of its members is recorded. -/
theorem kept_of_absent {names : List String} {entries : List Entry}
    (absent : ∀ name ∈ names, entries.lookup (key name) = none) :
    kept interpreter.printing names entries = [] := by
  rw [List.eq_nil_iff_forall_not_mem]
  intro entry member
  rcases (mem_kept_iff interpreter.printing).mp member with
    ⟨named, present, tells⟩
  rcases List.mem_map.mp named with ⟨name, listed, same⟩
  rw [← same, absent name listed] at tells
  rw [tells, isNone_toSafe] at present
  cases present

/-- Only the empty object is coerced to the empty object. -/
theorem eq_empty_of_sameJson {printing : Printing} {value : PyValue}
    (same : SameJson (.dict []) (toSafe printing value)) :
    value = .dict [] := by
  cases value with
  | dict entries =>
      rw [toSafe_dict] at same
      have keys := keys_perm_of_sameJson same
      rw [fst_toSafeEntry] at keys
      rw [List.map_eq_nil_iff.mp (List.nil_perm.mp keys)]
  | float value =>
      rcases toSafe_float printing value with ⟨whole, _, isInt⟩ | ⟨_, isStr⟩
      · rw [isInt] at same
        cases same
      · rw [isStr] at same
        cases same
  | none | bool | int | str | list => cases same

/-- Whether a JSON value is read is up to `json.loads`. -/
theorem readOf_of_jsonOf {body : Bytes} {value : PyValue}
    (isJson : jsonOf interpreter body = some value) :
    readOf interpreter body =
      if interpreter.parses value then some value else none := by
  unfold jsonOf at isJson
  unfold readOf
  split at isJson
  · cases isJson
  · rename_i nonempty
    rw [if_neg nonempty, Interpreter.loads, isJson, Option.filter_some]

theorem jsonOf_of_readOf {body : Bytes} {value : PyValue}
    (read : readOf interpreter body = some value) :
    jsonOf interpreter body = some value := by
  unfold readOf at read
  unfold jsonOf
  split at read
  · cases read
  · rename_i nonempty
    rw [if_neg nonempty]
    exact (Option.filter_eq_some_iff.mp read).1

/-- An event is posted about a mirrorable object. -/
theorem postable_of_mirrorable {names : List String} {value : PyValue}
    (mirrorable : Mirrorable interpreter names value) :
    Postable interpreter names value := by
  rcases mirrorable with ⟨_, entries, rfl, _, fits⟩
  refine ⟨entries, rfl, fun name _ => ?_⟩
  cases found : entries.lookup (key name) with
  | none => exact Interpreter.fits_flat rfl rfl
  | some value =>
      rcases List.lookup_eq_some_iff.mp found with ⟨before, after, rfl, _⟩
      exact fits (key name, value) (List.mem_append_right _ List.mem_cons_self)

/-- A JSON body is read back from its event exactly if all of it is there. -/
theorem recovered_iff_mirrorable {names : List String} {extra : List Entry}
    {event : PyValue → Except PyError (List Entry)} {kind : String}
    {body : Bytes} {value : PyValue}
    (distinct : (names.map key).Nodup)
    (others : ∀ name ∈ names, key name ≠ key "_raw_bytes")
    (apart : ∀ entry ∈ extra, entry.1 ∉ names.map key)
    (asks : ∀ entries,
      event (.dict entries) = .ok (extra ++ asked names entries))
    (postable : Postable interpreter names (bodyValue interpreter body))
    (isJson : jsonOf interpreter body = some value) :
    Recovered interpreter (readBack names) kind
        (event (bodyValue interpreter body)) value ↔
      Mirrorable interpreter names value := by
  rcases postable with ⟨entries, isDict, fits⟩
  have recovered :
      Recovered interpreter (readBack names) kind
          (event (bodyValue interpreter body)) value ↔
        SameJson (.dict (kept interpreter.printing names entries))
          (toSafe interpreter.printing value) := by
    rw [isDict, asks, Recovered]
    constructor
    · rintro ⟨_, ⟨⟩, same⟩
      rwa [readBack_eventBody interpreter.printing apart] at same
    · intro same
      refine ⟨_, rfl, ?_⟩
      rwa [readBack_eventBody interpreter.printing apart]
  rw [recovered]
  have read := readOf_of_jsonOf isJson
  cases parsed : interpreter.parses value with
  | true =>
      rw [if_pos parsed] at read
      rw [bodyValue_of_some read] at isDict
      subst isDict
      rw [sameJson_kept_iff interpreter.printing distinct]
      constructor
      · intro recorded
        refine ⟨parsed, entries, rfl, recorded, fun entry member => ?_⟩
        rcases List.mem_map.mp (recorded.named entry member) with
          ⟨name, listed, same⟩
        have flat := fits name listed
        rwa [same, lookup_of_mem recorded.distinct member] at flat
      · rintro ⟨_, _, ⟨⟩, recorded, _⟩
        exact recorded
  | false =>
      rw [if_neg (by rw [parsed]; exact Bool.false_ne_true)] at read
      rcases bodyValue_of_none read with ⟨members, same, absent⟩
      rw [isDict] at same
      cases same
      rw [kept_of_absent fun name listed => absent name (others name listed)]
      constructor
      · intro same
        rw [eq_empty_of_sameJson same, interpreter.parses_empty] at parsed
        cases parsed
      · rintro ⟨parsed', _⟩
        rw [parsed] at parsed'
        cases parsed'

theorem nodup_requestNames : (requestNames.map key).Nodup := by
  decide +kernel

theorem nodup_responseNames : (responseNames.map key).Nodup := by
  decide +kernel

theorem apart_request (exchange : Exchange) :
    ∀ entry ∈
        [(key "method", PyValue.str exchange.command),
          (key "path", .str exchange.path)],
      entry.1 ∉ requestNames.map key := by
  rw [List.forall_mem_cons, List.forall_mem_singleton]
  change
    key "method" ∉ requestNames.map key ∧ key "path" ∉ requestNames.map key
  decide +kernel

theorem apart_response (status : Int) :
    ∀ entry ∈ [(key "status", PyValue.int status)],
      entry.1 ∉ responseNames.map key := by
  rw [List.forall_mem_singleton]
  change key "status" ∉ responseNames.map key
  decide +kernel

end Mirrors

/-! ## Bodies that leave too little -/

/-- A request whose only member is none of those that are recorded. -/
def streamBody (stream : Bool) : Bytes :=
  if stream then utf8 "\x7b\"stream\":true\x7d"
  else utf8 "\x7b\"stream\":false\x7d"

/-- What three bodies stand for. -/
def fewBodies (body : Bytes) : Option PyValue :=
  if body = streamBody true then some (.dict [(key "stream", .bool true)])
  else if body = streamBody false then
    some (.dict [(key "stream", .bool false)])
  else if body = utf8 "[]" then some (.list [])
  else none

/-- An interpreter with the stack of a script. -/
def scripted : Interpreter where
  printing := plainPrinting
  json := fewBodies
  parses := fun _ => true
  frames := 980
  comprehension := 1
  encoder := 990
  parses_empty := rfl
  frames_suffice := by decide
  encoder_suffices := by decide

example :
    Mirrorable scripted requestNames
      (.dict [(key "model", .str (key "m")), (key "messages", .list [])]) :=
  ⟨rfl, _, rfl,
    ⟨by decide +kernel,
      by
        rw [List.forall_mem_cons, List.forall_mem_singleton]
        decide +kernel,
      by
        rw [List.forall_mem_cons, List.forall_mem_singleton]
        exact ⟨rfl, rfl⟩⟩,
    by
      rw [List.forall_mem_cons, List.forall_mem_singleton]
      exact ⟨⟨by decide, by decide⟩, ⟨by decide, by decide⟩⟩⟩

/-- The exchange of a body for a stream. -/
def streamed (body : Bytes) : Exchange where
  command := key "POST"
  path := key "/v1/messages"
  requestBody := body
  upstream := .answered 200 (utf8 "data: [DONE]")

theorem jsonOf_streamBody (stream : Bool) :
    jsonOf scripted (streamBody stream) =
      some (.dict [(key "stream", .bool stream)]) := by
  have apart : streamBody false ≠ streamBody true := by decide +kernel
  cases stream with
  | true =>
      rw [jsonOf, if_neg (by decide +kernel)]
      change fewBodies (streamBody true) = _
      rw [fewBodies, if_pos rfl]
  | false =>
      rw [jsonOf, if_neg (by decide +kernel)]
      change fewBodies (streamBody false) = _
      rw [fewBodies, if_neg apart, if_pos rfl]

/-- All that is JSON is read. -/
theorem bodyValue_scripted {body : Bytes} {value : PyValue}
    (isJson : jsonOf scripted body = some value) :
    bodyValue scripted body = value := by
  have read := readOf_of_jsonOf isJson
  rw [if_pos (by rfl)] at read
  exact bodyValue_of_some read

/-- The stream is not among the recorded members. -/
theorem requestEvent_streamed (stream : Bool) :
    requestEvent (streamed (streamBody stream))
        (bodyValue scripted (streamBody stream)) =
      .ok
        ([(key "method", .str (key "POST")),
            (key "path", .str (key "/v1/messages"))] ++
          asked requestNames []) := by
  rw [bodyValue_scripted (jsonOf_streamBody stream), requestEvent_dict]
  have unasked :
      asked requestNames [(key "stream", .bool stream)] =
        asked requestNames [] := by
    apply List.map_congr_left
    intro name member
    have other : key name ≠ key "stream" := by
      revert name
      simp only [requestNames, List.forall_mem_cons]
      decide +kernel
    rw [List.lookup_cons, beq_eq_false_iff_ne.mpr other]
  rw [unasked]
  rfl

theorem eq_of_sameJson_member {value : PyValue} {name : PyStr} {flag : Bool}
    (same : SameJson value (.dict [(name, .bool flag)])) :
    value = .dict [(name, .bool flag)] := by
  cases same with
  | @dict entries reordered _ order keys values =>
      rcases reordered with - | ⟨⟨name', value'⟩, - | ⟨_, _⟩⟩
      · cases keys
      · cases keys
        cases values with
        | cons first _ =>
            cases first
            rw [List.perm_singleton.mp order]
      · cases keys

end Trackward.ModelProxy.Recording
