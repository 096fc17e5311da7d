import Trackward.Gateway.Handlers
import Trackward.Lib.Logs

/-!
# The two proxies and the ledger they record to

`/retrieve` forwards a query to the retrieval backend, stores every document of
the answer as an artifact and records the query and its outcome, as the tool
proxy does for a call.

The host of this module answers both proxies.  The ledger accepts a write,
refuses it, or accepts it without the gateway learning of it; it numbers the
events of a run in the order it accepts them.  A call of a backend is answered
with anything, after whatever redirects its HTTP client has followed.
-/

namespace Trackward.Gateway.Retrieval

open Trackward.ChainCore.Encode
open Trackward.ChainCore.JsonValue
open Trackward.Gateway.Calls
open Trackward.Gateway.Handlers
open Trackward.Lib.Logs
open Trackward.Lib.Octets
open Trackward.Lib.Programs
open Trackward.Lib.Sessions

/-! ## Calls -/

/-- A document stored as an artifact of a run. -/
structure Upload where
  runId : Uuid
  label : String
  mediaType : String
  bytes : Bytes

/-- A query forwarded to the retrieval backend, with the run it is made in. -/
structure Query where
  runId : Uuid
  backendUrl : String
  input : Json

/-- What the proxies do besides computing. -/
inductive ProxyOp where
  | gateway (op : Op)
  | upload (upload : Upload)
  | search (query : Query)

/-- What each of these answers; an upload answers the id of the artifact. -/
def ProxyOp.Answer : ProxyOp → Type
  | .gateway op => op.Answer
  | .upload _ => Except String Uuid
  | .search _ => Except String BackendResponse

/-- The interface of the proxies. -/
def proxyInterface : Interface where
  Op := ProxyOp
  Answer := ProxyOp.Answer

/-- A handler of a proxy. -/
abbrev ProxyHandler (α : Type) := Program proxyInterface Error α

/-- A handler of the gateway as a handler of a proxy. -/
def lift {α : Type} (handler : Handler α) : ProxyHandler α :=
  handler.translate .gateway (fun _ answer => answer) id

/-- Record an event. -/
def record (runId : Uuid) (kind : String) (body : Json) :
    ProxyHandler EventResponse :=
  lift (ledger (.appendEvent runId kind body))

/-! ## The retrieval proxy -/

/-- The parts of the proxies that do not change while they run. -/
structure Proxies where
  service : Service
  retrievalBackend : Option String
  jsonToVec : Json → Bytes
  jsonError : Bytes → String

/-- The documents of a result, none if it has no array of them. -/
def docsOf (result : Json) : List Json :=
  ((result.get "docs").bind Json.asArray).getD []

/-- The label of a document: its id, or its place in the answer. -/
def labelOf (index : Nat) (doc : Json) : String :=
  ((doc.get "id").bind Json.asStr).getD ("doc-" ++ toString index)

/-- The artifact of a document. -/
def uploadOf (proxies : Proxies) (runId : Uuid) (index : Nat) (doc : Json) :
    Upload where
  runId := runId
  label := labelOf index doc
  mediaType := "application/json"
  bytes := proxies.jsonToVec doc

/-- Store the documents one after another, counting from an index. -/
def uploadDocs (proxies : Proxies) (runId : Uuid) :
    Nat → List Json → ProxyHandler (List Uuid)
  | _, [] => return []
  | index, doc :: docs =>
      .call (.upload (uploadOf proxies runId index doc)) fun answer =>
        match answer with
        | .error text => .raise (.ledger text)
        | .ok id => do
            let ids ← uploadDocs proxies runId (index + 1) docs
            return id :: ids

/-- A count of 64 bits. -/
def count (number : Nat) : Json where
  value :=
    .number (.integer (number % 2 ^ 64 : Nat) (by omega) (by omega))
  wellFormed := by simp [Value.WellFormed, Value.nested, Value.distinctKeys]

/-- Identifiers as an array of texts. -/
def idArray (ids : List Uuid) : Json where
  value := .array (ids.map fun id => .string (uuidText id))
  wellFormed := by
    rw [Value.wellFormed_array_iff]
    intro item member
    rcases List.mem_map.mp member with ⟨id, _, rfl⟩
    simp [Value.WellFormed, Value.nested, Value.distinctKeys]

/-- The body of the event that records documents. -/
def resultBody (docCount : Nat) (artifactIds : List Uuid) : Json :=
  .object
    [("doc_count", count docCount), ("artifact_ids", idArray artifactIds)]

/-- The body of the event that records a failed query. -/
def errorBody (proxies : Proxies) (status : UInt16) (body : Bytes) : Json :=
  .object
    [("status", .natural status),
      ("body", .string (proxies.service.runtime.fromUtf8Lossy body))]

/-- Forward a query and read the answer. -/
def search (query : Query) : ProxyHandler (UInt16 × Bytes) :=
  .call (.search query) fun answer =>
    match answer with
    | .error text => .raise (.backend text)
    | .ok ⟨_, .error text⟩ => .raise (.backend text)
    | .ok ⟨status, .ok body⟩ => .done (status, body)

/-- Store and record the documents of a successful answer. -/
def recordDocs (proxies : Proxies) (runId : Uuid) (status : UInt16)
    (body : Bytes) : ProxyHandler Response :=
  match proxies.service.runtime.jsonFromSlice body with
  | none =>
      .raise
        (.backend
          ("backend returned non-JSON: " ++ proxies.jsonError body))
  | some result => do
      let artifactIds ← uploadDocs proxies runId 0 (docsOf result)
      let _ ←
        record runId "retrieval_result"
          (resultBody (docsOf result).length artifactIds)
      return .proxied status runId body

/-- Proxy a retrieval query. -/
def retrieve (proxies : Proxies) (runIdHeader : Option String)
    (input : Json) : ProxyHandler Response :=
  match proxies.retrievalBackend with
  | none => .raise (.internal "no retrieval backend configured")
  | some backendUrl => do
      let (runId, _) ←
        lift (resolveOrMintRun proxies.service runIdHeader "retrieval_proxy")
      let _ ← record runId "retrieval_query" input
      let (status, body) ←
        search { runId := runId, backendUrl := backendUrl, input := input }
      if isSuccess status then recordDocs proxies runId status body
      else do
        let _ ←
          record runId "retrieval_error" (errorBody proxies status body)
        return .proxied status runId body

/-- A request to one of the proxies. -/
inductive ProxyRequest where
  | tool (tool : String) (runIdHeader : Option String) (input : Json)
  | retrieval (runIdHeader : Option String) (input : Json)

/-- The handler of a request. -/
def serveProxy (proxies : Proxies) : ProxyRequest → ProxyHandler Response
  | .tool tool runIdHeader input =>
      lift (proxy proxies.service tool runIdHeader input)
  | .retrieval runIdHeader input => retrieve proxies runIdHeader input

/-! ## The host -/

/-- An event of the ledger. -/
structure StoredEvent where
  runId : Uuid
  kind : String
  body : Json
  id : Uuid
  seq : Int64

/-- What the ledger has stored for the proxies, in order. -/
structure Store where
  events : List StoredEvent
  artifacts : List (Uuid × Upload)

/-- An event gets a number above those of its run. -/
def Store.numbers (store : Store) (runId : Uuid) (seq : Int64) : Bool :=
  store.events.all fun event => event.runId ≠ runId || event.seq < seq

/-- The ledger with one more write; it may fail to number an event. -/
def Store.write (store : Store) (id : Uuid) (seq : Int64) :
    LedgerCall → Option Store
  | .appendEvent runId kind body =>
      if store.numbers runId seq then
        some
          { store with
            events := store.events ++ [⟨runId, kind, body, id, seq⟩] }
      else none
  | _ => some store

/-- The answer to a call, if the environment's choice is one for it. -/
def Store.respond (store : Store) :
    Choice → (op : ProxyOp) → Option (op.Answer × Store)
  | .accept id seq, .gateway (.ledger call) =>
      (store.write id seq call).map fun after =>
        (.ok (.accepted id seq call), after)
  | .lose id seq text, .gateway (.ledger call) =>
      (store.write id seq call).map fun after => (.error text, after)
  | .refuse text, .gateway (.ledger _) => some (.error text, store)
  | .accept id _, .upload upload =>
      some
        (.ok id, { store with artifacts := store.artifacts ++ [(id, upload)] })
  | .lose id _ text, .upload upload =>
      some
        (.error text,
          { store with artifacts := store.artifacts ++ [(id, upload)] })
  | .refuse text, .upload _ => some (.error text, store)
  | .respond response, .gateway (.forward _) => some (response, store)
  | .respond response, .search _ => some (response, store)
  | _, _ => none

/-- The answers to calls, each with the store after it. -/
inductive Store.Responds (store : Store) :
    Choice → (op : ProxyOp) → op.Answer → Store → Prop where
  | accept (call : LedgerCall) (id : Uuid) (seq : Int64) (after : Store)
      (wrote : store.write id seq call = some after) :
      store.Responds (.accept id seq) (.gateway (.ledger call))
        (.ok (.accepted id seq call)) after
  | lose (call : LedgerCall) (id : Uuid) (seq : Int64) (text : String)
      (after : Store) (wrote : store.write id seq call = some after) :
      store.Responds (.lose id seq text) (.gateway (.ledger call))
        (.error text) after
  | refuse (call : LedgerCall) (text : String) :
      store.Responds (.refuse text) (.gateway (.ledger call)) (.error text)
        store
  | acceptUpload (upload : Upload) (id : Uuid) (seq : Int64) :
      store.Responds (.accept id seq) (.upload upload) (.ok id)
        { store with artifacts := store.artifacts ++ [(id, upload)] }
  | loseUpload (upload : Upload) (id : Uuid) (seq : Int64) (text : String) :
      store.Responds (.lose id seq text) (.upload upload) (.error text)
        { store with artifacts := store.artifacts ++ [(id, upload)] }
  | refuseUpload (upload : Upload) (text : String) :
      store.Responds (.refuse text) (.upload upload) (.error text) store
  | forward (call : ToolCall) (response : Except String BackendResponse) :
      store.Responds (.respond response) (.gateway (.forward call)) response
        store
  | search (query : Query) (response : Except String BackendResponse) :
      store.Responds (.respond response) (.search query) response store

theorem Store.responds_of_respond {store after : Store} {choice : Choice}
    {op : ProxyOp} {answer : op.Answer}
    (responded : store.respond choice op = some (answer, after)) :
    store.Responds choice op answer after := by
  unfold respond at responded
  split at responded
  case h_1 id seq call =>
      rcases Option.map_eq_some_iff.mp responded with ⟨target, wrote, same⟩
      cases same
      exact .accept call id seq after wrote
  case h_2 id seq text call =>
      rcases Option.map_eq_some_iff.mp responded with ⟨target, wrote, same⟩
      cases same
      exact .lose call id seq text after wrote
  case h_3 text call =>
      cases responded
      exact .refuse call text
  case h_4 id seq upload =>
      cases responded
      exact .acceptUpload upload id seq
  case h_5 id seq text upload =>
      cases responded
      exact .loseUpload upload id seq text
  case h_6 text upload =>
      cases responded
      exact .refuseUpload upload text
  case h_7 response call =>
      cases responded
      exact .forward call response
  case h_8 response query =>
      cases responded
      exact .search query response
  case h_9 => cases responded

/-- The ledger as the host of the proxies; who departs leaves it as it is. -/
def proxyHost (Client : Type) : Host proxyInterface Client Choice Store where
  respond := fun _ choice op store => store.respond choice op
  depart := fun _ store => store

/-- The log of a run of the proxies. -/
abbrev ProxyLog (Client : Type) :=
  List (Entry proxyInterface Client ProxyRequest Choice)

/-- The proxies with all requests in flight. -/
abbrev ProxyWorld (Client : Type) :=
  World proxyInterface Client ProxyRequest Store Error Response

/-- All runs of the proxies, whatever the ledger has stored before. -/
abbrev ProxyRun (Client : Type) [DecidableEq Client] (proxies : Proxies) :
    ProxyLog Client → ProxyWorld Client → Prop :=
  Logged (proxyHost Client) (serveProxy proxies) fun _ => True

end Trackward.Gateway.Retrieval
