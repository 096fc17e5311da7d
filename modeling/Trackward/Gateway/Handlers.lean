import Trackward.Gateway.Calls

/-!
# The handlers of the gateway

`/tool/{tool}` forwards a call to the backend of a tool and records the call and
its outcome.  `/approval/request` waits for a human decision, which
`/approval/{id}/decide` delivers.
-/

namespace Trackward.Gateway.Handlers

open Trackward.ChainCore.Encode
open Trackward.ChainCore.JsonValue
open Trackward.Gateway.Calls
open Trackward.Lib.Octets
open Trackward.Lib.Programs
open Trackward.Lib.Runs
open Trackward.Lib.Sessions

/-- What the handlers use of other crates. -/
structure Runtime where
  parseUuid : String → Option Uuid
  jsonFromSlice : Bytes → Option Json
  fromUtf8Lossy : Bytes → String
  debug : String → String

/-- The parts of the gateway that do not change while it runs. -/
structure Service where
  runtime : Runtime
  config : Config
  binding : ResolvedBinding

/-- What the handlers answer. -/
inductive Response where
  | proxied (status : UInt16) (runId : Uuid) (body : Bytes)
  | answered (runId approvalId : Uuid) (decision : String)
      (reason : Option String)
  | decided (runId : Uuid) (tool : String)

/-! ## Provenance -/

/-- The run a request names in its `x-trackward-run-id` header. -/
def extractRunId (runtime : Runtime) (runIdHeader : Option String) :
    Option Uuid :=
  runIdHeader.bind runtime.parseUuid

/-- The run of a request; a new run is stamped with the registry binding. -/
def resolveOrMintRun
    (service : Service) (runIdHeader : Option String) (origin : String) :
    Handler (Uuid × Bool) :=
  match extractRunId service.runtime runIdHeader with
  | some id => .done (id, false)
  | none => do
      let runId : Uuid ←
        ledger
          (.createRun "gateway" (.object [("origin", .string origin)]))
      if service.binding.isEmpty then
        return (runId, true)
      else
        -- a failed binding does not fail the request
        let _ ← tryLedger (.bindRun runId service.binding)
        return (runId, true)

/-- The run of a request takes at most two writes. -/
theorem onlyCalls_resolveOrMintRun {allowed : Op → Prop} {service : Service}
    {runIdHeader : Option String} {origin : String}
    (create :
      ∀ agent metadata, allowed (.ledger (.createRun agent metadata)))
    (stamp : ∀ runId binding, allowed (.ledger (.bindRun runId binding))) :
    (resolveOrMintRun service runIdHeader origin).OnlyCalls allowed := by
  unfold resolveOrMintRun
  split
  · trivial
  · refine Program.onlyCalls_bind (onlyCalls_ledger (create _ _))
      fun runId => ?_
    split
    · trivial
    · exact Program.onlyCalls_bind (onlyCalls_perform (stamp _ _)) fun _ =>
        trivial

/-! ## The tool proxy -/

/-- A status from 200 to 299. -/
def isSuccess (status : UInt16) : Bool :=
  200 ≤ status && status < 300

/-- A text member of a JSON object, or a default. -/
def textOr (entry : Json) (key default : String) : String :=
  ((entry.get key).bind Json.asStr).getD default

/-- The row of one declared side effect. -/
def confirmation
    (runId : Uuid) (toolInvocationId : Option Uuid) (entry : Json) :
    LedgerCall :=
  .recordSideEffect runId toolInvocationId (textOr entry "kind" "unknown")
    (textOr entry "target" "unknown") (textOr entry "status" "confirmed")
    ((entry.get "confirmation").getD (.object []))

/-- Record side effects one after another; a failure is skipped. -/
def recordEntries (runId : Uuid) (toolInvocationId : Option Uuid) :
    List Json → Handler Unit
  | [] => return ()
  | entry :: entries => do
      let _ ← tryLedger (confirmation runId toolInvocationId entry)
      recordEntries runId toolInvocationId entries

/-- Record the side effects a backend declares in its answer, if any. -/
def recordConfirmations
    (runId : Uuid) (toolInvocationId : Option Uuid) (body : Json) :
    Handler Unit :=
  match (body.get "side_effects").bind Json.asArray with
  | some entries => recordEntries runId toolInvocationId entries
  | none => return ()

theorem onlyCalls_recordConfirmations {allowed : Op → Prop} {runId : Uuid}
    {toolInvocationId : Option Uuid} {body : Json}
    (row :
      ∀ entry,
        allowed (.ledger (confirmation runId toolInvocationId entry))) :
    (recordConfirmations runId toolInvocationId body).OnlyCalls allowed := by
  have entriesOnly :
      ∀ entries,
        (recordEntries runId toolInvocationId entries).OnlyCalls
          allowed := by
    intro entries
    induction entries with
    | nil => trivial
    | cons entry entries induction =>
        exact Program.onlyCalls_bind (onlyCalls_perform (row entry))
          fun _ => induction
  unfold recordConfirmations
  split
  · exact entriesOnly _
  · trivial

/-- Forward a call and read the answer. -/
def forward (call : ToolCall) : Handler (UInt16 × Bytes) := do
  match ← (perform (.forward call) :
      Handler (Except String BackendResponse)) with
  | .error text => .raise (.backend text)
  | .ok ⟨_, .error text⟩ => .raise (.backend text)
  | .ok ⟨status, .ok body⟩ => return (status, body)

/-- The answer of a backend as JSON, or as text under `raw`. -/
def bodyValue (runtime : Runtime) (body : Bytes) : Json :=
  (runtime.jsonFromSlice body).getD
    (.object [("raw", .string (runtime.fromUtf8Lossy body))])

/-- The event that records the outcome of a call. -/
def outcomeEvent (tool : String) (status : UInt16) (output : Json) :
    String × Json :=
  if isSuccess status then
    ("tool_result", .object [("tool", .string tool), ("output", output)])
  else
    ("tool_error",
      .object
        [("tool", .string tool),
          ("status", .natural status),
          ("body", output)])

/-- Proxy a tool call. -/
def proxy
    (service : Service) (tool : String) (runIdHeader : Option String)
    (input : Json) : Handler Response :=
  match resolve service.config.toolRoutes tool with
  | none => .raise (.unknownTool tool)
  | some backendUrl => do
      let (runId, _) ← resolveOrMintRun service runIdHeader "tool_proxy"
      let _ ←
        ledger
          (.appendEvent runId "tool_call"
            (.object [("tool", .string tool), ("input", input)]))
      let (status, body) ←
        forward
          { runId := runId
            tool := tool
            backendUrl := backendUrl
            input := input }
      let output := bodyValue service.runtime body
      let outcome := outcomeEvent tool status output
      let _ ← ledger (.appendEvent runId outcome.1 outcome.2)
      let recorded : Except String Uuid ←
        tryLedger
          (.recordToolInvocation runId tool input output
            (if isSuccess status then "ok" else "error") (some status))
      let _ ←
        (if isSuccess status then
          recordConfirmations runId recorded.toOption output
        else .done () : Handler Unit)
      return .proxied status runId body

/-- What the tool proxy calls: no approvals, and backends along their routes. -/
def ToolOp (config : Config) : Op → Prop
  | .ledger (.appendEvent _ kind _) =>
      kind ∈ ["tool_call", "tool_result", "tool_error"]
  | .ledger (.recordHumanApproval _ _ _ _ _ _) => False
  | .ledger _ => True
  | .forward call =>
      resolve config.toolRoutes call.tool = some call.backendUrl
  | _ => False

theorem onlyCalls_forward {allowed : Op → Prop} {call : ToolCall}
    (permitted : allowed (.forward call)) :
    (forward call).OnlyCalls allowed := by
  refine ⟨permitted, fun answer => ?_⟩
  rcases answer with text | ⟨status, text | body⟩
  · trivial
  · trivial
  · trivial

theorem onlyCalls_proxy {service : Service} (tool : String)
    (runIdHeader : Option String) (input : Json) :
    (proxy service tool runIdHeader input).OnlyCalls
      (ToolOp service.config) := by
  unfold proxy
  split
  · trivial
  · rename_i backendUrl routed
    refine Program.onlyCalls_bind
      (onlyCalls_resolveOrMintRun (fun _ _ => trivial) fun _ _ => trivial)
      fun resolved => ?_
    refine Program.onlyCalls_bind (onlyCalls_ledger ?_) fun _ => ?_
    · exact List.mem_cons_self
    refine Program.onlyCalls_bind (onlyCalls_forward routed)
      fun answer => ?_
    refine Program.onlyCalls_bind (onlyCalls_ledger ?_) fun _ => ?_
    · show (outcomeEvent tool _ _).1 ∈ _
      rw [outcomeEvent]
      split
      · simp
      · simp
    refine Program.onlyCalls_bind (onlyCalls_perform trivial)
      fun recorded => ?_
    refine Program.onlyCalls_bind ?_ fun _ => trivial
    split
    · exact onlyCalls_recordConfirmations fun _ => trivial
    · trivial

/-! ## Approvals -/

/-- The payload of a request with the id that was minted for it. -/
def requestedBody (approvalId : Uuid) (body : Json) : Json :=
  (Json.insert "approval_id" (.string (uuidText approvalId)) body).getD
    (.object
      [("approval_id", .string (uuidText approvalId)), ("payload", body)])

/-- The name of a decision. -/
def decisionLabel (decision : Decision) : String :=
  if decision.granted then "granted" else "denied"

/-- Wait until an approval is decided. -/
def Approval.request
    (service : Service) (runIdHeader : Option String) (body : Json) :
    Handler Response := do
  let (runId, _) ← resolveOrMintRun service runIdHeader "approval"
  let approvalId : Uuid ← perform .newApprovalId
  let tool := textOr body "tool" ""
  let channel : Nat ← perform .channel
  let requestedAt ← perform .now
  let _ ← perform (.insertPending approvalId ⟨runId, tool, channel⟩)
  match ← tryLedger
      (.appendEvent runId "approval_requested"
        (requestedBody approvalId body)) with
  | .error text => do
      -- the receiver goes out of scope, the pending approval stays
      let _ ← perform (.dropReceiver channel)
      .raise (.ledger text)
  | .ok _ => do
      match ← (perform (.receive channel) :
          Handler (Except Unit Decision)) with
      | .error () =>
          .raise (.internal "approval channel closed before decision")
      | .ok decision => do
          let kind :=
            if decision.granted then "approval_granted"
            else "approval_denied"
          let _ ←
            ledger
              (.appendEvent runId kind
                (.object
                  [("approval_id", .string (uuidText approvalId)),
                    ("tool", .string tool),
                    ("reason", .optString decision.reason)]))
          let _ ←
            tryLedger
              (.recordHumanApproval approvalId runId tool
                (decisionLabel decision) decision.reason requestedAt)
          return .answered runId approvalId (decisionLabel decision)
            decision.reason

/-- A call about an approval. -/
def ApprovalOp : Op → Prop
  | .ledger (.appendEvent _ kind _) =>
      kind ∈ ["approval_requested", "approval_granted", "approval_denied"]
  | .ledger (.recordHumanApproval _ _ _ _ _ _) => True
  | .ledger _ => False
  | .forward _ => False
  | _ => True

/-- A request for an approval finds its run, and speaks of the approval. -/
theorem onlyCalls_approval {allowed : Op → Prop} {service : Service}
    {runIdHeader : Option String} {body : Json}
    (minted :
      (resolveOrMintRun service runIdHeader "approval").OnlyCalls allowed)
    (about : ∀ op, ApprovalOp op → allowed op) :
    (Approval.request service runIdHeader body).OnlyCalls allowed := by
  refine Program.onlyCalls_bind minted fun resolved => ?_
  refine Program.onlyCalls_bind (onlyCalls_perform (about _ trivial))
    fun approvalId => ?_
  refine Program.onlyCalls_bind (onlyCalls_perform (about _ trivial))
    fun channel => ?_
  refine Program.onlyCalls_bind (onlyCalls_perform (about _ trivial))
    fun requestedAt => ?_
  refine Program.onlyCalls_bind (onlyCalls_perform (about _ trivial))
    fun _ => ?_
  refine Program.onlyCalls_bind
    (onlyCalls_perform (about _ List.mem_cons_self)) fun written => ?_
  split
  · exact Program.onlyCalls_bind (onlyCalls_perform (about _ trivial))
      fun _ => trivial
  · refine Program.onlyCalls_bind (onlyCalls_perform (about _ trivial))
      fun received => ?_
    split
    · trivial
    · rename_i decision
      have concludes :
          (if decision.granted then "approval_granted"
            else "approval_denied") ∈
            ["approval_requested", "approval_granted", "approval_denied"] := by
        split
        · simp
        · simp
      refine Program.onlyCalls_bind (onlyCalls_ledger (about _ concludes))
        fun _ => ?_
      exact Program.onlyCalls_bind (onlyCalls_perform (about _ trivial))
        fun _ => trivial

/-- The decision in the body of a decide call. -/
def decisionOf (runtime : Runtime) (body : Json) : Except Error Decision :=
  let reason := (body.get "reason").bind Json.asStr
  match (body.get "decision").bind Json.asStr with
  | none => .error (.badRequest "missing 'decision'")
  | some "granted" => .ok ⟨true, reason⟩
  | some "denied" => .ok ⟨false, reason⟩
  | some other =>
      .error
        (.badRequest
          ("decision must be 'granted' or 'denied', got " ++
            runtime.debug other))

/-- Decide a pending approval, which is removed before the body is read. -/
def Approval.decide (service : Service) (id : Uuid) (body : Json) :
    Handler Response := do
  match ← (perform (.removePending id) :
      Handler (Option PendingApproval)) with
  | none => .raise .notFound
  | some pending =>
      match decisionOf service.runtime body with
      | .error error => do
          let _ ← perform (.dropSender pending.decisionTx)
          .raise error
      | .ok decision => do
          let delivered : Bool ← perform (.send id pending decision)
          if delivered then
            return .decided pending.runId pending.tool
          else
            .raise .notFound

/-- A decide call takes the approval, and sends the decision or drops it. -/
theorem onlyCalls_decide {allowed : Op → Prop} {service : Service} {id : Uuid}
    {body : Json} (remove : allowed (.removePending id))
    (drop : ∀ channel, allowed (.dropSender channel))
    (send : ∀ pending decision, allowed (.send id pending decision)) :
    (Approval.decide service id body).OnlyCalls allowed := by
  refine Program.onlyCalls_bind (onlyCalls_perform remove)
    fun removed => ?_
  split
  · trivial
  · split
    · exact Program.onlyCalls_bind (onlyCalls_perform (drop _)) fun _ =>
        trivial
    · refine Program.onlyCalls_bind (onlyCalls_perform (send _ _))
        fun delivered => ?_
      split
      · trivial
      · trivial

/-! ## The gateway -/

/-- A request about a tool or an approval; retrievals are apart. -/
inductive Request where
  | tool (tool : String) (runIdHeader : Option String) (input : Json)
  | approval (runIdHeader : Option String) (body : Json)
  | decide (id : Uuid) (body : Json)

/-- The handler of a request. -/
def serve (service : Service) : Request → Handler Response
  | .tool tool runIdHeader input => proxy service tool runIdHeader input
  | .approval runIdHeader body => Approval.request service runIdHeader body
  | .decide id body => Approval.decide service id body

/-- The gateway with all requests in flight. -/
abbrev GatewayWorld (Client : Type) :=
  World gatewayHost Client Request (State Client) Error Response

/-- All runs of a gateway that has just started. -/
def gateway (Client : Type) [DecidableEq Client] (service : Service) :
    System (GatewayWorld Client) (Move Client Request Choice) :=
  system (host Client) (serve service) fun state => state = .initial

end Trackward.Gateway.Handlers
