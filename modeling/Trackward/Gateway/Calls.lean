import Trackward.ChainCore.Encode
import Trackward.Lib.Sessions

/-!
# What the handlers of the gateway share

The gateway stands between agents and their tools.  Its handlers share a map of
pending approvals, and each waiting request shares a oneshot channel with the
decision that ends it.  Everything else they do are calls to the ledger and to
the backends of the tools.

The host of this module answers these calls.  The ledger accepts a write,
refuses it, or accepts it without the gateway learning of it; a backend answers
anything.  `history` lists what happened, in order.
-/

namespace Trackward.Gateway.Calls

open Trackward.ChainCore.Chrono
open Trackward.ChainCore.Encode
open Trackward.ChainCore.JsonValue
open Trackward.Lib.Octets
open Trackward.Lib.Programs
open Trackward.Lib.Sessions

/-! ## Configuration -/

/-- The errors of the handlers. -/
inductive Error where
  | unknownTool (tool : String)
  | ledger (text : String)
  | backend (text : String)
  | badRequest (text : String)
  | notFound
  | internal (text : String)

/-- A map from tool names to backend URLs. -/
structure ToolRoutes where
  entries : List (String × String)
  distinct : (entries.map Prod.fst).Nodup

/-- What the handlers read of the configuration. -/
structure Config where
  toolRoutes : ToolRoutes
  gatedTools : List String

/-- Resolve a tool name to its backend URL. -/
def resolve (routes : ToolRoutes) (tool : String) : Option String :=
  (routes.entries.find? fun entry => entry.1 = tool).map Prod.snd

/-- The tool name is behind an approval gate. -/
def isGated (gatedTools : List String) (tool : String) : Bool :=
  gatedTools.any fun gated => gated = tool

/-- The registry versions a new run is stamped with. -/
structure ResolvedBinding where
  promptVersionId : Option Uuid
  policyVersionId : Option Uuid
  evalResultId : Option Uuid

def ResolvedBinding.isEmpty (binding : ResolvedBinding) : Bool :=
  binding.promptVersionId.isNone && binding.policyVersionId.isNone &&
    binding.evalResultId.isNone

/-! ## Calls to the ledger and to backends -/

/-- The writes of the ledger client. -/
inductive LedgerCall where
  | createRun (agent : String) (metadata : Json)
  | bindRun (runId : Uuid) (binding : ResolvedBinding)
  | appendEvent (runId : Uuid) (kind : String) (body : Json)
  | recordToolInvocation (runId : Uuid) (tool : String)
      (input output : Json) (status : String) (statusCode : Option UInt16)
  | recordSideEffect (runId : Uuid) (toolInvocationId : Option Uuid)
      (kind target status : String) (confirmation : Json)
  | recordHumanApproval (id runId : Uuid) (tool decision : String)
      (reason : Option String) (requestedAt : DateTime)

/-- What the ledger says of an event it has appended. -/
structure EventResponse where
  id : Uuid
  seq : Int64

/-- What an accepted write answers. -/
def LedgerReply : LedgerCall → Type
  | .createRun _ _ => Uuid
  | .appendEvent _ _ _ => EventResponse
  | .recordToolInvocation _ _ _ _ _ _ => Uuid
  | _ => Unit

/-- The reply to a write that was given an id, and an event a number. -/
def LedgerReply.accepted (id : Uuid) (seq : Int64) :
    (call : LedgerCall) → LedgerReply call
  | .createRun _ _ => id
  | .bindRun _ _ => ()
  | .appendEvent _ _ _ => (⟨id, seq⟩ : EventResponse)
  | .recordToolInvocation _ _ _ _ _ _ => id
  | .recordSideEffect _ _ _ _ _ _ => ()
  | .recordHumanApproval _ _ _ _ _ _ => ()

/--
A call forwarded to the backend of a tool.  The run and the tool are not sent:
they are kept to speak about the call.
-/
structure ToolCall where
  runId : Uuid
  tool : String
  backendUrl : String
  input : Json

/-- The status of an answer, and its body if it could be read. -/
structure BackendResponse where
  status : UInt16
  body : Except String Bytes

/-! ## Approvals -/

structure Decision where
  granted : Bool
  reason : Option String

/-- An approval that waits for its decision on a channel. -/
structure PendingApproval where
  runId : Uuid
  tool : String
  decisionTx : Nat

/-- Who can still send a decision. -/
inductive Sender (Client : Type) where
  | held (client : Client)
  | stored
  | gone

/-- A oneshot channel: who waits on it, who can send, and what was sent. -/
structure Channel (Client : Type) where
  receiver : Option Client
  sender : Sender Client
  message : Option Decision

/-! ## The host -/

/-- What the handlers do besides computing. -/
inductive Op where
  | ledger (call : LedgerCall)
  | forward (call : ToolCall)
  | now
  | newApprovalId
  | channel
  | insertPending (id : Uuid) (pending : PendingApproval)
  | removePending (id : Uuid)
  | send (id : Uuid) (pending : PendingApproval) (decision : Decision)
  | receive (channel : Nat)
  | dropSender (channel : Nat)
  | dropReceiver (channel : Nat)

/-- What each of these answers. -/
def Op.Answer : Op → Type
  | .ledger call => Except String (LedgerReply call)
  | .forward _ => Except String BackendResponse
  | .now => DateTime
  | .newApprovalId => Uuid
  | .channel => Nat
  | .insertPending _ _ => Unit
  | .removePending _ => Option PendingApproval
  | .send _ _ _ => Bool
  | .receive _ => Except Unit Decision
  | .dropSender _ => Unit
  | .dropReceiver _ => Unit

/-- The interface of the handlers. -/
def gatewayHost : Interface where
  Op := Op
  Answer := Op.Answer

/-- A handler of the gateway. -/
abbrev Handler (α : Type) := Program gatewayHost Error α

/-- Something that happened. -/
inductive Happening where
  | wrote (call : LedgerCall) (id : Uuid) (seq : Int64)
  | forwarded (call : ToolCall)
  | decided (id : Uuid) (pending : PendingApproval) (decision : Decision)

/-- The state the handlers share, and what has happened so far. -/
structure State (Client : Type) where
  pending : Uuid → Option PendingApproval
  channels : List (Channel Client)
  history : List Happening

/-- No approval is pending and nothing has happened. -/
def State.initial {Client : Type} : State Client where
  pending := fun _ => none
  channels := []
  history := []

/-- What the environment decides about an answer. -/
inductive Choice where
  | accept (id : Uuid) (seq : Int64)
  | refuse (text : String)
  | lose (id : Uuid) (seq : Int64) (text : String)
  | respond (response : Except String BackendResponse)
  | time (now : DateTime)
  | mint (id : Uuid)
  | proceed

section Host

variable {Client : Type}

/-- Add to the history. -/
def State.note (state : State Client) (happening : Happening) :
    State Client :=
  { state with history := state.history ++ [happening] }

/-- Change one channel. -/
def State.modifyChannel (state : State Client) (channel : Nat)
    (change : Channel Client → Channel Client) : State Client :=
  { state with channels := state.channels.modify channel change }

/-- Nobody can send on the channel any more. -/
def State.dropSender (state : State Client) (channel : Nat) : State Client :=
  state.modifyChannel channel fun one => { one with sender := .gone }

/-- Insert into the map; an approval that is replaced loses its sender. -/
def State.insertPending (state : State Client) (id : Uuid)
    (pending : PendingApproval) : State Client :=
  let replaced :=
    match state.pending id with
    | some old => state.dropSender old.decisionTx
    | none => state
  { replaced.modifyChannel pending.decisionTx
      fun one => { one with sender := .stored } with
    pending := Function.update state.pending id (some pending) }

/-- Remove from the map; the sender is with the client that removed it. -/
def State.removePending (state : State Client) (client : Client)
    (id : Uuid) : Option PendingApproval × State Client :=
  match state.pending id with
  | none => (none, state)
  | some pending =>
      (some pending,
        { state.modifyChannel pending.decisionTx
            fun one => { one with sender := .held client } with
          pending := Function.update state.pending id none })

/-- Send a decision, which fails if nobody waits for it. -/
def State.send (state : State Client) (id : Uuid)
    (pending : PendingApproval) (decision : Decision) :
    Bool × State Client :=
  match state.channels[pending.decisionTx]? with
  | some ⟨some _, _, _⟩ =>
      (true,
        (state.modifyChannel pending.decisionTx fun one =>
          { one with sender := .gone, message := some decision }).note
            (.decided id pending decision))
  | _ => (false, state.dropSender pending.decisionTx)

/-- Wait for a decision; without a sender the wait is over. -/
def State.receive (state : State Client) (channel : Nat) :
    Option (Except Unit Decision) :=
  match state.channels[channel]? with
  | some ⟨_, _, some decision⟩ => some (.ok decision)
  | some ⟨_, .gone, none⟩ => some (.error ())
  | _ => none

/-- The receiver of a channel is dropped. -/
def State.dropReceiver (state : State Client) (channel : Nat) :
    State Client :=
  state.modifyChannel channel fun one => { one with receiver := none }

/-- The answer to a call, if the environment's choice is one for it. -/
def State.respond (state : State Client) (client : Client) :
    Choice → (op : Op) → Option (op.Answer × State Client)
  | .accept id seq, .ledger call =>
      some (.ok (.accepted id seq call), state.note (.wrote call id seq))
  | .lose id seq text, .ledger call =>
      some (.error text, state.note (.wrote call id seq))
  | .refuse text, .ledger _ => some (.error text, state)
  | .respond response, .forward call =>
      some (response, state.note (.forwarded call))
  | .time now, .now => some (now, state)
  | .mint id, .newApprovalId => some (id, state)
  | .proceed, .channel =>
      some (state.channels.length,
        { state with
          channels :=
            state.channels ++ [⟨some client, .held client, none⟩] })
  | .proceed, .insertPending id pending =>
      some ((), state.insertPending id pending)
  | .proceed, .removePending id => some (state.removePending client id)
  | .proceed, .send id pending decision =>
      some (state.send id pending decision)
  | .proceed, .receive channel =>
      (state.receive channel).map fun decision =>
        (decision, state.dropReceiver channel)
  | .proceed, .dropSender channel => some ((), state.dropSender channel)
  | .proceed, .dropReceiver channel =>
      some ((), state.dropReceiver channel)
  | _, _ => none

/-- The answers to calls, each with the state after it. -/
inductive State.Responds (state : State Client) (client : Client) :
    Choice → (op : Op) → op.Answer → State Client → Prop where
  | accept (call : LedgerCall) (id : Uuid) (seq : Int64) :
      state.Responds client (.accept id seq) (.ledger call)
        (.ok (.accepted id seq call)) (state.note (.wrote call id seq))
  | lose (call : LedgerCall) (id : Uuid) (seq : Int64) (text : String) :
      state.Responds client (.lose id seq text) (.ledger call) (.error text)
        (state.note (.wrote call id seq))
  | refuse (call : LedgerCall) (text : String) :
      state.Responds client (.refuse text) (.ledger call) (.error text) state
  | respond (call : ToolCall)
      (response : Except String BackendResponse) :
      state.Responds client (.respond response) (.forward call) response
        (state.note (.forwarded call))
  | time (now : DateTime) : state.Responds client (.time now) .now now state
  | mint (id : Uuid) :
      state.Responds client (.mint id) .newApprovalId id state
  | channel :
      state.Responds client .proceed .channel state.channels.length
        { state with
          channels :=
            state.channels ++ [⟨some client, .held client, none⟩] }
  | insertPending (id : Uuid) (pending : PendingApproval) :
      state.Responds client .proceed (.insertPending id pending) ()
        (state.insertPending id pending)
  | removePending (id : Uuid) :
      state.Responds client .proceed (.removePending id)
        (state.removePending client id).1 (state.removePending client id).2
  | send (id : Uuid) (pending : PendingApproval) (decision : Decision) :
      state.Responds client .proceed (.send id pending decision)
        (state.send id pending decision).1 (state.send id pending decision).2
  | receive (channel : Nat) (decision : Except Unit Decision)
      (received : state.receive channel = some decision) :
      state.Responds client .proceed (.receive channel) decision
        (state.dropReceiver channel)
  | dropSender (channel : Nat) :
      state.Responds client .proceed (.dropSender channel) ()
        (state.dropSender channel)
  | dropReceiver (channel : Nat) :
      state.Responds client .proceed (.dropReceiver channel) ()
        (state.dropReceiver channel)

theorem State.responds_of_respond
    {state after : State Client} {client : Client} {choice : Choice}
    {op : Op} {answer : op.Answer}
    (responded : state.respond client choice op = some (answer, after)) :
    state.Responds client choice op answer after := by
  unfold respond at responded
  split at responded
  case h_1 id seq call =>
      cases responded
      exact .accept call id seq
  case h_2 id seq text call =>
      cases responded
      exact .lose call id seq text
  case h_3 text call =>
      cases responded
      exact .refuse call text
  case h_4 response call =>
      cases responded
      exact .respond call response
  case h_5 now =>
      cases responded
      exact .time now
  case h_6 id =>
      cases responded
      exact .mint id
  case h_7 =>
      cases responded
      exact .channel
  case h_8 id pending =>
      cases responded
      exact .insertPending id pending
  case h_9 id =>
      have same : state.removePending client id = (answer, after) :=
        Option.some.inj responded
      have removes := @Responds.removePending Client state client id
      rw [same] at removes
      exact removes
  case h_10 id pending decision =>
      have same : state.send id pending decision = (answer, after) :=
        Option.some.inj responded
      have sends := @Responds.send Client state client id pending decision
      rw [same] at sends
      exact sends
  case h_11 channel =>
      rcases Option.map_eq_some_iff.mp responded with
        ⟨decision, received, same⟩
      cases same
      exact .receive channel _ received
  case h_12 channel =>
      cases responded
      exact .dropSender channel
  case h_13 channel =>
      cases responded
      exact .dropReceiver channel
  case h_14 => cases responded

@[simp]
theorem State.history_insertPending (state : State Client) (id : Uuid)
    (pending : PendingApproval) :
    (state.insertPending id pending).history = state.history := by
  simp only [insertPending, modifyChannel]
  split <;> rfl

@[simp]
theorem State.history_removePending (state : State Client)
    (client : Client) (id : Uuid) :
    (state.removePending client id).2.history = state.history := by
  rw [removePending]
  split <;> rfl

/-- Only a decision that somebody waits for counts as one. -/
theorem State.history_send (state : State Client) (id : Uuid)
    (pending : PendingApproval) (decision : Decision) :
    (state.send id pending decision).2.history = state.history ∨
      (state.send id pending decision).2.history =
        state.history ++ [.decided id pending decision] := by
  rw [send]
  split
  · exact Or.inr rfl
  · exact Or.inl rfl

/-- What an answered call adds to the history. -/
theorem State.respond_history
    {state after : State Client} {client : Client} {choice : Choice}
    {op : Op} {answer : op.Answer}
    (responded : state.respond client choice op = some (answer, after)) :
    after.history = state.history ∨
      (∃ call id seq,
        op = .ledger call ∧
          after.history = state.history ++ [.wrote call id seq]) ∨
      (∃ call,
        op = .forward call ∧
          after.history = state.history ++ [.forwarded call]) ∨
      ∃ id pending decision,
        op = .send id pending decision ∧
          after.history =
            state.history ++ [.decided id pending decision] := by
  cases responds_of_respond responded with
  | accept call id seq | lose call id seq =>
      exact Or.inr (Or.inl ⟨call, id, seq, rfl, rfl⟩)
  | respond call => exact Or.inr (Or.inr (Or.inl ⟨call, rfl, rfl⟩))
  | insertPending id pending =>
      exact Or.inl (history_insertPending state id pending)
  | removePending id => exact Or.inl (history_removePending state client id)
  | send id pending decision =>
      rcases state.history_send id pending decision with quiet | sent
      · exact Or.inl quiet
      · exact Or.inr (Or.inr (Or.inr ⟨id, pending, decision, rfl, sent⟩))
  | refuse | time | mint | channel | receive | dropSender | dropReceiver =>
      exact Or.inl rfl

/-- A lookup answers what was pending, and afterwards it is not. -/
theorem State.respond_removePending {state after : State Client}
    {client : Client} {choice : Choice} {id : Uuid}
    {removed : Option PendingApproval}
    (responded :
      state.respond client choice (.removePending id) =
        some (removed, after)) :
    removed = state.pending id ∧ after.pending id = none := by
  cases responds_of_respond responded
  cases found : state.pending id with
  | none =>
      rw [State.removePending, found]
      exact ⟨rfl, found⟩
  | some pending =>
      rw [State.removePending, found]
      exact ⟨rfl, Function.update_self id none state.pending⟩

variable [DecidableEq Client]

/-- A client that departs drops its ends of all channels. -/
def Channel.abandon (client : Client) (channel : Channel Client) :
    Channel Client where
  receiver :=
    if channel.receiver = some client then none else channel.receiver
  sender :=
    match channel.sender with
    | .held holder => if holder = client then .gone else .held holder
    | .stored => .stored
    | .gone => .gone
  message := channel.message

/-- The shared state of the gateway as a host of its handlers. -/
def host (Client : Type) [DecidableEq Client] :
    Host gatewayHost Client Choice (State Client) where
  respond := fun client choice op state => state.respond client choice op
  depart := fun client state =>
    { state with channels := state.channels.map (Channel.abandon client) }

end Host

/-! ## Single calls -/

/-- A call of the interface as a handler. -/
def perform (op : Op) : Handler op.Answer :=
  .call op .done

/-- A write to the ledger, and what became of it. -/
def tryLedger (call : LedgerCall) :
    Handler (Except String (LedgerReply call)) :=
  perform (.ledger call)

/-- A write to the ledger that must succeed. -/
def ledger (call : LedgerCall) : Handler (LedgerReply call) := do
  match ← tryLedger call with
  | .ok reply => return reply
  | .error text => .raise (.ledger text)

section Allowed

variable {allowed : Op → Prop}

theorem onlyCalls_perform {op : Op} (permitted : allowed op) :
    (perform op).OnlyCalls allowed :=
  ⟨permitted, fun _ => trivial⟩

theorem onlyCalls_ledger {call : LedgerCall}
    (permitted : allowed (.ledger call)) :
    (ledger call).OnlyCalls allowed := by
  refine ⟨permitted, fun answer => ?_⟩
  cases answer with
  | ok reply => trivial
  | error text => trivial

end Allowed

end Trackward.Gateway.Calls
