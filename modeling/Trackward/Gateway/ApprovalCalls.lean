import Trackward.Gateway.ApprovalChannels

/-!
# The calls of the approval handlers

What a session has been answered before one of its calls about an approval is
determined by the call.  A request mints an id, opens a channel, inserts the
approval, records it, waits for the decision and records that; a decide call
removes the approval and sends the decision.
-/

namespace Trackward.Gateway.ApprovalCalls

open Trackward.ChainCore.Chrono
open Trackward.ChainCore.Encode
open Trackward.ChainCore.JsonValue
open Trackward.Gateway.ApprovalChannels
open Trackward.Gateway.Calls
open Trackward.Gateway.Handlers
open Trackward.Lib.Logs
open Trackward.Lib.Programs
open Trackward.Lib.Programs.Program (Tracks tracks_bind tracks_of_onlyCalls)
open Trackward.Lib.Sessions

/-! ## The stages of a request -/

/-- What a request is about, once its approval was minted. -/
structure Ticket where
  approvalId : Uuid
  runId : Uuid
  tool : String
  channel : Nat
  requestedAt : DateTime
  body : Json

namespace Ticket

variable (ticket : Ticket)

def pending : PendingApproval where
  runId := ticket.runId
  tool := ticket.tool
  decisionTx := ticket.channel

/-- The event that records the request. -/
def request : LedgerCall :=
  .appendEvent ticket.runId "approval_requested"
    (requestedBody ticket.approvalId ticket.body)

/-- The kind of the event that records a decision. -/
def outcomeKind (decision : Decision) : String :=
  if decision.granted then "approval_granted" else "approval_denied"

/-- The event that records the decision. -/
def outcome (decision : Decision) : LedgerCall :=
  .appendEvent ticket.runId (outcomeKind decision)
    (.object
      [("approval_id", .string (uuidText ticket.approvalId)),
        ("tool", .string ticket.tool),
        ("reason", .optString decision.reason)])

/-- The row that records the decision. -/
def row (decision : Decision) : LedgerCall :=
  .recordHumanApproval ticket.approvalId ticket.runId ticket.tool
    (decisionLabel decision) decision.reason ticket.requestedAt

variable (opening : List GatewayEvent)

/-- The id is minted and the channel opened. -/
def opened : List GatewayEvent :=
  opening ++ [⟨.newApprovalId, ticket.approvalId⟩] ++
    [⟨.channel, ticket.channel⟩] ++ [⟨.now, ticket.requestedAt⟩]

/-- The approval is pending. -/
def waiting : List GatewayEvent :=
  ticket.opened opening ++
    [⟨.insertPending ticket.approvalId ticket.pending, ()⟩]

/-- The ledger has been asked to record the request. -/
def requested (reply : Except String EventResponse) : List GatewayEvent :=
  ticket.waiting opening ++ [⟨.ledger ticket.request, reply⟩]

/-- The decision has been received. -/
def decided (reply : EventResponse) (decision : Decision) :
    List GatewayEvent :=
  ticket.requested opening (.ok reply) ++
    [⟨.receive ticket.channel, .ok decision⟩]

/-- The ledger has been asked to record the decision. -/
def concluded (reply : EventResponse) (decision : Decision)
    (last : Except String EventResponse) : List GatewayEvent :=
  ticket.decided opening reply decision ++
    [⟨.ledger (ticket.outcome decision), last⟩]

end Ticket

/-! ## What a call and an end say of the past -/

/-- The kinds of the events about approvals. -/
def approvalKinds : List String :=
  ["approval_requested", "approval_granted", "approval_denied"]

/-- A call that has nothing to do with approvals. -/
def Quiet : Op → Prop
  | .ledger (.appendEvent _ kind _) => kind ∉ approvalKinds
  | .ledger (.recordHumanApproval _ _ _ _ _ _) => False
  | .ledger _ => True
  | .forward _ => True
  | _ => False

/-- The calls a session can make after what it has been answered. -/
inductive Proceeds : List GatewayEvent → Op → Prop where
  | other (past : List GatewayEvent) {op : Op} (quiet : Quiet op) :
      Proceeds past op
  | now (past : List GatewayEvent) : Proceeds past .now
  | mint {opening : List GatewayEvent}
      (quiet : ∀ event ∈ opening, Quiet event.op) :
      Proceeds opening .newApprovalId
  | open {opening : List GatewayEvent} (id : Uuid)
      (quiet : ∀ event ∈ opening, Quiet event.op) :
      Proceeds (opening ++ [⟨.newApprovalId, id⟩]) .channel
  | insert {opening : List GatewayEvent} (ticket : Ticket)
      (quiet : ∀ event ∈ opening, Quiet event.op) :
      Proceeds (ticket.opened opening)
        (.insertPending ticket.approvalId ticket.pending)
  | request {opening : List GatewayEvent} (ticket : Ticket)
      (quiet : ∀ event ∈ opening, Quiet event.op) :
      Proceeds (ticket.waiting opening) (.ledger ticket.request)
  | drop {opening : List GatewayEvent} (ticket : Ticket) (text : String)
      (quiet : ∀ event ∈ opening, Quiet event.op) :
      Proceeds (ticket.requested opening (.error text))
        (.dropReceiver ticket.channel)
  | receive {opening : List GatewayEvent} (ticket : Ticket)
      (reply : EventResponse)
      (quiet : ∀ event ∈ opening, Quiet event.op) :
      Proceeds (ticket.requested opening (.ok reply))
        (.receive ticket.channel)
  | conclude {opening : List GatewayEvent} (ticket : Ticket)
      (reply : EventResponse) (decision : Decision)
      (quiet : ∀ event ∈ opening, Quiet event.op) :
      Proceeds (ticket.decided opening reply decision)
        (.ledger (ticket.outcome decision))
  | row {opening : List GatewayEvent} (ticket : Ticket)
      (reply last : EventResponse) (decision : Decision)
      (quiet : ∀ event ∈ opening, Quiet event.op) :
      Proceeds (ticket.concluded opening reply decision (.ok last))
        (.ledger (ticket.row decision))
  | remove (id : Uuid) : Proceeds [] (.removePending id)
  | send (id : Uuid) (pending : PendingApproval) (decision : Decision) :
      Proceeds [⟨.removePending id, some pending⟩]
        (.send id pending decision)
  | dropSender (id : Uuid) (pending : PendingApproval) :
      Proceeds [⟨.removePending id, some pending⟩]
        (.dropSender pending.decisionTx)

/-- What a session has been answered when it ends. -/
inductive Ends : List GatewayEvent → Except Error Response → Prop where
  | failed {opening : List GatewayEvent}
      (quiet : ∀ event ∈ opening, Quiet event.op) (error : Error) :
      Ends opening (.error error)
  | proxied {opening : List GatewayEvent}
      (quiet : ∀ event ∈ opening, Quiet event.op) (status : UInt16)
      (runId : Uuid) (body : Trackward.Lib.Octets.Bytes) :
      Ends opening (.ok (.proxied status runId body))
  | unrequested {opening : List GatewayEvent} (ticket : Ticket)
      (text : String) (quiet : ∀ event ∈ opening, Quiet event.op)
      (error : Error) :
      Ends
        (ticket.requested opening (.error text) ++
          [⟨.dropReceiver ticket.channel, ()⟩])
        (.error error)
  | closed {opening : List GatewayEvent} (ticket : Ticket)
      (reply : EventResponse)
      (quiet : ∀ event ∈ opening, Quiet event.op) (error : Error) :
      Ends
        (ticket.requested opening (.ok reply) ++
          [⟨.receive ticket.channel, .error ()⟩])
        (.error error)
  | unrecorded {opening : List GatewayEvent} (ticket : Ticket)
      (reply : EventResponse) (decision : Decision) (text : String)
      (quiet : ∀ event ∈ opening, Quiet event.op) (error : Error) :
      Ends (ticket.concluded opening reply decision (.error text))
        (.error error)
  | answered {opening : List GatewayEvent} (ticket : Ticket)
      (reply last : EventResponse) (decision : Decision)
      (evidence : Except String Unit)
      (quiet : ∀ event ∈ opening, Quiet event.op) :
      Ends
        (ticket.concluded opening reply decision (.ok last) ++
          [⟨.ledger (ticket.row decision), evidence⟩])
        (.ok
          (.answered ticket.runId ticket.approvalId (decisionLabel decision)
            decision.reason))
  | unknown (id : Uuid) (error : Error) :
      Ends [⟨.removePending id, none⟩] (.error error)
  | malformed (id : Uuid) (pending : PendingApproval) (error : Error) :
      Ends
        ([⟨.removePending id, some pending⟩] ++
          [⟨.dropSender pending.decisionTx, ()⟩])
        (.error error)
  | undelivered (id : Uuid) (pending : PendingApproval) (decision : Decision)
      (error : Error) :
      Ends
        ([⟨.removePending id, some pending⟩] ++
          [⟨.send id pending decision, false⟩])
        (.error error)
  | delivered (id : Uuid) (pending : PendingApproval) (decision : Decision) :
      Ends
        ([⟨.removePending id, some pending⟩] ++
          [⟨.send id pending decision, true⟩])
        (.ok (.decided pending.runId pending.tool))

variable {service : Service}

/-! ## The handlers -/

/-- Quiet calls lead from a quiet past to a quiet past. -/
theorem tracks_quiet {α : Type} {handler : Handler α}
    {next : α → Handler Response} {past : List GatewayEvent}
    (quiet : ∀ event ∈ past, Quiet event.op)
    (only : handler.OnlyCalls Quiet)
    (follows :
      ∀ opening value, (∀ event ∈ opening, Quiet event.op) →
        (next value).Tracks Proceeds Ends opening) :
    (handler >>= next).Tracks Proceeds Ends past := by
  refine tracks_bind (Tracks.weaken ?_ (tracks_of_onlyCalls only ?_))
  · rintro later outcome ⟨events, rfl, after, _⟩
    have both : ∀ event ∈ past ++ events, Quiet event.op := by
      intro event member
      rcases List.mem_append.mp member with before | new
      · exact quiet event before
      · exact after event new
    cases outcome with
    | ok value => exact follows _ value both
    | error error => exact .failed both error
  · intro events op _ permitted
    exact .other _ permitted

theorem tracks_request (runIdHeader : Option String) (body : Json) :
    (Approval.request service runIdHeader body).Tracks Proceeds Ends [] := by
  refine tracks_quiet (by simp)
    (onlyCalls_resolveOrMintRun (fun _ _ => trivial) fun _ _ => trivial)
    fun opening value quiet => ?_
  rcases value with ⟨runId, minted⟩
  refine ⟨.mint quiet, fun id => ⟨.open id quiet, fun channel =>
    ⟨.now _, fun requestedAt => ?_⟩⟩⟩
  let ticket : Ticket :=
    { approvalId := id
      runId := runId
      tool := textOr body "tool" ""
      channel := channel
      requestedAt := requestedAt
      body := body }
  refine ⟨.insert ticket quiet, fun _ => ⟨.request ticket quiet, fun reply => ?_⟩⟩
  cases reply with
  | error text =>
      exact ⟨.drop ticket text quiet, fun _ =>
        .unrequested ticket text quiet _⟩
  | ok reply =>
      refine ⟨.receive ticket reply quiet, fun received => ?_⟩
      cases received with
      | error nothing => exact .closed ticket reply quiet _
      | ok decision =>
          refine ⟨.conclude ticket reply decision quiet, fun last => ?_⟩
          cases last with
          | error text => exact .unrecorded ticket reply decision text quiet _
          | ok last =>
              exact ⟨.row ticket reply last decision quiet, fun evidence =>
                .answered ticket reply last decision evidence quiet⟩

theorem tracks_decide (id : Uuid) (body : Json) :
    (Approval.decide service id body).Tracks Proceeds Ends [] := by
  refine ⟨.remove id, fun removed => ?_⟩
  cases removed with
  | none => exact .unknown id _
  | some pending =>
      generalize decisionOf service.runtime body = read
      cases read with
      | error error =>
          exact ⟨.dropSender id pending, fun _ => .malformed id pending _⟩
      | ok decision =>
          refine ⟨.send id pending decision, fun delivered => ?_⟩
          cases delivered with
          | false => exact .undelivered id pending decision _
          | true => exact .delivered id pending decision

theorem tracks_proxy (tool : String) (runIdHeader : Option String)
    (input : Json) :
    (proxy service tool runIdHeader input).Tracks Proceeds Ends [] := by
  unfold proxy
  split
  · exact .failed (by simp) _
  · refine tracks_quiet (by simp)
      (onlyCalls_resolveOrMintRun (fun _ _ => trivial) fun _ _ => trivial)
      fun opening value quiet => ?_
    refine tracks_quiet quiet (onlyCalls_ledger (by simp [Quiet, approvalKinds]))
      fun opening _ quiet => ?_
    refine tracks_quiet quiet (onlyCalls_forward trivial)
      fun opening answer quiet => ?_
    refine tracks_quiet quiet (onlyCalls_ledger ?_) fun opening _ quiet => ?_
    · show (outcomeEvent tool _ _).1 ∉ approvalKinds
      rw [outcomeEvent]
      split
      · simp [approvalKinds]
      · simp [approvalKinds]
    refine tracks_quiet quiet (onlyCalls_perform trivial)
      fun opening recorded quiet => ?_
    refine tracks_quiet quiet ?_ fun opening _ quiet =>
      .proxied quiet _ _ _
    split
    · exact onlyCalls_recordConfirmations fun _ => trivial
    · trivial

theorem tracks_serve (request : Request) :
    (serve service request).Tracks Proceeds Ends [] := by
  cases request with
  | tool tool runIdHeader input => exact tracks_proxy tool runIdHeader input
  | approval runIdHeader body => exact tracks_request runIdHeader body
  | decide id body => exact tracks_decide id body

/-! ## Reading the past off a call -/

theorem Proceeds.of_insert {past : List GatewayEvent} {id : Uuid}
    {pending : PendingApproval}
    (proceeds : Proceeds past (.insertPending id pending)) :
    ∃ opening ticket,
      (∀ event ∈ opening, Quiet event.op) ∧
        past = Ticket.opened ticket opening ∧ id = ticket.approvalId ∧
          pending = ticket.pending := by
  cases proceeds with
  | other past quiet => cases quiet
  | insert ticket quiet => exact ⟨_, ticket, quiet, rfl, rfl, rfl⟩

theorem Proceeds.of_send {past : List GatewayEvent} {id : Uuid}
    {pending : PendingApproval} {decision : Decision}
    (proceeds : Proceeds past (.send id pending decision)) :
    past = [⟨.removePending id, some pending⟩] := by
  cases proceeds with
  | other past quiet => cases quiet
  | send id pending decision => rfl

/-- A write about an approval records the request or the decision. -/
theorem Proceeds.of_append {past : List GatewayEvent} {runId : Uuid}
    {kind : String} {body : Json} (about : kind ∈ approvalKinds)
    (proceeds : Proceeds past (.ledger (.appendEvent runId kind body))) :
    (∃ opening ticket,
        (∀ event ∈ opening, Quiet event.op) ∧
          past = Ticket.waiting ticket opening ∧
            .appendEvent runId kind body = ticket.request) ∨
      ∃ opening ticket reply decision,
        (∀ event ∈ opening, Quiet event.op) ∧
          past = Ticket.decided ticket opening reply decision ∧
            .appendEvent runId kind body = ticket.outcome decision := by
  generalize same : Op.ledger (.appendEvent runId kind body) = op at proceeds
  cases proceeds with
  | other past quiet =>
      subst same
      exact absurd about quiet
  | request ticket quiet =>
      cases same
      exact Or.inl ⟨_, ticket, quiet, rfl, rfl⟩
  | conclude ticket reply decision quiet =>
      cases same
      exact Or.inr ⟨_, ticket, reply, decision, quiet, rfl, rfl⟩
  | _ => cases same

/-- A row is written after the event that records the decision. -/
theorem Proceeds.of_row {past : List GatewayEvent} {id runId : Uuid}
    {tool decision : String} {reason : Option String}
    {requestedAt : DateTime}
    (proceeds :
      Proceeds past
        (.ledger
          (.recordHumanApproval id runId tool decision reason requestedAt))) :
    ∃ opening ticket reply last made,
      (∀ event ∈ opening, Quiet event.op) ∧
        past = Ticket.concluded ticket opening reply made (.ok last) ∧
          .recordHumanApproval id runId tool decision reason requestedAt =
            ticket.row made := by
  generalize same :
    Op.ledger
        (.recordHumanApproval id runId tool decision reason requestedAt) =
      op at proceeds
  cases proceeds with
  | other past quiet =>
      subst same
      cases quiet
  | row ticket reply last made quiet =>
      cases same
      exact ⟨_, ticket, reply, last, made, quiet, rfl, rfl⟩
  | _ => cases same

end Trackward.Gateway.ApprovalCalls
