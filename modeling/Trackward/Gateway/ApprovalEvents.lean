import Trackward.ChainCore.UuidTexts
import Trackward.Gateway.LostDecisions

/-!
# The events about an approval

An event about an approval carries its id as a text.  The payload of a request
is the caller's, but its id is the one that was minted for it.  Only the
session that inserted the approval writes about it, and what it was answered
before tells how far it has come.
-/

namespace Trackward.Gateway.ApprovalEvents

open Trackward.ChainCore.Encode
open Trackward.ChainCore.JsonValue
open Trackward.ChainCore.UuidTexts
open Trackward.Gateway.ApprovalCalls
open Trackward.Gateway.ApprovalChannels
open Trackward.Gateway.ApprovalHandover
open Trackward.Gateway.Calls
open Trackward.Gateway.DecideCalls
open Trackward.Gateway.Handlers
open Trackward.Gateway.Histories
open Trackward.Lib.Logs
open Trackward.Lib.Octets
open Trackward.Lib.Programs
open Trackward.Lib.Sessions

/-! ## The id an event carries -/

/-- The id that an event carries. -/
def idOf (body : Json) : Option String :=
  (body.get "approval_id").bind Json.asStr

theorem idOf_eq (body : Json) :
    idOf body = (body.value.get "approval_id").bind Value.asStr := by
  unfold idOf Json.get
  split
  · rename_i value found
    simp only [found]
    rfl
  · rename_i found
    simp only [found]
    rfl

theorem idOf_object {text : String} {members : List (String × Json)}
    (distinct :
      (List.map Prod.fst
        (("approval_id", Json.string text) :: members)).Nodup) :
    idOf (.object (("approval_id", .string text) :: members) distinct) =
      some text := by
  rw [idOf_eq]
  simp [Json.object, Json.string, Value.get, Value.asStr]

/-- Whatever the caller sends, the event carries the minted id. -/
theorem idOf_requestedBody (id : Uuid) (body : Json) :
    idOf (requestedBody id body) = some (uuidText id) := by
  unfold requestedBody
  cases inserted : Json.insert "approval_id" (.string (uuidText id)) body with
  | none => exact idOf_object (by simp)
  | some whole =>
      rw [Option.getD_some, idOf_eq]
      unfold Json.insert at inserted
      split at inserted
      · rename_i members shape
        cases inserted
        have others :
            (members.filter fun member => member.1 ≠ "approval_id").find?
                (fun member => member.1 = "approval_id") =
              none := by
          rw [List.find?_eq_none]
          intro member inside
          simpa using (List.mem_filter.mp inside).2
        simp only [Value.get]
        rw [List.find?_append, others]
        simp [Json.string, Value.asStr]
      · cases inserted

/-! ## The events of the history -/

/-- An event about an approval: its kind, the id it carries and its number. -/
structure ApprovalEvent where
  kind : String
  id : Option String
  seq : Int64
deriving DecidableEq

/-- An event as one about an approval, by its kind. -/
def approvalEvent (kind : String) (body : Json) (seq : Int64) :
    Option ApprovalEvent :=
  if kind ∈ approvalKinds then some ⟨kind, idOf body, seq⟩ else none

/-- The event about an approval that was written to a run. -/
def writtenEvent (runId : Uuid) : Happening → Option ApprovalEvent
  | .wrote (.appendEvent run kind body) _ seq =>
      if run = runId then approvalEvent kind body seq else none
  | _ => none

/-- The events about approvals that were written to a run, in order. -/
def writtenEvents (runId : Uuid) (history : List Happening) :
    List ApprovalEvent :=
  history.filterMap (writtenEvent runId)

/-- The events about one approval. -/
def eventsAbout (id : Uuid) (events : List ApprovalEvent) :
    List ApprovalEvent :=
  events.filter fun event => event.id = some (uuidText id)

theorem writtenEvent_cases {runId : Uuid} {what : Happening}
    {event : ApprovalEvent} (found : writtenEvent runId what = some event) :
    ∃ body eventId,
      what = .wrote (.appendEvent runId event.kind body) eventId event.seq ∧
        event.kind ∈ approvalKinds ∧ event.id = idOf body := by
  unfold writtenEvent at found
  split at found
  · rename_i run kind body eventId seq
    split at found
    · rename_i same
      subst same
      unfold approvalEvent at found
      split at found
      · rename_i about
        cases found
        exact ⟨body, eventId, rfl, about, rfl⟩
      · cases found
    · cases found
  · cases found

variable {Client : Type}

/-- The event of a run about one approval that was written at an entry. -/
def eventAt (runId id : Uuid)
    (entry : Entry gatewayHost Client Request Choice) :
    Option ApprovalEvent :=
  ((happening entry).bind (writtenEvent runId)).filter fun event =>
    event.id = some (uuidText id)

theorem eventAt_cases {runId id : Uuid}
    {entry : Entry gatewayHost Client Request Choice} {event : ApprovalEvent}
    (found : eventAt runId id entry = some event) :
    ∃ client choice body answer,
      entry =
          .called client choice
            ⟨.ledger (.appendEvent runId event.kind body), answer⟩ ∧
        event.kind ∈ approvalKinds ∧ idOf body = some (uuidText id) := by
  rw [eventAt, Option.filter_eq_some_iff] at found
  rcases found with ⟨written, same⟩
  rcases Option.bind_eq_some_iff.mp written with ⟨what, happens, isEvent⟩
  rcases writtenEvent_cases isEvent with ⟨body, eventId, rfl, about, carries⟩
  rcases called_of_happening happens with ⟨client, choice, answer, called⟩
  rw [decide_eq_true_eq, carries] at same
  exact ⟨client, choice, body, answer, called, about, same⟩

/-! ## How far a session has come -/

variable [DecidableEq Client] {service : Service}
variable {log : GatewayLog Client} {world : GatewayWorld Client}

/-- At a place a session that waits, or has waited, makes a call. -/
structure Follows (log : GatewayLog Client) (place : Nat) (client : Client)
    (ticket : Ticket) (opening rest : List GatewayEvent) : Prop where
  here :
    ∃ choice event, log[place]? = some (.called client choice event)
  past : own client (log.take place) = ticket.waiting opening ++ rest
  quiet : ∀ event ∈ opening, Quiet event.op

section Stages

variable {first second : Nat} {client client' : Client}
variable {ticket ticket' : Ticket}
variable {opening opening' rest rest' : List GatewayEvent}

/-- Two sessions that follow one approval are one session. -/
theorem Follows.together (run : GatewayRun Client service log world)
    (fresh : Fresh log)
    (one : Follows log first client ticket opening rest)
    (other : Follows log second client' ticket' opening' rest')
    (same : ticket.approvalId = ticket'.approvalId) :
    client = client' ∧
      (ticket.waiting opening).length =
          (ticket'.waiting opening').length ∧
        ∃ origin, origin < first ∧ origin < second ∧
          Remains client log origin first ∧
            Remains client log origin second := by
  rcases one.here with ⟨choice, event, here⟩
  rcases other.here with ⟨choice', event', there⟩
  rcases exists_inserts_at run here one.quiet one.past with
    ⟨origin, before, inserts, remains⟩
  rcases exists_inserts_at run there other.quiet other.past with
    ⟨origin', before', inserts', remains'⟩
  have places := inserts.eq_of_fresh run fresh inserts' same
  subst places
  have clients := (inserts.same_of_place inserts').1
  subst clients
  have opened : ticket.opened opening = ticket'.opened opening' :=
    inserts.past.symm.trans inserts'.past
  refine ⟨rfl, ?_, origin, before, before', remains, remains'⟩
  rw [Ticket.waiting, Ticket.waiting, opened, List.length_append,
    List.length_append]
  rfl

/-- At one stage a session about a fresh approval makes one call. -/
theorem Follows.place_eq (run : GatewayRun Client service log world)
    (fresh : Fresh log)
    (one : Follows log first client ticket opening rest)
    (other : Follows log second client' ticket' opening' rest')
    (same : ticket.approvalId = ticket'.approvalId)
    (sizes : rest.length = rest'.length) : first = second := by
  rcases one.together run fresh other same with
    ⟨rfl, waited, origin, before, before', remains, remains'⟩
  rcases one.here with ⟨choice, event, here⟩
  rcases other.here with ⟨choice', event', there⟩
  apply run.place_eq_of_own here there before before' remains remains'
  rw [one.past, other.past, List.length_append, List.length_append, waited,
    sizes]

/-- The stages of a session about a fresh approval are in order. -/
theorem Follows.place_lt (run : GatewayRun Client service log world)
    (fresh : Fresh log)
    (one : Follows log first client ticket opening rest)
    (other : Follows log second client' ticket' opening' rest')
    (same : ticket.approvalId = ticket'.approvalId)
    (sizes : rest.length < rest'.length) : first < second := by
  rcases one.together run fresh other same with
    ⟨rfl, waited, origin, before, before', remains, remains'⟩
  rcases other.here with ⟨choice', event', there⟩
  apply run.place_lt_of_own there before' remains
  rw [one.past, other.past, List.length_append, List.length_append, waited]
  omega

end Stages

/-- A decide call was answered ok with a decision for an id. -/
def DecidedOk (service : Service) (log : GatewayLog Client) (id : Uuid)
    (decision : Decision) : Prop :=
  ∃ arrival last client,
    OkDecide service log arrival last client id decision

/-- For a fresh id there is one decision. -/
theorem DecidedOk.eq (run : GatewayRun Client service log world)
    (fresh : Fresh log) {id : Uuid} {decision decision' : Decision}
    (one : DecidedOk service log id decision)
    (other : DecidedOk service log id decision') : decision = decision' := by
  rcases one with ⟨arrival, last, client, okay⟩
  rcases other with ⟨arrival', last', client', okay'⟩
  exact (okay.arrival_eq run fresh okay').2.2

/-- A decision that a session has received is that of a decide call. -/
theorem decidedOk_of_past (run : GatewayRun Client service log world)
    {place : Nat} {client : Client} {choice : Choice} {event : GatewayEvent}
    (here : log[place]? = some (.called client choice event))
    {ticket : Ticket} {opening rest : List GatewayEvent}
    (quiet : ∀ event ∈ opening, Quiet event.op) {reply : EventResponse}
    {decision : Decision}
    (past :
      own client (log.take place) =
        ticket.decided opening reply decision ++ rest) :
    DecidedOk service log ticket.approvalId decision := by
  rcases run.at here with
    ⟨middle, request, calls, next, shared, shorter, present, _⟩
  rcases sent_of_decided shorter present quiet past with ⟨sending, sent⟩
  rcases (happens_of_take sent).2 with ⟨decider, choice', there⟩
  rcases okDecide_of_sent run there with ⟨arrival, okay⟩
  exact ⟨arrival, sending + 1, decider, okay⟩

/-- After the request was recorded and the decision received. -/
theorem decided_eq_waiting (ticket : Ticket) (opening : List GatewayEvent)
    (reply : EventResponse) (decision : Decision) :
    ticket.decided opening reply decision =
      ticket.waiting opening ++
        [⟨.ledger ticket.request, .ok reply⟩,
          ⟨.receive ticket.channel, .ok decision⟩] := by
  rw [Ticket.decided, Ticket.requested, List.append_assoc]
  rfl

/--
A session writes about its own approval: first the request, then the decision
of a decide call.
-/
theorem follows_of_append (run : GatewayRun Client service log world)
    {place : Nat} {client : Client} {choice : Choice} {runId : Uuid}
    {kind : String} {body : Json} {answer : Except String EventResponse}
    (here :
      log[place]? =
        some
          (.called client choice
            ⟨.ledger (.appendEvent runId kind body), answer⟩))
    (about : kind ∈ approvalKinds) :
    ∃ ticket opening rest,
      Follows log place client ticket opening rest ∧
        idOf body = some (uuidText ticket.approvalId) ∧
          (rest.length = 0 ∧ kind = "approval_requested" ∨
            rest.length = 2 ∧
              ∃ decision, kind = Ticket.outcomeKind decision ∧
                DecidedOk service log ticket.approvalId decision) := by
  rcases (proceeds_at run here).of_append about with
    ⟨opening, ticket, quiet, past, same⟩ |
    ⟨opening, ticket, reply, decision, quiet, past, same⟩
  · rw [Ticket.request, LedgerCall.appendEvent.injEq] at same
    rcases same with ⟨rfl, rfl, rfl⟩
    refine ⟨ticket, opening, [], ⟨⟨choice, _, here⟩, ?_, quiet⟩, ?_, ?_⟩
    · rw [past, List.append_nil]
    · exact idOf_requestedBody _ _
    · exact Or.inl ⟨rfl, rfl⟩
  · have received :
        own client (log.take place) =
          ticket.decided opening reply decision ++ [] := by
      rw [past, List.append_nil]
    rw [Ticket.outcome, LedgerCall.appendEvent.injEq] at same
    rcases same with ⟨rfl, rfl, rfl⟩
    refine
      ⟨ticket, opening, _,
        ⟨⟨choice, _, here⟩, past.trans (decided_eq_waiting ..), quiet⟩,
        idOf_object _, ?_⟩
    exact
      Or.inr
        ⟨rfl, decision, rfl, decidedOk_of_past run here quiet received⟩

end Trackward.Gateway.ApprovalEvents
