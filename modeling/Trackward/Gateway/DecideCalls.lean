import Trackward.Gateway.ApprovalHandover

/-!
# Decide calls that were answered ok

A decide call is known by the place of its arrival.  It is answered ok exactly
if it has sent its decision to a request that waits for it.
-/

namespace Trackward.Gateway.DecideCalls

open Trackward.ChainCore.Encode
open Trackward.ChainCore.JsonValue
open Trackward.Gateway.ApprovalCalls
open Trackward.Gateway.ApprovalChannels
open Trackward.Gateway.ApprovalHandover
open Trackward.Gateway.Calls
open Trackward.Gateway.Handlers
open Trackward.Lib.Logs
open Trackward.Lib.Programs
open Trackward.Lib.Programs.Program (Leaves Tracks leaves_cons tracks_of_always)
open Trackward.Lib.Sessions

variable {Client : Type} [DecidableEq Client] {service : Service}
variable {log : GatewayLog Client} {world : GatewayWorld Client}

/-- The decide call that arrived at a place was answered ok before another. -/
structure OkDecide (service : Service) (log : GatewayLog Client)
    (arrival last : Nat) (client : Client) (id : Uuid)
    (decision : Decision) : Prop where
  body :
    ∃ body,
      log[arrival]? = some (.arrived client (.decide id body)) ∧
        decisionOf service.runtime body = .ok decision
  before : arrival < last
  within : last ≤ log.length
  remains : Remains client log arrival last
  answered :
    ∃ middle session response,
      GatewayRun Client service (log.take last) middle ∧
        middle.sessions client = some session ∧
          session.program.ended = some (.ok response)

/-! ## A decide call that was answered ok has sent its decision -/

/-- What a decide call was answered if it ends well. -/
def Sends (service : Service) :
    Request → List GatewayEvent → Except Error Response → Prop
  | .decide id body, past, .ok _ =>
      ∃ pending decision,
        decisionOf service.runtime body = .ok decision ∧
          past =
            [⟨.removePending id, some pending⟩,
              ⟨.send id pending decision, true⟩]
  | _, _, _ => True

theorem sends_serve (request : Request) :
    (serve service request).Tracks (fun _ _ => True)
      (Sends service request) [] := by
  cases request with
  | tool tool runIdHeader input =>
      exact tracks_of_always (fun _ _ => trivial) (fun _ _ => trivial) _ _
  | approval runIdHeader body =>
      exact tracks_of_always (fun _ _ => trivial) (fun _ _ => trivial) _ _
  | decide id body =>
      refine ⟨trivial, fun removed => ?_⟩
      cases removed with
      | none => trivial
      | some pending =>
          generalize found : decisionOf service.runtime body = read
          cases read with
          | error error => exact ⟨trivial, fun _ => trivial⟩
          | ok decision =>
              refine ⟨trivial, fun delivered => ?_⟩
              cases delivered with
              | false => trivial
              | true => exact ⟨pending, decision, found, rfl⟩

/-- Before a session sends a decision it has arrived with it. -/
theorem decide_of_leaves {request : Request} {id : Uuid}
    {pending : PendingApproval} {decision : Decision}
    {left : Handler Response}
    (leaves :
      (serve service request).Leaves
        [⟨.removePending id, some pending⟩,
          ⟨.send id pending decision, true⟩]
        left) :
    ∃ body,
      request = .decide id body ∧
        decisionOf service.runtime body = .ok decision ∧
          left = .done (.decided pending.runId pending.tool) := by
  rcases leaves_cons leaves with ⟨next, program, rest⟩
  cases request with
  | tool tool runIdHeader input =>
      exfalso
      change proxy service tool runIdHeader input = _ at program
      unfold proxy resolveOrMintRun at program
      split at program
      · cases program
      · split at program
        · cases program
        · cases program
  | approval runIdHeader body =>
      exfalso
      change Approval.request service runIdHeader body = _ at program
      unfold Approval.request resolveOrMintRun at program
      split at program
      · cases program
      · cases program
  | decide other body =>
      cases program
      generalize found : decisionOf service.runtime body = read at rest
      rcases leaves_cons rest with ⟨next, program, last⟩
      cases read with
      | error error => cases program
      | ok made =>
          cases program
          cases last
          exact ⟨body, rfl, found, rfl⟩

/-- A decide call that was answered ok has sent its decision. -/
theorem OkDecide.sent {arrival last : Nat} {client : Client} {id : Uuid}
    {decision : Decision}
    (okay : OkDecide service log arrival last client id decision) :
    ∃ place choice pending,
      log[place]? =
          some (.called client choice ⟨.send id pending decision, true⟩) ∧
        arrival < place ∧ place < last := by
  rcases okay.answered with
    ⟨middle, session, response, run, present, returned⟩
  rcases okay.body with ⟨body, arrived, decides⟩
  have whole : (log.take last).length = last := by
    rw [List.length_take, Nat.min_eq_left okay.within]
  have arrived' := at_take okay.before arrived
  have stays : Remains client (log.take last) arrival last :=
    fun place later within departed =>
      okay.remains place later within (at_of_take departed).2
  rcases run.exists_arrival present with ⟨origin, here, remains⟩
  rw [whole] at remains
  have same :=
    run.arrival_eq arrived' here okay.before (at_of_take here).1 stays remains
  subst same
  rw [arrived', Option.some.injEq, Entry.arrived.injEq] at here
  have sends := run.ended sends_serve present returned
  rw [← here.2] at sends
  rcases sends with ⟨pending, made, decides', past⟩
  rw [decides, Except.ok.injEq] at decides'
  subst decides'
  have split :
      own client (log.take last) =
        [⟨.removePending id, some pending⟩] ++
          ⟨.send id pending decision, true⟩ :: [] := past
  rcases run.exists_answered present split with
    ⟨place, ⟨choice, sent⟩, _, since⟩
  rcases at_of_take sent with ⟨within, there⟩
  exact
    ⟨place, choice, pending, there, run.arrival_lt arrived' sent since,
      within⟩

/-- A decide call that has sent its decision is answered ok. -/
theorem okDecide_of_sent (run : GatewayRun Client service log world)
    {place : Nat} {client : Client} {choice : Choice} {id : Uuid}
    {pending : PendingApproval} {decision : Decision}
    (here :
      log[place]? =
        some (.called client choice ⟨.send id pending decision, true⟩)) :
    ∃ arrival, OkDecide service log arrival (place + 1) client id decision := by
  have small := lt_length_of_at here
  have past : own client (log.take place) = _ :=
    (proceeds_at run here).of_send
  rcases run.after_at here with ⟨after, session, shorter, present, answers⟩
  rw [past] at answers
  have leaves := shorter.leaves present
  rw [answers] at leaves
  rcases decide_of_leaves leaves with ⟨body, request, decides, ended⟩
  rcases shorter.exists_arrival present with ⟨arrival, arrived, remains⟩
  rw [request] at arrived
  rcases at_of_take arrived with ⟨before, there⟩
  refine ⟨arrival, ⟨body, there, decides⟩, before, small, ?_, ?_⟩
  · intro other later within departed
    refine remains other later ?_ (at_take within departed)
    rw [List.length_take]
    omega
  · refine
      ⟨after, session, .decided pending.runId pending.tool, shorter, present,
        ?_⟩
    rw [ended]
    rfl

/-- For a fresh id one decide call is answered ok. -/
theorem OkDecide.arrival_eq (run : GatewayRun Client service log world)
    (fresh : Fresh log) {arrival arrival' last last' : Nat}
    {client client' : Client} {id : Uuid} {decision decision' : Decision}
    (one : OkDecide service log arrival last client id decision)
    (other : OkDecide service log arrival' last' client' id decision') :
    arrival = arrival' ∧ client = client' ∧ decision = decision' := by
  rcases one.sent with ⟨place, choice, pending, here, before, within⟩
  rcases other.sent with
    ⟨place', choice', pending', there, before', within'⟩
  have together :=
    sent_eq_of_fresh run fresh ⟨client, choice, here⟩
      ⟨client', choice', there⟩
  subst together
  rcases called_inj here there with ⟨sameClient, _, sameEvent⟩
  subst sameClient
  have sameOp :
      Op.send id pending decision = .send id pending' decision' :=
    congrArg Program.Event.op sameEvent
  rcases one.body with ⟨body, arrived, _⟩
  rcases other.body with ⟨body', arrived', _⟩
  refine ⟨?_, rfl, (Op.send.inj sameOp).2.2⟩
  exact
    run.arrival_eq arrived arrived' before before'
      (fun later more less => one.remains later more (by omega))
      (fun later more less => other.remains later more (by omega))

end Trackward.Gateway.DecideCalls
