import Trackward.Gateway.ApprovalHandover
import Trackward.Gateway.DurableRecords

/-!
# Approvals on record were decided

Behind the gateway, whatever the ledger says of the outcome of an approval was
said by the one who decided it: a decide call has delivered the decision to the
request of this run, and the request itself is on record.
-/

namespace Trackward.Gateway.GenuineApprovals

open Trackward.ChainCore.Encode
open Trackward.ChainCore.JsonValue
open Trackward.Gateway.ApprovalCalls
open Trackward.Gateway.ApprovalChannels
open Trackward.Gateway.ApprovalHandover
open Trackward.Gateway.Calls
open Trackward.Gateway.Deployment
open Trackward.Gateway.DurableRecords
open Trackward.Gateway.Exchanges (Stores)
open Trackward.Gateway.Handlers
open Trackward.Gateway.Histories
open Trackward.Gateway.Refinement
open Trackward.Gateway.SideEffectRecords
  (exists_entry mailService wrote_of_reply)
open Trackward.Ledger.Models (Event HumanApproval)
open Trackward.Ledger.Records
open Trackward.Lib.Logs hiding Entry
open Trackward.Lib.Programs
open Trackward.Lib.Runs
open Trackward.Lib.Sessions

variable {Client : Type} [DecidableEq Client] {service : Service}

/-- The decision on an approval was delivered to a request of the run. -/
def Delivered (history : List Happening) (id runId : Uuid) (tool : String)
    (decision : Decision) : Prop :=
  ∃ channel, .decided id ⟨runId, tool, channel⟩ decision ∈ history

/-! ## In a history of the gateway -/

/-- Before a write its session has come as far as its calls say. -/
theorem exists_past {world : GatewayWorld Client}
    (reached : Reachable (gateway Client service) unrestricted world)
    {earlier later : List Happening} {call : LedgerCall} {id : Uuid}
    {seq : Int64}
    (history : world.shared.history = earlier ++ .wrote call id seq :: later) :
    ∃ (log : GatewayLog Client) (middle : GatewayWorld Client)
      (client : Client)
      (session : Session gatewayHost Request Error Response),
      GatewayRun Client service log middle ∧
        middle.shared.history = earlier ∧
          middle.sessions client = some session ∧
            Proceeds (own client log) (.ledger call) := by
  rcases exists_logged reached with ⟨log, run⟩
  rcases exists_entry run history with
    ⟨before, entry, after, rfl, rfl, here⟩
  rcases called_of_happening here with ⟨client, choice, answer, rfl⟩
  have proceeds := run.tracked tracks_serve
  rcases run.called with
    ⟨middle, request, calls, next, shared, shorter, present, _⟩
  exact
    ⟨before, middle, client, _, shorter, history_of_run shorter, present,
      proceeds⟩

/-- A decision that was sent is in the history. -/
theorem decided_of_happens {log : GatewayLog Client}
    {world : GatewayWorld Client} (run : GatewayRun Client service log world)
    {place : Nat} {id : Uuid} {pending : PendingApproval}
    {decision : Decision}
    (happens : Happens log place ⟨.send id pending decision, true⟩) :
    .decided id pending decision ∈ world.shared.history := by
  rcases happens with ⟨client, choice, here⟩
  rcases run.at here with
    ⟨before, request, calls, next, shared, _, _, responded⟩
  have member := List.mem_of_getElem? here
  have proceeds : choice = .proceed := by
    cases choice with
    | proceed => rfl
    | _ => cases responded
  subst proceeds
  rw [history_of_run run]
  exact List.mem_filterMap.mpr ⟨_, member, rfl⟩

/-- A session that has received a decision was delivered it. -/
theorem delivered_of_past {log : GatewayLog Client}
    {world : GatewayWorld Client} (run : GatewayRun Client service log world)
    {client : Client} {session : Session gatewayHost Request Error Response}
    (present : world.sessions client = some session) {ticket : Ticket}
    {opening rest : List GatewayEvent}
    (quiet : ∀ event ∈ opening, Quiet event.op) {reply : EventResponse}
    {decision : Decision}
    (past :
      own client log = ticket.decided opening reply decision ++ rest) :
    Delivered world.shared.history ticket.approvalId ticket.runId
      ticket.tool decision := by
  rcases sent_of_decided run present quiet past with ⟨place, sent⟩
  exact ⟨ticket.channel, decided_of_happens run sent⟩

/-! ## In the deployment -/

variable {setup : Setup} {world : DeployedWorld Client}

omit [DecidableEq Client] in
/-- A decision that was delivered at one level was at the other. -/
theorem Delivered.lower {abstract : GatewayWorld Client}
    {earlier later : List Happening} {what : Happening} {id runId : Uuid}
    {tool : String} {decision : Decision}
    (delivered : Delivered earlier id runId tool decision)
    (history : abstract.shared.history = earlier ++ what :: later)
    (same : world.shared.gateway = unwritten abstract.shared) :
    Delivered world.shared.gateway.history id runId tool decision := by
  rcases delivered with ⟨channel, member⟩
  refine ⟨channel, ?_⟩
  rw [same]
  refine List.mem_filter.mpr ⟨?_, rfl⟩
  rw [history]
  exact List.mem_append_left _ member

/-- An event is shown only by the write that appends it. -/
theorem appendEvent_of_shows {call : LedgerCall} {event : Event}
    (shows : Shows setup call (.ofRow (.chained (.event event)))) :
    ∃ body,
      call = .appendEvent event.runId event.kind body ∧
        Holds setup event.body body := by
  cases call with
  | appendEvent runId kind body =>
      rcases shows with ⟨rfl, rfl, holds⟩
      exact ⟨body, rfl, holds⟩
  | _ => exact shows.elim

/-- A row of an approval is shown only by the write that records it. -/
theorem recordHumanApproval_of_shows {call : LedgerCall}
    {row : HumanApproval}
    (shows : Shows setup call (.ofRow (.chained (.humanApproval row)))) :
    ∃ requestedAt,
      call =
        .recordHumanApproval row.id row.runId row.tool row.decision row.reason
          requestedAt := by
  cases call with
  | recordHumanApproval id runId tool decision reason requestedAt =>
      rcases shows with ⟨rfl, rfl, rfl, rfl, rfl⟩
      exact ⟨requestedAt, rfl⟩
  | _ => exact shows.elim

/-- What a session was answered by the ledger, the ledger has committed. -/
theorem exists_event_of_past {log : GatewayLog Client}
    {middle : GatewayWorld Client}
    (run : GatewayRun Client service log middle)
    (kept :
      ∀ what ∈ middle.shared.history, isWritten what = true →
        ∃ entry ∈ world.shared.ledger.committed, Tells setup what entry)
    {client : Client} {runId : Uuid} {kind : String} {body : Json}
    {reply : EventResponse}
    (member :
      ⟨.ledger (.appendEvent runId kind body), .ok reply⟩ ∈
        own client log) :
    ∃ event : Event,
      .ofRow (.chained (.event event)) ∈ world.shared.ledger.committed ∧
        event.runId = runId ∧ event.kind = kind ∧
          Holds setup event.body body := by
  rcases exists_called_of_mem_own member with ⟨choice, called⟩
  rcases wrote_of_reply run called with ⟨id, seq, _, wrote⟩
  rcases kept _ wrote rfl with ⟨entry, inside, ⟨stores⟩⟩
  rcases event_of_shows (shows_of_stores stores) with ⟨event, rfl, shown⟩
  exact ⟨event, inside, shown⟩

/--
The outcome was decided: a decide call has delivered it to a request of the
run, which is on record.
-/
def OutcomeGenuine (setup : Setup) (world : DeployedWorld Client)
    (event : Event) : Prop :=
  ∃ (id : Uuid) (tool : String) (decision : Decision) (payload : Json)
    (request : Event),
    Delivered world.shared.gateway.history id event.runId tool decision ∧
      event.kind = Ticket.outcomeKind decision ∧
        Holds setup event.body
            (.object
              [("approval_id", .string (uuidText id)),
                ("tool", .string tool),
                ("reason", .optString decision.reason)]) ∧
          .ofRow (.chained (.event request)) ∈
              world.shared.ledger.committed ∧
            request.runId = event.runId ∧
              request.kind = "approval_requested" ∧
                Holds setup request.body (requestedBody id payload)

/-- The row names the decision that was delivered, as does its outcome. -/
def RowGenuine (world : DeployedWorld Client) (row : HumanApproval) : Prop :=
  ∃ (decision : Decision) (outcome : Event),
    Delivered world.shared.gateway.history row.id row.runId row.tool
        decision ∧
      row.decision = decisionLabel decision ∧ row.reason = decision.reason ∧
        .ofRow (.chained (.event outcome)) ∈ world.shared.ledger.committed ∧
          outcome.runId = row.runId ∧
            outcome.kind = Ticket.outcomeKind decision

/-- Every outcome on record is one that was delivered. -/
theorem outcome_genuine
    (reached : Reachable (deployed Client service setup) unrestricted world)
    {event : Event}
    (member :
      .ofRow (.chained (.event event)) ∈ world.shared.ledger.committed)
    (concludes : event.kind ∈ ["approval_granted", "approval_denied"]) :
    OutcomeGenuine setup world event := by
  rcases exists_told reached member with
    ⟨abstract, call, earlier, later, above, same, history, stores, kept⟩
  rcases appendEvent_of_shows (shows_of_stores stores) with
    ⟨body, rfl, holds⟩
  rcases exists_past above history with
    ⟨log, middle, client, session, run, rfl, present, proceeds⟩
  have about : event.kind ∈ approvalKinds := List.mem_cons_of_mem _ concludes
  rcases proceeds.of_append about with
    ⟨opening, ticket, quiet, past, call⟩ |
    ⟨opening, ticket, reply, decision, quiet, past, call⟩
  · rw [Ticket.request, LedgerCall.appendEvent.injEq] at call
    rw [call.2.1] at concludes
    exact absurd concludes (by decide)
  · rw [Ticket.outcome, LedgerCall.appendEvent.injEq] at call
    rcases call with ⟨ofRun, kind, rfl⟩
    have delivered :=
      (delivered_of_past run present quiet
        (past.trans (List.append_nil _).symm)).lower history same
    have asked : ⟨.ledger ticket.request, .ok reply⟩ ∈ own client log := by
      rw [past]
      exact
        List.mem_append_left _ (List.mem_append_right _ List.mem_cons_self)
    rcases exists_event_of_past run kept asked with
      ⟨request, inside, ofRun', kind', holds'⟩
    rw [← ofRun] at delivered ofRun'
    exact
      ⟨ticket.approvalId, ticket.tool, decision, ticket.body, request,
        delivered, kind, holds, inside, ofRun', kind', holds'⟩

/-- Every row on record names a decision that was delivered. -/
theorem row_genuine
    (reached : Reachable (deployed Client service setup) unrestricted world)
    {row : HumanApproval}
    (member :
      .ofRow (.chained (.humanApproval row)) ∈
        world.shared.ledger.committed) :
    RowGenuine world row := by
  rcases exists_told reached member with
    ⟨abstract, call, earlier, later, above, same, history, stores, kept⟩
  rcases recordHumanApproval_of_shows (shows_of_stores stores) with
    ⟨requestedAt, rfl⟩
  rcases exists_past above history with
    ⟨log, middle, client, session, run, rfl, present, proceeds⟩
  rcases proceeds.of_row with
    ⟨opening, ticket, reply, last, decision, quiet, past, call⟩
  rw [Ticket.row, LedgerCall.recordHumanApproval.injEq] at call
  rcases call with ⟨ids, ofRun, tools, label, reason, _⟩
  have delivered :=
    (delivered_of_past run present quiet past).lower history same
  have told :
      ⟨.ledger (ticket.outcome decision), .ok last⟩ ∈ own client log := by
    rw [past]
    exact List.mem_append_right _ List.mem_cons_self
  rcases exists_event_of_past run kept told with
    ⟨outcome, inside, ofRun', kind', _⟩
  rw [← ids, ← ofRun, ← tools] at delivered
  exact
    ⟨decision, outcome, delivered, label, reason, inside,
      ofRun'.trans ofRun.symm, kind'⟩

/-! ## An approval that is granted -/

/-- An approval is requested and granted, and both are recorded. -/
def grantedMoves : List (Move Nat Request DeployedChoice) :=
  [.arrive 0 (.approval none .null)] ++ writing 3 0 1 ++
    [.answer 0 (.gateway (.mint 7)),
      .answer 0 (.gateway .proceed),
      .answer 0 (.gateway (.time .epoch)),
      .answer 0 (.gateway .proceed)] ++
      writing 1 1 8 ++
        [.arrive 1
            (.decide 7
              (.object
                [("decision", .string "granted"),
                  ("reason", .string "fine")])),
          .answer 1 (.gateway .proceed),
          .answer 1 (.gateway .proceed),
          .answer 0 (.gateway .proceed)] ++
          writing 2 2 8 ++ writing 5 3 5

/-- The row of the approval 7. -/
def approvalSeven? : Entry → Option HumanApproval
  | .ofRow (.chained (.humanApproval row)) =>
      if row.id = 7 then some row else none
  | _ => none

/--
Whatever is on record about the outcome of an approval was decided.  An outcome
has its request on record, and a decide call has delivered the decision to it;
a row has its outcome on record, with the decision that the row names.
-/
theorem approvals_genuine
    (reached : Reachable (deployed Client service setup) unrestricted world) :
    (∀ event : Event,
        .ofRow (.chained (.event event)) ∈ world.shared.ledger.committed →
          event.kind ∈ ["approval_granted", "approval_denied"] →
            OutcomeGenuine setup world event) ∧
      ∀ row : HumanApproval,
        .ofRow (.chained (.humanApproval row)) ∈
            world.shared.ledger.committed →
          RowGenuine world row :=
  ⟨fun _ member concludes => outcome_genuine reached member concludes,
    fun _ member => row_genuine reached member⟩

/-- The granted approval has its row, and the decision behind it. -/
theorem approvals_genuine_grantedMoves :
    ∃ (world : DeployedWorld Nat) (row : HumanApproval)
      (decision : Decision),
      Reachable (deployed Nat mailService trustedSetup) unrestricted world ∧
        .ofRow (.chained (.humanApproval row)) ∈
            world.shared.ledger.committed ∧
          row.id = 7 ∧ row.decision = decisionLabel decision ∧
            Delivered world.shared.gateway.history 7 row.runId row.tool
              decision := by
  rcases
      Reachable.exists_of_replay unrestricted_of_anyMove
        (initial_idleDeployment mailService trustedSetup) grantedMoves
        (fun world =>
          (world.shared.ledger.committed.findSome? approvalSeven?).isSome)
        (by decide +kernel) with
    ⟨world, reached, found⟩
  rcases Option.isSome_iff_exists.mp found with ⟨row, found⟩
  rcases List.exists_of_findSome?_eq_some found with ⟨entry, member, isSeven⟩
  unfold approvalSeven? at isSeven
  split at isSeven
  · split at isSeven
    · rename_i same
      cases isSeven
      rcases (approvals_genuine reached).2 row member with
        ⟨decision, outcome, delivered, label, _⟩
      rw [same] at delivered
      exact ⟨world, row, decision, reached, member, same, label, delivered⟩
    · cases isSeven
  · cases isSeven

end Trackward.Gateway.GenuineApprovals
