import Trackward.Gateway.DecideCalls
import Trackward.Gateway.Histories

/-!
# When a decision is lost

A decide call is answered ok as soon as its decision is on the channel of the
request.  The request records it later, so a decision is lost if the request
is dropped, or the ledger refuses, in between; and only then.
-/

namespace Trackward.Gateway.LostDecisions

open Trackward.ChainCore.Chrono
open Trackward.ChainCore.Encode
open Trackward.Gateway.ApprovalCalls
open Trackward.Gateway.ApprovalChannels
open Trackward.Gateway.ApprovalHandover
open Trackward.Gateway.Calls
open Trackward.Gateway.DecideCalls
open Trackward.Gateway.Handlers
open Trackward.Gateway.Histories
open Trackward.Lib.Logs
open Trackward.Lib.Programs
open Trackward.Lib.Sessions

/-- A write that records a decision. -/
def recordsOutcome : Op → Bool
  | .ledger (.appendEvent _ kind _) =>
      kind ∈ ["approval_granted", "approval_denied"]
  | _ => false

theorem recordsOutcome_cases {op : Op} (records : recordsOutcome op = true) :
    ∃ runId kind body,
      op = .ledger (.appendEvent runId kind body) ∧
        kind ∈ ["approval_granted", "approval_denied"] := by
  unfold recordsOutcome at records
  split at records
  · exact ⟨_, _, _, rfl, of_decide_eq_true records⟩
  · cases records

variable {Client : Type}

/-- A decision was sent on a channel before a place. -/
def SentBefore (log : GatewayLog Client) (place channel : Nat) : Prop :=
  ∃ earlier < place, ∃ id pending decision,
    Happens log earlier ⟨.send id pending decision, true⟩ ∧
      pending.decisionTx = channel

variable [DecidableEq Client]

/--
A request to which a decision was sent does not depart before the ledger has
carried out the write that records it, nor fail for want of the event that
announces it; and the ledger refuses no event that records a decision.
-/
structure Undisturbed (log : GatewayLog Client) : Prop where
  departs :
    ∀ place client, ∀ channel : Nat,
      log[place]? = some (.departed client) →
        ⟨.channel, channel⟩ ∈ own client (log.take place) →
          SentBefore log place channel →
            ∃ event ∈ own client (log.take place),
              recordsOutcome event.op = true
  drops :
    ∀ place channel, Happens log place ⟨.dropReceiver channel, ()⟩ →
      ¬ SentBefore log place channel
  refuses :
    ∀ place : Nat, ∀ client text, ∀ event : GatewayEvent,
      log[place]? = some (.called client (.refuse text) event) →
        recordsOutcome event.op = false

/-- No handler is in flight. -/
def Quiescent (world : GatewayWorld Client) : Prop :=
  ∀ client session, world.sessions client = some session →
    session.program.ended ≠ none

/-- The ledger has an event with an id and a decision. -/
def Recorded (history : List Happening) (id : Uuid) (decision : Decision) :
    Prop :=
  ∃ ticket : Ticket, ticket.approvalId = id ∧
    ∃ eventId seq, .wrote (ticket.outcome decision) eventId seq ∈ history

variable {service : Service} {log : GatewayLog Client}
variable {world : GatewayWorld Client}

/-- The session that is to record a decision asks the ledger to. -/
theorem recorded_of_outcome (run : GatewayRun Client service log world)
    (undisturbed : Undisturbed log) {sending insertion last place : Nat}
    {id : Uuid} {pending : PendingApproval} {decision : Decision}
    (sent : Happens log sending ⟨.send id pending decision, true⟩)
    {client : Client} {ticket : Ticket} {opening : List GatewayEvent}
    (inserts : Inserts log insertion client ticket opening)
    (sameId : id = ticket.approvalId) (samePending : pending = ticket.pending)
    (stays : Remains client log insertion last) (before : insertion < last)
    {choice : Choice} {event : GatewayEvent}
    (here : log[place]? = some (.called client choice event))
    (within : place < last) (remains : Remains client log place last)
    (records : recordsOutcome event.op = true) :
    Recorded world.shared.history id decision := by
  have unrefused : ∀ text, choice ≠ .refuse text := by
    rintro text rfl
    rw [undisturbed.refuses place client text event here] at records
    cases records
  have proceeds := proceeds_at run here
  rcases event with ⟨op, answer⟩
  rcases recordsOutcome_cases records with
    ⟨runId, kind, body, rfl, isOutcome⟩
  have about : kind ∈ approvalKinds := List.mem_cons_of_mem _ isOutcome
  rcases proceeds.of_append about with
    ⟨opening', ticket', _, _, same⟩ |
    ⟨opening', ticket', reply, made, quiet, past, same⟩
  · rw [Ticket.request, LedgerCall.appendEvent.injEq] at same
    rw [same.2.1] at isOutcome
    exact absurd isOutcome (by decide)
  · have waiting :
        own client (log.take place) =
          ticket'.waiting opening' ++
            [⟨.ledger ticket'.request, .ok reply⟩,
              ⟨.receive ticket'.channel, .ok made⟩] := by
      rw [past, Ticket.decided, Ticket.requested, List.append_assoc]
      rfl
    rcases exists_inserts_at run here quiet waiting with
      ⟨insertion', earlier, inserts', since⟩
    have together :=
      inserts.eq_of_stays run inserts' before (Nat.lt_trans earlier within)
        stays (since.trans here remains)
    subst together
    rcases inserts.same_of_place inserts' with ⟨_, ids, pendings⟩
    rcases run.at here with
      ⟨middle, request, calls, next, shared, shorter, present, _⟩
    have decided :
        own client (log.take place) =
          ticket'.decided opening' reply made ++ [] := by
      rw [past, List.append_nil]
    rcases sent_of_decided shorter present quiet decided with
      ⟨sending', sent'⟩
    have sent'' := (happens_of_take sent').2
    have channels :
        pending.decisionTx = ticket'.pending.decisionTx :=
      congrArg PendingApproval.decisionTx (samePending.trans pendings)
    have places := sent_eq_of_channel run sent sent'' channels
    subst places
    rcases sent with ⟨decider, choice', one⟩
    rcases sent'' with ⟨decider', choice'', other⟩
    have sameOp :
        Op.send id pending decision =
          .send ticket'.approvalId ticket'.pending made :=
      congrArg Program.Event.op (called_inj one other).2.2
    rcases wrote_of_called run here unrefused with ⟨eventId, seq, member⟩
    rw [same] at member
    rw [(Op.send.inj sameOp).2.2]
    exact ⟨ticket', (sameId.trans ids).symm, eventId, seq, member⟩

/-- It is enough that its session has asked. -/
theorem recorded_of_own (run : GatewayRun Client service log world)
    (undisturbed : Undisturbed log) {sending insertion last : Nat}
    {id : Uuid} {pending : PendingApproval} {decision : Decision}
    (sent : Happens log sending ⟨.send id pending decision, true⟩)
    {client : Client} {ticket : Ticket} {opening : List GatewayEvent}
    (inserts : Inserts log insertion client ticket opening)
    (sameId : id = ticket.approvalId) (samePending : pending = ticket.pending)
    (stays : Remains client log insertion last) (before : insertion < last)
    {event : GatewayEvent} (member : event ∈ own client (log.take last))
    (records : recordsOutcome event.op = true) :
    Recorded world.shared.history id decision := by
  rcases inserts.here with ⟨choice, here⟩
  rcases run.take last with ⟨middle, shorter⟩
  have present :=
    shorter.present_of_remains (at_take before here) rfl stays.take
  rcases Option.ne_none_iff_exists'.mp present with ⟨session, there⟩
  rcases List.append_of_mem member with ⟨earlier, later, split⟩
  rcases shorter.exists_answered there split with
    ⟨place, ⟨choice', asked⟩, _, remains⟩
  rcases at_of_take asked with ⟨within, asked'⟩
  refine
    recorded_of_outcome run undisturbed sent inserts sameId samePending stays
      before asked' within ?_ records
  intro other after less departed
  exact
    remains other after (lt_length_of_at (at_take less departed))
      (at_take less departed)

theorem recordsOutcome_outcome (ticket : Ticket) (decision : Decision) :
    recordsOutcome (.ledger (ticket.outcome decision)) = true := by
  rcases decision with ⟨granted, reason⟩
  cases granted with
  | true => rfl
  | false => rfl

/-- A request that has stopped waiting was sent its decision before. -/
theorem sending_lt_of_stopped (run : GatewayRun Client service log world)
    {sending : Nat} {id : Uuid} {pending : PendingApproval}
    {decision : Decision}
    (sent : Happens log sending ⟨.send id pending decision, true⟩)
    (delivery : Delivery log sending id pending)
    (stays :
      Remains delivery.requester log delivery.insertion log.length)
    {place : Nat} {choice : Choice} {event : GatewayEvent}
    (here : log[place]? = some (.called delivery.requester choice event))
    {ticket : Ticket} {opening rest : List GatewayEvent}
    (quiet : ∀ event ∈ opening, Quiet event.op)
    (past :
      own delivery.requester (log.take place) =
        ticket.waiting opening ++ rest)
    (remains : Remains delivery.requester log place log.length)
    (stops :
      event.op = .receive ticket.channel ∨
        event.op = .dropReceiver ticket.channel) :
    sending < place ∧ ticket.channel = pending.decisionTx := by
  rcases exists_inserts_at run here quiet past with
    ⟨insertion, before, inserts, since⟩
  have together :=
    delivery.inserts.eq_of_stays run inserts
      (Nat.lt_trans (Nat.lt_trans delivery.insertion_lt delivery.removal_lt)
        sent.lt)
      (Nat.lt_trans before (lt_length_of_at here)) stays
      (since.trans here remains)
  subst together
  have pendings := (delivery.inserts.same_of_place inserts).2.2
  have channels : ticket.channel = pending.decisionTx :=
    (congrArg PendingApproval.decisionTx
      (delivery.samePending.trans pendings)).symm
  refine ⟨?_, channels⟩
  rcases waits_of_sent run sent with
    ⟨origin, _, requester, opens, opened, _, waits⟩
  rcases inserts.channel_at run with ⟨origin', earlier, ⟨opens', opened'⟩, _⟩
  rw [channels] at opened'
  have origins : origin = origin' :=
    channel_inj run ⟨_, _, opened⟩ ⟨_, _, opened'⟩
  rcases Nat.lt_trichotomy sending place with less | same | more
  · exact less
  · rcases sent with ⟨decider, sends, there⟩
    rw [same] at there
    have sameOp := congrArg Program.Event.op (called_inj there here).2.2
    rcases stops with stop | stop
    · rw [stop] at sameOp
      cases sameOp
    · rw [stop] at sameOp
      cases sameOp
  · have waiting :=
      waits place event (by omega) more ⟨delivery.requester, choice, here⟩
    rw [← channels] at waiting
    rcases stops with stop | stop
    · exact absurd stop waiting.1
    · exact absurd stop waiting.2

/-- A request that does not depart records its decision. -/
theorem recorded_of_stays (run : GatewayRun Client service log world)
    (undisturbed : Undisturbed log) (quiescent : Quiescent world)
    {sending : Nat} {id : Uuid} {pending : PendingApproval}
    {decision : Decision}
    (sent : Happens log sending ⟨.send id pending decision, true⟩)
    (delivery : Delivery log sending id pending)
    (stays :
      Remains delivery.requester log delivery.insertion log.length) :
    Recorded world.shared.history id decision := by
  have before : delivery.insertion < log.length :=
    Nat.lt_trans (Nat.lt_trans delivery.insertion_lt delivery.removal_lt)
      sent.lt
  rcases delivery.inserts.here with ⟨choice, here⟩
  have inserted :
      ⟨.insertPending delivery.ticket.approvalId delivery.ticket.pending,
          ()⟩ ∈
        own delivery.requester log := by
    rcases run.own_of_stays here stays with ⟨after, split⟩
    rw [split]
    exact List.mem_append_right _ List.mem_cons_self
  rcases Option.ne_none_iff_exists'.mp
      (run.present_of_remains here rfl stays) with
    ⟨session, present⟩
  rcases Option.ne_none_iff_exists'.mp
      (quiescent delivery.requester session present) with
    ⟨outcome, returned⟩
  have ends := run.ended (fun _ => tracks_serve _) present returned
  have asked {event : GatewayEvent}
      (member : event ∈ own delivery.requester log)
      (records : recordsOutcome event.op = true) :
      Recorded world.shared.history id decision := by
    have inside : event ∈ own delivery.requester (log.take log.length) := by
      rw [List.take_length]
      exact member
    exact
      recorded_of_own run undisturbed sent delivery.inserts delivery.sameId
        delivery.samePending stays before inside records
  generalize past : own delivery.requester log = events at ends inserted asked
  cases ends with
  | failed quiet error => cases quiet _ inserted
  | proxied quiet status runId body => cases quiet _ inserted
  | unrequested ticket text quiet error =>
      rcases run.exists_answered present past with
        ⟨place, ⟨choice', dropped⟩, earlier, remains⟩
      have stopped :=
        sending_lt_of_stopped run sent delivery stays dropped quiet earlier
          remains (Or.inr rfl)
      exact
        absurd ⟨sending, stopped.1, id, pending, decision, sent,
            stopped.2.symm⟩
          (undisturbed.drops place ticket.channel
            ⟨delivery.requester, choice', dropped⟩)
  | closed ticket reply quiet error =>
      rcases run.exists_answered present past with
        ⟨place, ⟨choice', closed⟩, earlier, remains⟩
      have stopped :=
        sending_lt_of_stopped run sent delivery stays closed quiet earlier
          remains (Or.inl rfl)
      rw [stopped.2] at closed
      exact
        absurd stopped.1
          (not_sent_of_closed run ⟨delivery.requester, choice', closed⟩ sent)
  | @unrecorded opening ticket reply made text quiet error =>
      have inside :
          ⟨.ledger (ticket.outcome made), .error text⟩ ∈
            ticket.concluded opening reply made (.error text) :=
        List.mem_append_right _ (List.mem_singleton.mpr rfl)
      exact asked inside (recordsOutcome_outcome ticket made)
  | @answered opening ticket reply last made evidence quiet =>
      have inside :
          ⟨.ledger (ticket.outcome made), .ok last⟩ ∈
            ticket.concluded opening reply made (.ok last) :=
        List.mem_append_right _ (List.mem_singleton.mpr rfl)
      exact
        asked (List.mem_append_left _ inside)
          (recordsOutcome_outcome ticket made)
  | unknown id error => cases List.mem_singleton.mp inserted
  | malformed id pending error =>
      rcases List.mem_append.mp inserted with first | second
      · cases List.mem_singleton.mp first
      · cases List.mem_singleton.mp second
  | undelivered id pending made error =>
      rcases List.mem_append.mp inserted with first | second
      · cases List.mem_singleton.mp first
      · cases List.mem_singleton.mp second
  | delivered id pending made =>
      rcases List.mem_append.mp inserted with first | second
      · cases List.mem_singleton.mp first
      · cases List.mem_singleton.mp second

/-! ## Two runs -/

/-- A gateway without tools. -/
def approvalService : Service where
  runtime :=
    { parseUuid := fun _ => none
      jsonFromSlice := fun _ => none
      fromUtf8Lossy := fun _ => ""
      debug := id }
  config := { toolRoutes := ⟨[], by decide⟩, gatedTools := [] }
  binding := ⟨none, none, none⟩

/-- Nobody has come yet. -/
def idleGateway : GatewayWorld Nat :=
  ⟨.initial, fun _ => none⟩

theorem initial_idleGateway :
    (gateway Nat approvalService).initial idleGateway :=
  ⟨rfl, fun _ => rfl⟩

/-- A request is granted while it waits. -/
def grantedMoves : List (Move Nat Request Choice) :=
  [.arrive 0 (.approval none (.object [("tool", .string "bash")])),
    .answer 0 (.accept 1 0),
    .answer 0 (.mint 7),
    .answer 0 .proceed,
    .answer 0 (.time .epoch),
    .answer 0 .proceed,
    .answer 0 (.accept 2 1),
    .arrive 1 (.decide 7 (.object [("decision", .string "granted")])),
    .answer 1 .proceed,
    .answer 1 .proceed]

/-- It goes on to record the decision. -/
def recordingMoves : List (Move Nat Request Choice) :=
  [.answer 0 .proceed, .answer 0 (.accept 3 2), .answer 0 (.accept 4 0)]

/-- No handler of the log is in flight, and a decision was sent for the id. -/
def settled (log : GatewayLog Nat) (world : GatewayWorld Nat) : Bool :=
  log.all (fun entry =>
      match entry with
      | .arrived client _ =>
          (world.sessions client).all fun session =>
            session.program.ended.isSome
      | _ => true) &&
    log.any fun entry =>
      match entry with
      | .called _ _ ⟨.send id _ _, true⟩ => id = 7
      | _ => false

/-- If the handlers of all who have arrived have ended, nobody is in flight. -/
theorem quiescent_of_arrived {log : GatewayLog Nat}
    {world : GatewayWorld Nat}
    (run : GatewayRun Nat approvalService log world)
    (ended :
      ∀ client request, .arrived client request ∈ log →
        (world.sessions client).all
            (fun session => session.program.ended.isSome) =
          true) : Quiescent world := by
  intro client session present
  rcases run.exists_arrival present with ⟨place, arrived, _⟩
  have found := ended client _ (List.mem_of_getElem? arrived)
  simpa [present, Option.isSome_iff_ne_none] using found

theorem exists_okDecide_of_settled {log : GatewayLog Nat}
    {world : GatewayWorld Nat}
    (run : GatewayRun Nat approvalService log world)
    (checked : settled log world = true) :
    Quiescent world ∧
      ∃ arrival last client decision,
        OkDecide approvalService log arrival last client 7 decision := by
  rw [settled, Bool.and_eq_true, List.all_eq_true, List.any_eq_true]
    at checked
  rcases checked with ⟨ended, entry, member, sends⟩
  constructor
  · exact quiescent_of_arrived run fun client request arrived =>
      ended _ arrived
  · rcases List.mem_iff_getElem?.mp member with ⟨place, here⟩
    split at sends
    · rename_i client choice id pending decision
      have same : id = 7 := of_decide_eq_true sends
      subst same
      rcases okDecide_of_sent run here with ⟨arrival, okay⟩
      exact ⟨arrival, place + 1, client, decision, okay⟩
    · cases sends

/-- A schedule that plays through and passes a check is a run. -/
theorem exists_gatewayRun (moves : List (Move Nat Request Choice))
    (check : GatewayLog Nat → GatewayWorld Nat → Bool)
    (played :
      (play (host Nat) (serve approvalService) [] idleGateway moves).any
          (fun run => check run.1 run.2) =
        true) :
    ∃ log world,
      GatewayRun Nat approvalService log world ∧ check log world = true :=
  exists_logged_of_play initial_idleGateway moves check played

/-- Nobody departs, nothing is refused and no receiver is dropped. -/
def calm (log : GatewayLog Nat) : Bool :=
  log.all fun entry =>
    match entry with
    | .departed _ => false
    | .called _ (.refuse _) _ => false
    | .called _ _ ⟨.dropReceiver _, _⟩ => false
    | _ => true

theorem undisturbed_of_calm {log : GatewayLog Nat}
    (checked : calm log = true) : Undisturbed log := by
  have entryCalm {place : Nat}
      {entry : Entry gatewayHost Nat Request Choice}
      (here : log[place]? = some entry) :=
    List.all_eq_true.mp checked entry (List.mem_of_getElem? here)
  constructor
  · intro place client channel departed
    cases entryCalm departed
  · rintro place channel ⟨client, choice, dropped⟩
    have calmly := entryCalm dropped
    cases choice with
    | refuse text => cases calmly
    | _ => cases calmly
  · intro place client text event refused
    cases entryCalm refused

/-- No event of the history records a decision. -/
def unrecorded (history : List Happening) : Bool :=
  history.all fun what =>
    match what with
    | .wrote call _ _ => !recordsOutcome (.ledger call)
    | _ => true

theorem not_recorded {history : List Happening}
    (checked : unrecorded history = true) (id : Uuid) (decision : Decision) :
    ¬ Recorded history id decision := by
  rintro ⟨ticket, _, eventId, seq, member⟩
  have nothing := List.all_eq_true.mp checked _ member
  change (!recordsOutcome (.ledger (ticket.outcome decision))) = true
    at nothing
  rw [recordsOutcome_outcome] at nothing
  cases nothing

/--
In a run in which no request is disturbed between a decision and its record,
every decision for which a decide call was answered ok is in the ledger when
no handler is in flight.
-/
theorem recorded_of_undisturbed (run : GatewayRun Client service log world)
    (undisturbed : Undisturbed log) (quiescent : Quiescent world)
    {arrival last : Nat} {client : Client} {id : Uuid} {decision : Decision}
    (okay : OkDecide service log arrival last client id decision) :
    Recorded world.shared.history id decision := by
  rcases okay.sent with ⟨sending, choice, pending, here, _, _⟩
  have sent : Happens log sending ⟨.send id pending decision, true⟩ :=
    ⟨client, choice, here⟩
  rcases exists_delivery run here with ⟨delivery, _⟩
  rcases waits_of_sent run sent with
    ⟨origin, before, requester, choice', opened, remains, waits⟩
  rcases delivery.inserts.channel_at run with
    ⟨origin', earlier, ⟨choice'', opened'⟩, remains'⟩
  have channels : delivery.ticket.channel = pending.decisionTx :=
    (congrArg PendingApproval.decisionTx delivery.samePending).symm
  rw [channels] at opened'
  have origins : origin = origin' :=
    channel_inj run ⟨_, _, opened⟩ ⟨_, _, opened'⟩
  subst origins
  have requesters := (called_inj opened opened').1
  have inserted := delivery.insertion_lt
  have removed := delivery.removal_lt
  rcases remains_or_departs log requester origin log.length with
    stays | ⟨departure, later, within, departed, stays⟩
  · exact recorded_of_stays run undisturbed quiescent sent delivery
      fun place after less => requesters ▸ stays place (by omega) less
  · have sendingFirst : sending < departure := by
      rcases Nat.lt_trichotomy sending departure with less | rfl | more
      · exact less
      · rw [here] at departed
        cases departed
      · exact absurd departed (remains departure later more)
    have channel :
        ⟨.channel, pending.decisionTx⟩ ∈
          own requester (log.take departure) := by
      rcases run.own_of_remains opened later stays with ⟨after, split⟩
      rw [split]
      exact List.mem_append_right _ List.mem_cons_self
    rcases undisturbed.departs departure requester pending.decisionTx departed
        channel ⟨sending, sendingFirst, id, pending, decision, sent, rfl⟩ with
      ⟨event, member, records⟩
    have inserts := delivery.inserts
    rw [← requesters] at inserts
    exact
      recorded_of_own run undisturbed sent inserts delivery.sameId
        delivery.samePending
        (fun place after less => stays place (by omega) less) (by omega)
        member records

/-- A decision that nothing disturbs is recorded. -/
theorem recorded_recordingMoves :
    ∃ (log : GatewayLog Nat) (world : GatewayWorld Nat)
      (arrival last client : Nat) (decision : Decision),
      GatewayRun Nat approvalService log world ∧ Quiescent world ∧
        OkDecide approvalService log arrival last client 7 decision ∧
          Recorded world.shared.history 7 decision := by
  rcases exists_gatewayRun (grantedMoves ++ recordingMoves)
      (fun log world => settled log world && calm log) (by decide) with
    ⟨log, world, run, checked⟩
  rw [Bool.and_eq_true] at checked
  rcases exists_okDecide_of_settled run checked.1 with
    ⟨quiescent, arrival, last, client, decision, okay⟩
  exact
    ⟨log, world, arrival, last, client, decision, run, quiescent, okay,
      recorded_of_undisturbed run (undisturbed_of_calm checked.2) quiescent
        okay⟩

/-- A decision is lost if the client of its request disconnects. -/
theorem not_recorded_departure :
    ∃ (log : GatewayLog Nat) (world : GatewayWorld Nat)
      (arrival last client : Nat) (decision : Decision),
      GatewayRun Nat approvalService log world ∧ Quiescent world ∧
        OkDecide approvalService log arrival last client 7 decision ∧
          ¬ Recorded world.shared.history 7 decision := by
  rcases exists_gatewayRun (grantedMoves ++ [.depart 0])
      (fun log world => settled log world && unrecorded world.shared.history)
      (by decide) with
    ⟨log, world, run, checked⟩
  rw [Bool.and_eq_true] at checked
  rcases exists_okDecide_of_settled run checked.1 with
    ⟨quiescent, arrival, last, client, decision, okay⟩
  exact
    ⟨log, world, arrival, last, client, decision, run, quiescent, okay,
      not_recorded checked.2 7 decision⟩

end Trackward.Gateway.LostDecisions
