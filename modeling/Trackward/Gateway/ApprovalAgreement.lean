import Trackward.Gateway.ApprovalEvents
import Trackward.Ledger.EventSequence

/-!
# Agreement about approvals

A request that is answered agrees with the one decide call that was answered ok
for its id, and with the records of the ledger: the run has the request and the
decision as two events, in this order, and every row about the approval names
the same decision.
-/

namespace Trackward.Gateway.ApprovalAgreement

open Trackward.ChainCore.Chrono
open Trackward.ChainCore.Encode
open Trackward.ChainCore.JsonValue
open Trackward.ChainCore.UuidTexts
open Trackward.Gateway.ApprovalCalls
open Trackward.Gateway.ApprovalChannels
open Trackward.Gateway.ApprovalEvents
open Trackward.Gateway.ApprovalHandover
open Trackward.Gateway.Calls hiding ledger
open Trackward.Gateway.DecideCalls
open Trackward.Gateway.Handlers
open Trackward.Gateway.Histories
open Trackward.Gateway.LostDecisions (approvalService exists_gatewayRun)
open Trackward.Ledger.Concurrency
  (LedgerWorld answers initial_resting ledger plainService resting runSeven)
open Trackward.Ledger.EventSequence
open Trackward.Ledger.Models
open Trackward.Lib.Growth
open Trackward.Lib.Logs
open Trackward.Lib.Programs
open Trackward.Lib.Runs
open Trackward.Lib.Sessions

variable {Client : Type} [DecidableEq Client] {service : Service}
variable {log : GatewayLog Client} {world : GatewayWorld Client}

/-- A request has been answered with a decision before a place. -/
def OkRequest (service : Service) (log : GatewayLog Client) (last : Nat)
    (client : Client) (runId id : Uuid) (label : String)
    (reason : Option String) : Prop :=
  ∃ middle session,
    GatewayRun Client service (log.take last) middle ∧
      middle.sessions client = some session ∧
        session.program.ended =
          some (.ok (.answered runId id label reason))

/-! ## What a request that was answered has written -/

/-- The request and the decision, as the ledger is to have them. -/
def outcomeEvents (id : Uuid) (decision : Decision) (first last : Int64) :
    List ApprovalEvent :=
  [⟨"approval_requested", some (uuidText id), first⟩,
    ⟨Ticket.outcomeKind decision, some (uuidText id), last⟩]

theorem outcomeKind_mem (decision : Decision) :
    Ticket.outcomeKind decision ∈ approvalKinds := by
  rw [Ticket.outcomeKind]
  split
  · simp [approvalKinds]
  · simp [approvalKinds]

omit [DecidableEq Client] in
/-- An accepted write about an approval is an event of its run. -/
theorem eventAt_accept {runId id other eventId : Uuid} {seq : Int64}
    {client : Client} {kind : String} {body : Json}
    {answer : Except String EventResponse} (about : kind ∈ approvalKinds)
    (carries : idOf body = some (uuidText id)) :
    eventAt other id
        (.called client (.accept eventId seq)
          ⟨.ledger (.appendEvent runId kind body), answer⟩) =
      if runId = other then some ⟨kind, some (uuidText id), seq⟩
      else none := by
  by_cases same : runId = other
  · simp [eventAt, happening, happened, writtenEvent, approvalEvent, about,
      carries, same]
  · simp [eventAt, happening, happened, writtenEvent, same]

section Accepted

variable {ticket : Ticket} {other eventId : Uuid} {seq : Int64}
variable {client : Client} {answer : Except String EventResponse}

omit [DecidableEq Client] in
theorem eventAt_request :
    eventAt other ticket.approvalId
        (.called client (.accept eventId seq)
          ⟨.ledger ticket.request, answer⟩) =
      if ticket.runId = other then
        some ⟨"approval_requested", some (uuidText ticket.approvalId), seq⟩
      else none :=
  eventAt_accept (by simp [approvalKinds]) (idOf_requestedBody _ _)

omit [DecidableEq Client] in
theorem eventAt_outcome {decision : Decision} :
    eventAt other ticket.approvalId
        (.called client (.accept eventId seq)
          ⟨.ledger (ticket.outcome decision), answer⟩) =
      if ticket.runId = other then
        some
          ⟨Ticket.outcomeKind decision, some (uuidText ticket.approvalId),
            seq⟩
      else none :=
  eventAt_accept (outcomeKind_mem decision) (idOf_object _)

end Accepted

/-- The events about an approval are listed by the log. -/
theorem eventsAbout_writtenEvents
    (run : GatewayRun Client service log world) (runId id : Uuid) :
    eventsAbout id (writtenEvents runId world.shared.history) =
      log.filterMap (eventAt runId id) := by
  rw [history_of_run run, writtenEvents, eventsAbout, List.filterMap_filterMap,
    List.filter_filterMap]
  rfl

/-- Where the session of an approval has written about it. -/
structure Announced (log : GatewayLog Client) (ticket : Ticket)
    (client : Client) (first second : Nat) (one other : Int64)
    (decision : Decision) : Prop where
  before : first < second
  requests :
    ∃ id answer,
      log[first]? =
        some
          (.called client (.accept id one) ⟨.ledger ticket.request, answer⟩)
  concludes :
    ∃ id answer,
      log[second]? =
        some
          (.called client (.accept id other)
            ⟨.ledger (ticket.outcome decision), answer⟩)
  only :
    ∀ place runId entry,
      log[place]? = some entry → place ≠ first → place ≠ second →
        eventAt runId ticket.approvalId entry = none

/-- The run of a request that was answered has two events about it. -/
theorem Announced.eventsAbout_eq (run : GatewayRun Client service log world)
    {ticket : Ticket} {client : Client} {first second : Nat}
    {one other : Int64} {decision : Decision}
    (announced :
      Announced log ticket client first second one other decision)
    (runId : Uuid) :
    eventsAbout ticket.approvalId
        (writtenEvents runId world.shared.history) =
      if ticket.runId = runId then
        outcomeEvents ticket.approvalId decision one other
      else [] := by
  rw [eventsAbout_writtenEvents run]
  rcases announced.requests with ⟨eventId, answer, here⟩
  rcases announced.concludes with ⟨eventId', answer', there⟩
  by_cases same : ticket.runId = runId
  · rw [if_pos same]
    exact
      filterMap_eq_pair here there (eventAt_request.trans (if_pos same))
        (eventAt_outcome.trans (if_pos same)) announced.before
        fun place entry found => announced.only place runId entry found
  · rw [if_neg same, List.filterMap_eq_nil_iff]
    intro entry member
    rcases List.mem_iff_getElem?.mp member with ⟨place, found⟩
    by_cases isFirst : place = first
    · subst isFirst
      rw [here, Option.some.injEq] at found
      rw [← found]
      exact eventAt_request.trans (if_neg same)
    · by_cases isSecond : place = second
      · subst isSecond
        rw [there, Option.some.injEq] at found
        rw [← found]
        exact eventAt_outcome.trans (if_neg same)
      · exact announced.only place runId entry found isFirst isSecond

/-- A session that has written the request and the decision is announced. -/
theorem announced_of_follows (run : GatewayRun Client service log world)
    (fresh : Fresh log) {client : Client} {ticket : Ticket}
    {opening rest rest' : List GatewayEvent} {first second : Nat}
    {decision : Decision} {reply reply' : EventResponse}
    (one : Follows log first client ticket opening rest)
    (other : Follows log second client ticket opening rest')
    (isFirst : rest.length = 0) (isSecond : rest'.length = 2)
    (here :
      ∃ choice,
        log[first]? =
          some (.called client choice ⟨.ledger ticket.request, .ok reply⟩))
    (there :
      ∃ choice,
        log[second]? =
          some
            (.called client choice
              ⟨.ledger (ticket.outcome decision), .ok reply'⟩)) :
    ∃ seq seq',
      Announced log ticket client first second seq seq' decision := by
  rcases here with ⟨choice, here⟩
  rcases there with ⟨choice', there⟩
  rcases accepted_of_called run here with ⟨eventId, seq, rfl⟩
  rcases accepted_of_called run there with ⟨eventId', seq', rfl⟩
  refine
    ⟨seq, seq', one.place_lt run fresh other rfl (by omega),
      ⟨eventId, _, here⟩, ⟨eventId', _, there⟩, ?_⟩
  intro place runId entry found notFirst notSecond
  cases counted : eventAt runId ticket.approvalId entry with
  | none => rfl
  | some event =>
      exfalso
      rcases eventAt_cases counted with
        ⟨caller, choice, body, answer, rfl, about, carries⟩
      rcases follows_of_append run found about with
        ⟨ticket', opening', rest'', follows, carries', stage⟩
      have texts : uuidText ticket'.approvalId = uuidText ticket.approvalId :=
        Option.some.inj (carries'.symm.trans carries)
      have same := uuidText_injective texts
      rcases stage with ⟨none, _⟩ | ⟨two, _⟩
      · exact
          notFirst (follows.place_eq run fresh one same (none.trans isFirst.symm))
      · exact
          notSecond
            (follows.place_eq run fresh other same (two.trans isSecond.symm))

/-- A request that was answered has written the request and the decision. -/
theorem announced_of_okRequest (run : GatewayRun Client service log world)
    (fresh : Fresh log) {last : Nat} {client : Client} {runId id : Uuid}
    {label : String} {reason : Option String}
    (okay : OkRequest service log last client runId id label reason) :
    ∃ ticket decision first second one other,
      Announced log ticket client first second one other decision ∧
        runId = ticket.runId ∧ id = ticket.approvalId ∧
          label = decisionLabel decision ∧ reason = decision.reason ∧
            DecidedOk service log ticket.approvalId decision := by
  rcases okay with ⟨middle, session, shorter, present, returned⟩
  have ends := shorter.ended (fun _ => tracks_serve _) present returned
  generalize past : own client (log.take last) = events at ends
  cases ends with
  | @answered opening ticket reply reply' decision evidence quiet =>
      have requested :
          own client (log.take last) =
            ticket.waiting opening ++
              ⟨.ledger ticket.request, .ok reply⟩ ::
                (⟨.receive ticket.channel, .ok decision⟩ ::
                  ⟨.ledger (ticket.outcome decision), .ok reply'⟩ ::
                    [⟨.ledger (ticket.row decision), evidence⟩]) := by
        rw [past, Ticket.concluded, decided_eq_waiting, List.append_assoc,
          List.append_assoc]
        rfl
      have concluded :
          own client (log.take last) =
            ticket.decided opening reply decision ++
              ⟨.ledger (ticket.outcome decision), .ok reply'⟩ ::
                [⟨.ledger (ticket.row decision), evidence⟩] := by
        rw [past, Ticket.concluded, List.append_assoc]
        rfl
      rcases shorter.exists_before present requested with
        ⟨first, _, ⟨choice, here⟩, waited⟩
      rcases shorter.exists_before present concluded with
        ⟨second, _, ⟨choice', there⟩, decided⟩
      have one : Follows log first client ticket opening [] :=
        ⟨⟨choice, _, here⟩, waited.trans (List.append_nil _).symm, quiet⟩
      have other :
          Follows log second client ticket opening
            [⟨.ledger ticket.request, .ok reply⟩,
              ⟨.receive ticket.channel, .ok decision⟩] :=
        ⟨⟨choice', _, there⟩, decided.trans (decided_eq_waiting ..), quiet⟩
      rcases announced_of_follows run fresh one other rfl rfl ⟨choice, here⟩
          ⟨choice', there⟩ with
        ⟨seq, seq', announced⟩
      exact
        ⟨ticket, decision, first, second, seq, seq', announced, rfl, rfl,
          rfl, rfl,
          decidedOk_of_past run there quiet
            (decided.trans (List.append_nil _).symm)⟩

/-! ## Whatever was written has a decision -/

/-- An event about an approval has its id, and a decision if it records one. -/
theorem decidedOk_of_writtenEvents
    (run : GatewayRun Client service log world) {runId : Uuid}
    {event : ApprovalEvent}
    (member : event ∈ writtenEvents runId world.shared.history) :
    ∃ id, event.id = some (uuidText id) ∧
      (event.kind = "approval_requested" ∨
        ∃ decision, event.kind = Ticket.outcomeKind decision ∧
          DecidedOk service log id decision) := by
  rcases List.mem_filterMap.mp member with ⟨what, written, found⟩
  rcases writtenEvent_cases found with ⟨body, eventId, rfl, about, carries⟩
  rw [history_of_run run] at written
  rcases List.mem_filterMap.mp written with ⟨entry, inside, happens⟩
  rcases called_of_happening happens with ⟨client, choice, answer, rfl⟩
  rcases List.mem_iff_getElem?.mp inside with ⟨place, here⟩
  rcases follows_of_append run here about with
    ⟨ticket, opening, rest, _, carries', stage⟩
  refine ⟨ticket.approvalId, carries.trans carries', ?_⟩
  rcases stage with ⟨_, requested⟩ | ⟨_, concluded⟩
  · exact Or.inl requested
  · exact Or.inr concluded

/-- A row about an approval: its id and the decision it names. -/
structure ApprovalRow where
  id : Uuid
  decision : String
  reason : Option String
deriving DecidableEq

/-- The row about an approval that was written. -/
def writtenRow : Happening → Option ApprovalRow
  | .wrote (.recordHumanApproval id _ _ decision reason _) _ _ =>
      some ⟨id, decision, reason⟩
  | _ => none

/-- The rows about approvals that were written, in order. -/
def writtenRows (history : List Happening) : List ApprovalRow :=
  history.filterMap writtenRow

theorem writtenRow_cases {what : Happening} {row : ApprovalRow}
    (found : writtenRow what = some row) :
    ∃ runId tool requestedAt rowId seq,
      what =
        .wrote
          (.recordHumanApproval row.id runId tool row.decision row.reason
            requestedAt)
          rowId seq := by
  unfold writtenRow at found
  split at found
  · cases found
    exact ⟨_, _, _, _, _, rfl⟩
  · cases found

/-- A row about an approval names a decision of its id. -/
theorem decidedOk_of_writtenRows
    (run : GatewayRun Client service log world) {row : ApprovalRow}
    (member : row ∈ writtenRows world.shared.history) :
    ∃ decision,
      row.decision = decisionLabel decision ∧ row.reason = decision.reason ∧
        DecidedOk service log row.id decision := by
  rcases List.mem_filterMap.mp member with ⟨what, written, found⟩
  rcases writtenRow_cases found with
    ⟨runId, tool, requestedAt, rowId, seq, rfl⟩
  rw [history_of_run run] at written
  rcases List.mem_filterMap.mp written with ⟨entry, inside, happens⟩
  rcases called_of_happening happens with ⟨client, choice, answer, rfl⟩
  rcases List.mem_iff_getElem?.mp inside with ⟨place, here⟩
  rcases (proceeds_at run here).of_row with
    ⟨opening, ticket, reply, last, made, quiet, past, same⟩
  rw [Ticket.row, LedgerCall.recordHumanApproval.injEq] at same
  refine ⟨made, same.2.2.2.1, same.2.2.2.2.1, ?_⟩
  rw [same.1]
  exact decidedOk_of_past run here quiet past

/-! ## The records of the ledger -/

/-- The events about approvals that the ledger has for a run. -/
def storedEvents (runId : Uuid) (rows : List Row) : List ApprovalEvent :=
  (eventsOf runId rows).filterMap fun event =>
    approvalEvent event.kind event.body event.seq

/-- The rows about approvals that the ledger has. -/
def storedRows (rows : List Row) : List ApprovalRow :=
  (chainedRows rows).filterMap fun row =>
    match row with
    | .humanApproval row => some ⟨row.id, row.decision, row.reason⟩
    | _ => none

/--
The ledger has the approval records that the gateway has written, and no
others.
-/
structure Keeps (history : List Happening) (rows : List Row) : Prop where
  events :
    ∀ runId, storedEvents runId rows = writtenEvents runId history
  rows : storedRows rows = writtenRows history

/-- In the order of a run its events about approvals have larger numbers. -/
theorem pairwise_storedEvents {runId : Uuid} {rows : List Row}
    (counted : seqs runId rows = countTo (seqs runId rows).length) :
    (storedEvents runId rows).Pairwise fun one other =>
      one.seq < other.seq := by
  have ordered : (seqs runId rows).Pairwise (· < ·) := by
    rw [counted]
    exact pairwise_countTo _
  rw [seqs, List.pairwise_map] at ordered
  rw [storedEvents, List.pairwise_filterMap]
  apply ordered.imp
  intro first second less one isOne other isOther
  unfold approvalEvent at isOne isOther
  split at isOne
  · split at isOther
    · cases isOne
      cases isOther
      exact Int64.lt_iff_toInt_lt.mpr less
    · cases isOther
  · cases isOne

/-! ## A granted request and its records -/

/-- A request in run 7 with the approval id 1 is granted and recorded. -/
def agreedMoves : List (Move Nat Request Choice) :=
  [.arrive 0 (.approval none (.object [("tool", .string "deploy")])),
    .answer 0 (.accept 7 0),
    .answer 0 (.mint 1),
    .answer 0 .proceed,
    .answer 0 (.time .epoch),
    .answer 0 .proceed,
    .answer 0 (.accept 11 1),
    .arrive 1
      (.decide 1
        (.object
          [("decision", .string "granted"), ("reason", .string "seen")])),
    .answer 1 .proceed,
    .answer 1 .proceed,
    .answer 0 .proceed,
    .answer 0 (.accept 12 2),
    .answer 0 (.accept 1 0)]

def heldEvents : List ApprovalEvent :=
  [⟨"approval_requested", some (uuidText 1), 1⟩,
    ⟨"approval_granted", some (uuidText 1), 2⟩]

def heldRows : List ApprovalRow :=
  [⟨1, "granted", some "seen"⟩]

/-- The ids that were minted. -/
def minted (log : GatewayLog Client) : List Uuid :=
  log.filterMap fun entry =>
    match entry with
    | .called _ _ ⟨.newApprovalId, id⟩ => some id
    | _ => none

omit [DecidableEq Client] in
theorem fresh_of_nodup (distinct : (minted log).Nodup) : Fresh log := by
  have notBefore {first second : Nat} {id : Uuid}
      (one : Happens log first ⟨.newApprovalId, id⟩)
      (other : Happens log second ⟨.newApprovalId, id⟩) :
      ¬ first < second := by
    intro less
    rcases one with ⟨client, choice, here⟩
    rcases other with ⟨client', choice', there⟩
    rw [minted, List.nodup_iff_pairwise_ne, List.pairwise_filterMap] at distinct
    rcases List.getElem?_eq_some_iff.mp here with ⟨small, here⟩
    rcases List.getElem?_eq_some_iff.mp there with ⟨small', there⟩
    have differ := List.pairwise_iff_getElem.mp distinct _ _ small small' less
    rw [here, there] at differ
    exact differ id rfl id rfl rfl
  intro first second id one other
  have less := notBefore one other
  have more := notBefore other one
  omega

/-- The gateway has written the records and answered the request. -/
def wroteHeld (log : GatewayLog Nat) (world : GatewayWorld Nat) : Bool :=
  decide (minted log).Nodup &&
    (writtenEvents 7 world.shared.history = heldEvents &&
      (writtenRows world.shared.history = heldRows &&
        (world.shared.history.all (fun what =>
            match what with
            | .wrote (.appendEvent run _ _) _ _ => run = 7
            | _ => true) &&
          (world.sessions 0).any fun session =>
            match session.program.ended with
            | some (.ok (.answered run id label reason)) =>
                run = 7 && id = 1 && label = "granted" &&
                  reason = some "seen"
            | _ => false)))

/-- The answered request of a log that has passed the check. -/
theorem okRequest_of_wroteHeld {log : GatewayLog Nat}
    {world : GatewayWorld Nat}
    (run : GatewayRun Nat approvalService log world)
    (checked : wroteHeld log world = true) :
    OkRequest approvalService log log.length 0 7 1 "granted"
      (some "seen") := by
  simp only [wroteHeld, Bool.and_eq_true] at checked
  have answered := checked.2.2.2.2
  rw [Option.any_eq_true] at answered
  rcases answered with ⟨session, present, found⟩
  refine ⟨world, session, by rw [List.take_length]; exact run, present, ?_⟩
  split at found
  · rename_i run id label reason returned
    simp only [Bool.and_eq_true, decide_eq_true_eq] at found
    rcases found with ⟨⟨⟨rfl, rfl⟩, rfl⟩, rfl⟩
    exact returned
  · cases found

/-- The ledger appends an event to run 7 for the gateway. -/
def appendRequest (id : Uuid) (kind : String) (body : Json) :
    Trackward.Ledger.Concurrency.Request :=
  .write
    (.event "gateway" id 7
      { kind := kind
        body := body
        occurredAt := DateTime.epoch })

/-- The row of the decision. -/
def rowRequest : Trackward.Ledger.Concurrency.Request :=
  .write
    (.humanApproval "gateway"
      { id := 1
        runId := 7
        tool := "deploy"
        decision := "granted"
        reason := some "seen"
        decidedBy := none
        requestedAt := DateTime.epoch
        decidedAt := DateTime.epoch
        metadata := .null })

/-- The ledger serves the writes of the gateway one after another. -/
def heldSchedule :
    List
      (Move Nat Trackward.Ledger.Concurrency.Request
        (Trackward.Lib.Transactions.Choice Fault)) :=
  .arrive 1
      (appendRequest 11 "approval_requested"
        (requestedBody 1 (.object [("tool", .string "deploy")]))) ::
    answers 1 1 8 ++
      .arrive 2
          (appendRequest 12 "approval_granted"
            (.object
              [("approval_id", .string (uuidText 1)),
                ("tool", .string "deploy"),
                ("reason", .optString (some "seen"))])) ::
        answers 2 2 8 ++ .arrive 3 rowRequest :: answers 3 3 5

/-- The ledger has the records. -/
def hasHeld (store : LedgerWorld Nat) : Bool :=
  storedEvents 7 store.shared.committed = heldEvents &&
    (storedRows store.shared.committed = heldRows &&
      (eventRows store.shared.committed).all fun event => event.runId = 7)

/-- What both have passed the checks for is kept. -/
theorem keeps_of_held {log : GatewayLog Nat} {world : GatewayWorld Nat}
    {store : LedgerWorld Nat} (wrote : wroteHeld log world = true)
    (has : hasHeld store = true) :
    Keeps world.shared.history store.shared.committed := by
  simp only [wroteHeld, Bool.and_eq_true, decide_eq_true_eq] at wrote
  simp only [hasHeld, Bool.and_eq_true, decide_eq_true_eq] at has
  rcases wrote with ⟨_, writtenEvents', writtenRows', written, _⟩
  rcases has with ⟨storedEvents', storedRows', stored⟩
  refine ⟨fun runId => ?_, storedRows'.trans writtenRows'.symm⟩
  by_cases seven : runId = 7
  · rw [seven, storedEvents', writtenEvents']
  · have nothing : eventsOf runId store.shared.committed = [] := by
      rw [eventsOf, List.filter_eq_nil_iff]
      intro event member same
      have inSeven :=
        of_decide_eq_true (List.all_eq_true.mp stored event member)
      exact seven ((of_decide_eq_true same).symm.trans inSeven)
    rw [storedEvents, nothing, List.filterMap_nil, eq_comm, writtenEvents,
      List.filterMap_eq_nil_iff]
    intro what member
    have inSeven := List.all_eq_true.mp written what member
    cases found : writtenEvent runId what with
    | none => rfl
    | some event =>
        rcases writtenEvent_cases found with ⟨body, eventId, rfl, _, _⟩
        exact absurd (of_decide_eq_true inSeven) seven

/-! ## Agreement -/

/-- Decide calls, requests and the records of the ledger agree. -/
structure Agrees (service : Service) (log : GatewayLog Client)
    (rows : List Row) : Prop where
  decides :
    ∀ id arrival arrival' last last' client client' decision decision',
      OkDecide service log arrival last client id decision →
        OkDecide service log arrival' last' client' id decision' →
          arrival = arrival' ∧ decision = decision'
  requests :
    ∀ last client runId id label reason,
      OkRequest service log last client runId id label reason →
        ∃ decision,
          DecidedOk service log id decision ∧
            label = decisionLabel decision ∧ reason = decision.reason ∧
              ∃ first second,
                first < second ∧
                  eventsAbout id (storedEvents runId rows) =
                    outcomeEvents id decision first second
  outcomes :
    ∀ runId, ∀ event ∈ storedEvents runId rows,
      event.kind ≠ "approval_requested" →
        ∃ id decision,
          event.id = some (uuidText id) ∧
            event.kind = Ticket.outcomeKind decision ∧
              DecidedOk service log id decision
  approvals :
    ∀ row ∈ storedRows rows,
      ∃ decision,
        row.decision = decisionLabel decision ∧
          row.reason = decision.reason ∧ DecidedOk service log row.id decision
  consistent :
    ∀ runId, ∀ row ∈ storedRows rows,
      ∀ event ∈ eventsAbout row.id (storedEvents runId rows),
        event.kind ≠ "approval_requested" →
          ∃ decision,
            event.kind = Ticket.outcomeKind decision ∧
              row.decision = decisionLabel decision

/--
For fresh approval ids, and a ledger whose approval records are those the
gateway has written, the decide calls, the answered requests and the records
agree in every state that is reached.
-/
theorem agreement {Writer : Type} [DecidableEq Writer]
    {recorder : Trackward.Ledger.Concurrency.Service}
    {store : LedgerWorld Writer}
    (run : GatewayRun Client service log world) (fresh : Fresh log)
    (reached :
      Reachable (ledger recorder fun rows => eventRows rows = [])
        unrestricted store)
    (keeps : Keeps world.shared.history store.shared.committed) :
    Agrees service log store.shared.committed where
  decides := by
    intro id arrival arrival' last last' client client' decision decision'
      one other
    rcases one.arrival_eq run fresh other with ⟨arrivals, _, decisions⟩
    exact ⟨arrivals, decisions⟩
  requests := by
    intro last client runId id label reason okay
    rcases announced_of_okRequest run fresh okay with
      ⟨ticket, decision, first, second, one, other, announced, rfl, rfl,
        labels, reasons, decided⟩
    have two := announced.eventsAbout_eq run ticket.runId
    rw [if_pos rfl, ← keeps.events] at two
    refine ⟨decision, decided, labels, reasons, one, other, ?_, two⟩
    have counted :=
      @seqs_eq_countTo_of_reachable Writer _ recorder _ ticket.runId
        (fun rows none => by rw [eventsOf, none]; rfl) store reached
    have ordered :=
      (pairwise_storedEvents counted).filter fun event =>
        event.id = some (uuidText ticket.approvalId)
    change (eventsAbout _ _).Pairwise _ at ordered
    rw [two, outcomeEvents, List.pairwise_pair] at ordered
    exact ordered
  outcomes := by
    intro runId event member concludes
    rw [keeps.events] at member
    rcases decidedOk_of_writtenEvents run member with
      ⟨id, carries, requested | ⟨decision, kind, decided⟩⟩
    · exact absurd requested concludes
    · exact ⟨id, decision, carries, kind, decided⟩
  approvals := by
    intro row member
    rw [keeps.rows] at member
    exact decidedOk_of_writtenRows run member
  consistent := by
    intro runId row member event about concludes
    rw [keeps.rows] at member
    rw [keeps.events, eventsAbout, List.mem_filter, decide_eq_true_eq]
      at about
    rcases decidedOk_of_writtenRows run member with
      ⟨decision, label, _, decided⟩
    rcases decidedOk_of_writtenEvents run about.1 with
      ⟨id, carries, requested | ⟨decision', kind, decided'⟩⟩
    · exact absurd requested concludes
    · have texts : uuidText id = uuidText row.id :=
        Option.some.inj (carries.symm.trans about.2)
      have same := uuidText_injective texts
      rw [same] at decided'
      have decisions := decided'.eq run fresh decided
      exact ⟨decision', kind, label.trans (by rw [decisions])⟩

/-- A granted request, its decision and its records agree. -/
theorem agreement_agreedMoves :
    ∃ (log : GatewayLog Nat) (world : GatewayWorld Nat)
      (store : LedgerWorld Nat),
      GatewayRun Nat approvalService log world ∧ Fresh log ∧
        Reachable
            (ledger plainService fun rows => eventRows rows = [])
            unrestricted store ∧
          Keeps world.shared.history store.shared.committed ∧
            OkRequest approvalService log log.length 0 7 1 "granted"
                (some "seen") ∧
              Agrees approvalService log store.shared.committed := by
  rcases exists_gatewayRun agreedMoves wroteHeld (by decide +kernel) with
    ⟨log, world, run, wrote⟩
  have starts :
      (ledger plainService fun rows => eventRows rows = []).initial
        (resting [runSeven]) :=
    initial_resting rfl
  rcases
      Reachable.exists_of_replay unrestricted_of_anyMove starts heldSchedule
        hasHeld (by decide +kernel) with
    ⟨store, reached, has⟩
  have fresh : Fresh log := by
    rw [wroteHeld, Bool.and_eq_true, decide_eq_true_eq] at wrote
    exact fresh_of_nodup wrote.1
  have keeps := keeps_of_held wrote has
  exact
    ⟨log, world, store, run, fresh, reached, keeps,
      okRequest_of_wroteHeld run wrote, agreement run fresh reached keeps⟩

end Trackward.Gateway.ApprovalAgreement
