import Trackward.Gateway.ApprovalCalls

/-!
# From a decision to its request

A decision that was sent can be followed back: it was sent by the session that
removed the approval, which was inserted by the session that opened the
channel.  A channel is opened once, inserted once, removed once and sent on
once; with fresh ids the same holds of an id.
-/

namespace Trackward.Gateway.ApprovalHandover

open Trackward.ChainCore.Encode
open Trackward.Gateway.ApprovalCalls
open Trackward.Gateway.ApprovalChannels
open Trackward.Gateway.Calls
open Trackward.Gateway.Handlers
open Trackward.Lib.Logs
open Trackward.Lib.Programs
open Trackward.Lib.Sessions

variable {Client : Type} [DecidableEq Client] {service : Service}
variable {log : GatewayLog Client} {world : GatewayWorld Client}

theorem proceeds_at (run : GatewayRun Client service log world)
    {place : Nat} {client : Client} {choice : Choice} {event : GatewayEvent}
    (here : log[place]? = some (.called client choice event)) :
    Proceeds (own client (log.take place)) event.op :=
  run.tracked_at tracks_serve here

/-- At a place a request inserts its approval. -/
structure Inserts (log : GatewayLog Client) (place : Nat) (client : Client)
    (ticket : Ticket) (opening : List GatewayEvent) : Prop where
  here :
    ∃ choice,
      log[place]? =
        some
          (.called client choice
            ⟨.insertPending ticket.approvalId ticket.pending, ()⟩)
  past : own client (log.take place) = ticket.opened opening
  quiet : ∀ event ∈ opening, Quiet event.op

/-- What is inserted is inserted by a request. -/
theorem inserts_of_happens (run : GatewayRun Client service log world)
    {place : Nat} {id : Uuid} {pending : PendingApproval}
    (inserted : Happens log place ⟨.insertPending id pending, ()⟩) :
    ∃ client ticket opening,
      Inserts log place client ticket opening ∧ id = ticket.approvalId ∧
        pending = ticket.pending := by
  rcases inserted with ⟨client, choice, here⟩
  rcases (proceeds_at run here).of_insert with
    ⟨opening, ticket, quiet, past, rfl, rfl⟩
  exact ⟨client, ticket, opening, ⟨⟨choice, here⟩, past, quiet⟩, rfl, rfl⟩

theorem not_insert_of_opened {ticket : Ticket}
    {opening : List GatewayEvent}
    (quiet : ∀ event ∈ opening, Quiet event.op) {event : GatewayEvent}
    (member : event ∈ ticket.opened opening) (id : Uuid)
    (pending : PendingApproval) : event.op ≠ .insertPending id pending := by
  intro same
  simp only [Ticket.opened, List.mem_append, List.mem_singleton] at member
  rcases member with ((early | rfl) | rfl) | rfl
  · have silent := quiet event early
    rw [same] at silent
    cases silent
  · cases same
  · cases same
  · cases same

/-- A session inserts one approval. -/
theorem Inserts.not_lt (run : GatewayRun Client service log world)
    {first second : Nat} {client : Client} {ticket ticket' : Ticket}
    {opening opening' : List GatewayEvent}
    (one : Inserts log first client ticket opening)
    (other : Inserts log second client ticket' opening')
    (remains : Remains client log first second) : ¬ first < second := by
  intro less
  rcases one.here with ⟨choice, here⟩
  rcases other.here with ⟨choice', there⟩
  rcases run.own_of_remains here less remains with ⟨after, split⟩
  rw [other.past] at split
  have inside :
      ⟨.insertPending ticket.approvalId ticket.pending, ()⟩ ∈
        ticket'.opened opening' := by
    rw [split]
    exact List.mem_append_right _ List.mem_cons_self
  exact not_insert_of_opened other.quiet inside _ _ rfl

/-- Two insertions after one call of a session are one. -/
theorem Inserts.eq_of_session (run : GatewayRun Client service log world)
    {first second : Nat} {client : Client} {ticket ticket' : Ticket}
    {opening opening' : List GatewayEvent}
    (one : Inserts log first client ticket opening)
    (other : Inserts log second client ticket' opening') {origin : Nat}
    (before : origin < first) (before' : origin < second)
    (remains : Remains client log origin first)
    (remains' : Remains client log origin second) : first = second := by
  have less :=
    one.not_lt run other
      fun place later => remains' place (Nat.lt_trans before later)
  have more :=
    other.not_lt run one
      fun place later => remains place (Nat.lt_trans before' later)
  omega

/-- Two insertions of a session that stays are one. -/
theorem Inserts.eq_of_stays (run : GatewayRun Client service log world)
    {first second last : Nat} {client : Client} {ticket ticket' : Ticket}
    {opening opening' : List GatewayEvent}
    (one : Inserts log first client ticket opening)
    (other : Inserts log second client ticket' opening')
    (before : first < last) (before' : second < last)
    (remains : Remains client log first last)
    (remains' : Remains client log second last) : first = second := by
  have less :=
    one.not_lt run other
      fun place later within => remains place later (by omega)
  have more :=
    other.not_lt run one
      fun place later within => remains' place later (by omega)
  omega

/-- The session that inserts an approval has opened its channel. -/
theorem Inserts.channel_at (run : GatewayRun Client service log world)
    {place : Nat} {client : Client} {ticket : Ticket}
    {opening : List GatewayEvent}
    (inserts : Inserts log place client ticket opening) :
    ∃ origin < place,
      (∃ choice,
          log[origin]? =
            some (.called client choice ⟨.channel, ticket.channel⟩)) ∧
        Remains client log origin place := by
  rcases inserts.here with ⟨choice, here⟩
  have split :
      own client (log.take place) =
        (opening ++ [⟨.newApprovalId, ticket.approvalId⟩]) ++
          ⟨.channel, ticket.channel⟩ :: [⟨.now, ticket.requestedAt⟩] := by
    rw [inserts.past, Ticket.opened, List.append_assoc, List.singleton_append]
  rcases run.exists_at here split with ⟨origin, before, there, _, remains⟩
  exact ⟨origin, before, there, remains⟩

/-- It has minted its id, too. -/
theorem Inserts.mint_at (run : GatewayRun Client service log world)
    {place : Nat} {client : Client} {ticket : Ticket}
    {opening : List GatewayEvent}
    (inserts : Inserts log place client ticket opening) :
    ∃ origin < place,
      (∃ choice,
          log[origin]? =
            some
              (.called client choice ⟨.newApprovalId, ticket.approvalId⟩)) ∧
        Remains client log origin place := by
  rcases inserts.here with ⟨choice, here⟩
  have split :
      own client (log.take place) =
        opening ++
          ⟨.newApprovalId, ticket.approvalId⟩ ::
            [⟨.channel, ticket.channel⟩, ⟨.now, ticket.requestedAt⟩] := by
    rw [inserts.past, Ticket.opened, List.append_assoc, List.append_assoc]
    rfl
  rcases run.exists_at here split with ⟨origin, before, there, _, remains⟩
  exact ⟨origin, before, there, remains⟩

/-- For a channel one approval is inserted. -/
theorem Inserts.eq_of_channel (run : GatewayRun Client service log world)
    {first second : Nat} {client client' : Client} {ticket ticket' : Ticket}
    {opening opening' : List GatewayEvent}
    (one : Inserts log first client ticket opening)
    (other : Inserts log second client' ticket' opening')
    (same : ticket.channel = ticket'.channel) : first = second := by
  rcases one.channel_at run with ⟨origin, before, ⟨choice, here⟩, remains⟩
  rcases other.channel_at run with
    ⟨origin', before', ⟨choice', there⟩, remains'⟩
  rw [← same] at there
  have together : origin = origin' :=
    channel_inj run ⟨client, choice, here⟩ ⟨client', choice', there⟩
  subst together
  rcases called_inj here there with ⟨rfl, _, _⟩
  exact one.eq_of_session run other before before' remains remains'

/-- Every approval gets an id of its own. -/
def Fresh (log : GatewayLog Client) : Prop :=
  ∀ first second id,
    Happens log first ⟨.newApprovalId, id⟩ →
      Happens log second ⟨.newApprovalId, id⟩ → first = second

/-- For a fresh id one approval is inserted. -/
theorem Inserts.eq_of_fresh (run : GatewayRun Client service log world)
    (fresh : Fresh log) {first second : Nat} {client client' : Client}
    {ticket ticket' : Ticket} {opening opening' : List GatewayEvent}
    (one : Inserts log first client ticket opening)
    (other : Inserts log second client' ticket' opening')
    (same : ticket.approvalId = ticket'.approvalId) : first = second := by
  rcases one.mint_at run with ⟨origin, before, ⟨choice, here⟩, remains⟩
  rcases other.mint_at run with
    ⟨origin', before', ⟨choice', there⟩, remains'⟩
  rw [← same] at there
  have together : origin = origin' :=
    fresh origin origin' ticket.approvalId ⟨client, choice, here⟩
      ⟨client', choice', there⟩
  subst together
  rcases called_inj here there with ⟨rfl, _, _⟩
  exact one.eq_of_session run other before before' remains remains'

/-- Insertions at one place are one insertion. -/
theorem Inserts.same_of_place {place : Nat} {client client' : Client}
    {ticket ticket' : Ticket} {opening opening' : List GatewayEvent}
    (one : Inserts log place client ticket opening)
    (other : Inserts log place client' ticket' opening') :
    client = client' ∧ ticket.approvalId = ticket'.approvalId ∧
      ticket.pending = ticket'.pending := by
  rcases one.here with ⟨choice, here⟩
  rcases other.here with ⟨choice', there⟩
  rcases called_inj here there with ⟨sameClient, _, sameEvent⟩
  have sameOp :
      Op.insertPending ticket.approvalId ticket.pending =
        .insertPending ticket'.approvalId ticket'.pending :=
    congrArg Program.Event.op sameEvent
  exact ⟨sameClient, Op.insertPending.inj sameOp⟩

/-! ## The way of a decision -/

/-- A decision that was sent, and the request it was sent to. -/
structure Delivery (log : GatewayLog Client) (place : Nat) (id : Uuid)
    (pending : PendingApproval) where
  removal : Nat
  insertion : Nat
  decider : Client
  requester : Client
  ticket : Ticket
  opening : List GatewayEvent
  removed :
    ∃ choice,
      log[removal]? =
        some (.called decider choice ⟨.removePending id, some pending⟩)
  decides : Remains decider log removal place
  inserts : Inserts log insertion requester ticket opening
  removal_lt : removal < place
  insertion_lt : insertion < removal
  sameId : id = ticket.approvalId
  samePending : pending = ticket.pending
  unremoved :
    ∀ later other, insertion < later → later < removal →
      ¬ Happens log later ⟨.removePending id, some other⟩

/-- Every decision that was sent came this way. -/
theorem exists_delivery (run : GatewayRun Client service log world)
    {place : Nat} {client : Client} {choice : Choice} {id : Uuid}
    {pending : PendingApproval} {decision : Decision} {delivered : Bool}
    (here :
      log[place]? =
        some (.called client choice ⟨.send id pending decision, delivered⟩)) :
    ∃ delivery : Delivery log place id pending,
      delivery.decider = client := by
  have past := (proceeds_at run here).of_send
  have split :
      own client (log.take place) =
        [] ++ ⟨.removePending id, some pending⟩ :: [] := past
  rcases run.exists_at here split with
    ⟨removal, before, removed, _, decides⟩
  rcases removed with ⟨choice', there⟩
  rcases inserted_of_removed run ⟨client, choice', there⟩ with
    ⟨insertion, earlier, inserted, unremoved⟩
  rcases inserts_of_happens run inserted with
    ⟨requester, ticket, opening, inserts, sameId, samePending⟩
  exact
    ⟨{ removal := removal
       insertion := insertion
       decider := client
       requester := requester
       ticket := ticket
       opening := opening
       removed := ⟨choice', there⟩
       decides := decides
       inserts := inserts
       removal_lt := before
       insertion_lt := earlier
       sameId := sameId
       samePending := samePending
       unremoved := unremoved }, rfl⟩

/-- What was inserted once is removed once. -/
theorem Delivery.removal_eq {place place' : Nat} {id id' : Uuid}
    {pending pending' : PendingApproval}
    (one : Delivery log place id pending)
    (other : Delivery log place' id' pending')
    (same : one.insertion = other.insertion) :
    one.removal = other.removal := by
  have inserts := one.inserts
  rw [same] at inserts
  have sameId : id = id' :=
    calc
      id = one.ticket.approvalId := one.sameId
      _ = other.ticket.approvalId :=
        (inserts.same_of_place other.inserts).2.1
      _ = id' := other.sameId.symm
  subst sameId
  rcases one.removed with ⟨choice, here⟩
  rcases other.removed with ⟨choice', there⟩
  rcases Nat.lt_trichotomy one.removal other.removal with less | eq | more
  · refine absurd ⟨one.decider, choice, here⟩
      (other.unremoved one.removal pending ?_ less)
    rw [← same]
    exact one.insertion_lt
  · exact eq
  · refine absurd ⟨other.decider, choice', there⟩
      (one.unremoved other.removal pending' ?_ more)
    rw [same]
    exact other.insertion_lt

/-- A session that has removed an approval sends one decision. -/
theorem place_eq_of_removal (run : GatewayRun Client service log world)
    {place place' : Nat} {id id' : Uuid}
    {pending pending' : PendingApproval} {decision decision' : Decision}
    {delivered delivered' : Bool} {client client' : Client}
    {choice choice' : Choice}
    (here :
      log[place]? =
        some (.called client choice ⟨.send id pending decision, delivered⟩))
    (there :
      log[place']? =
        some
          (.called client' choice'
            ⟨.send id' pending' decision', delivered'⟩))
    {one : Delivery log place id pending}
    {other : Delivery log place' id' pending'}
    (isOne : one.decider = client) (isOther : other.decider = client')
    (same : one.removal = other.removal) : place = place' := by
  have notBefore {place place' : Nat} {id id' : Uuid}
      {pending pending' : PendingApproval} {decision decision' : Decision}
      {delivered delivered' : Bool} {client : Client}
      {choice choice' : Choice}
      (here :
        log[place]? =
          some
            (.called client choice ⟨.send id pending decision, delivered⟩))
      (there :
        log[place']? =
          some
            (.called client choice'
              ⟨.send id' pending' decision', delivered'⟩))
      {removal : Nat} (before : removal < place)
      (remains : Remains client log removal place') : ¬ place < place' := by
    intro less
    have since : Remains client log place place' :=
      fun other later => remains other (Nat.lt_trans before later)
    rcases run.own_of_remains here less since with ⟨after, split⟩
    have past := (proceeds_at run here).of_send
    have past' := (proceeds_at run there).of_send
    change own client (log.take place) = _ at past
    rw [past, past'] at split
    have sizes := congrArg List.length split
    simp at sizes
  rcases one.removed with ⟨_, first⟩
  rcases other.removed with ⟨_, second⟩
  rw [same] at first
  have together := (called_inj first second).1
  rw [isOne, isOther] at together
  subst together
  have remains := one.decides
  have remains' := other.decides
  rw [isOne, same] at remains
  rw [isOther] at remains'
  have less := notBefore here there (same ▸ one.removal_lt) remains'
  have more := notBefore there here other.removal_lt remains
  omega

section Sent

variable {place place' : Nat} {id id' : Uuid}
variable {pending pending' : PendingApproval} {decision decision' : Decision}

/-- On a channel one decision is sent. -/
theorem sent_eq_of_channel (run : GatewayRun Client service log world)
    (sent : Happens log place ⟨.send id pending decision, true⟩)
    (sent' : Happens log place' ⟨.send id' pending' decision', true⟩)
    (same : pending.decisionTx = pending'.decisionTx) : place = place' := by
  rcases sent with ⟨client, choice, here⟩
  rcases sent' with ⟨client', choice', there⟩
  rcases exists_delivery run here with ⟨one, isOne⟩
  rcases exists_delivery run there with ⟨other, isOther⟩
  have channels : one.ticket.channel = other.ticket.channel :=
    calc
      one.ticket.channel = pending.decisionTx :=
        (congrArg PendingApproval.decisionTx one.samePending).symm
      _ = pending'.decisionTx := same
      _ = other.ticket.channel :=
        congrArg PendingApproval.decisionTx other.samePending
  have insertions := one.inserts.eq_of_channel run other.inserts channels
  exact place_eq_of_removal run here there isOne isOther
    (one.removal_eq other insertions)

/-- For a fresh id one decision is sent. -/
theorem sent_eq_of_fresh (run : GatewayRun Client service log world)
    (fresh : Fresh log)
    (sent : Happens log place ⟨.send id pending decision, true⟩)
    (sent' : Happens log place' ⟨.send id pending' decision', true⟩) :
    place = place' := by
  rcases sent with ⟨client, choice, here⟩
  rcases sent' with ⟨client', choice', there⟩
  rcases exists_delivery run here with ⟨one, isOne⟩
  rcases exists_delivery run there with ⟨other, isOther⟩
  have ids : one.ticket.approvalId = other.ticket.approvalId :=
    one.sameId.symm.trans other.sameId
  have insertions := one.inserts.eq_of_fresh run fresh other.inserts ids
  exact place_eq_of_removal run here there isOne isOther
    (one.removal_eq other insertions)

end Sent

/-- Where the session of a request inserts its approval. -/
theorem exists_inserts (run : GatewayRun Client service log world)
    {client : Client} {session : Session gatewayHost Request Error Response}
    (present : world.sessions client = some session) {ticket : Ticket}
    {opening rest : List GatewayEvent}
    (quiet : ∀ event ∈ opening, Quiet event.op)
    (past : own client log = ticket.waiting opening ++ rest) :
    ∃ place,
      Inserts log place client ticket opening ∧
        Remains client log place log.length := by
  have split :
      own client log =
        ticket.opened opening ++
          ⟨.insertPending ticket.approvalId ticket.pending, ()⟩ :: rest := by
    rw [past, Ticket.waiting, List.append_assoc, List.singleton_append]
  rcases run.exists_answered present split with
    ⟨place, here, earlier, remains⟩
  exact ⟨place, ⟨here, earlier, quiet⟩, remains⟩

/-- Where a session has inserted its approval before a call of its own. -/
theorem exists_inserts_at (run : GatewayRun Client service log world)
    {last : Nat} {client : Client} {choice : Choice} {event : GatewayEvent}
    (here : log[last]? = some (.called client choice event))
    {ticket : Ticket} {opening rest : List GatewayEvent}
    (quiet : ∀ event ∈ opening, Quiet event.op)
    (past : own client (log.take last) = ticket.waiting opening ++ rest) :
    ∃ place < last,
      Inserts log place client ticket opening ∧
        Remains client log place last := by
  have split :
      own client (log.take last) =
        ticket.opened opening ++
          ⟨.insertPending ticket.approvalId ticket.pending, ()⟩ :: rest := by
    rw [past, Ticket.waiting, List.append_assoc, List.singleton_append]
  rcases run.exists_at here split with
    ⟨place, before, there, earlier, remains⟩
  exact ⟨place, before, ⟨there, earlier, quiet⟩, remains⟩

/-- A decision that a request has received was sent for its approval. -/
theorem sent_of_decided (run : GatewayRun Client service log world)
    {client : Client} {session : Session gatewayHost Request Error Response}
    (present : world.sessions client = some session) {ticket : Ticket}
    {opening rest : List GatewayEvent}
    (quiet : ∀ event ∈ opening, Quiet event.op) {reply : EventResponse}
    {decision : Decision}
    (past :
      own client log = ticket.decided opening reply decision ++ rest) :
    ∃ place,
      Happens log place
        ⟨.send ticket.approvalId ticket.pending decision, true⟩ := by
  have waiting :
      own client log =
        ticket.waiting opening ++
          (⟨.ledger ticket.request, .ok reply⟩ ::
            ⟨.receive ticket.channel, .ok decision⟩ :: rest) := by
    rw [past, Ticket.decided, Ticket.requested]
    simp only [List.append_assoc]
    rfl
  have receiving :
      own client log =
        ticket.requested opening (.ok reply) ++
          ⟨.receive ticket.channel, .ok decision⟩ :: rest := by
    rw [past, Ticket.decided, List.append_assoc, List.singleton_append]
  rcases exists_inserts run present quiet waiting with ⟨insertion, inserts, _⟩
  rcases run.exists_answered present receiving with
    ⟨last, ⟨choice, received⟩, _, _⟩
  rcases sent_of_received run ⟨client, choice, received⟩ with
    ⟨place, _, id, pending, sent, channel⟩
  rcases sent with ⟨sender, choice', here⟩
  rcases exists_delivery run here with ⟨delivery, _⟩
  have channels : delivery.ticket.channel = ticket.channel :=
    (congrArg PendingApproval.decisionTx delivery.samePending).symm.trans
      channel
  have places := delivery.inserts.eq_of_channel run inserts channels
  have inserts' := delivery.inserts
  rw [places] at inserts'
  rcases inserts'.same_of_place inserts with ⟨_, ids, pendings⟩
  refine ⟨place, sender, choice', ?_⟩
  rw [← ids, ← pendings, ← delivery.sameId, ← delivery.samePending]
  exact here

end Trackward.Gateway.ApprovalHandover
