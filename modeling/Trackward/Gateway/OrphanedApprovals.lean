import Trackward.Gateway.LostDecisions
import Trackward.Lib.Traces

/-!
# Approvals that nobody waits for

A pending approval holds the sender of a channel whose receiver is with the
request that inserted it.  Only the request drops the receiver: when the
decision has come, when the ledger has refused the event that announces the
approval, or when its client departs.  In the last two cases the approval stays
in the map, where nobody waits for it any more.
-/

namespace Trackward.Gateway.OrphanedApprovals

open Trackward.ChainCore.Encode
open Trackward.ChainCore.JsonValue
open Trackward.Gateway.ApprovalCalls
open Trackward.Gateway.ApprovalChannels
open Trackward.Gateway.ApprovalHandover
open Trackward.Gateway.Calls
open Trackward.Gateway.Handlers
open Trackward.Gateway.LostDecisions
open Trackward.Lib.Logs
open Trackward.Lib.Programs
open Trackward.Lib.Runs
open Trackward.Lib.Sessions
open Trackward.Lib.Traces

variable {Client : Type}

/-! ## The ends of a channel -/

section Ends

variable {state after : State Client} {client : Client} {channel : Nat}

/-- The sender of a channel is in the map, and nothing was sent. -/
def Sealed (state : State Client) (channel : Nat) : Prop :=
  ∃ receiver, state.channels[channel]? = some ⟨receiver, .stored, none⟩

/-- A call that takes the sender of a channel, or drops it. -/
def Unseals (state : State Client) (channel : Nat) : Op → Prop
  | .insertPending id _ =>
      ∃ old, state.pending id = some old ∧ old.decisionTx = channel
  | .removePending id =>
      ∃ old, state.pending id = some old ∧ old.decisionTx = channel
  | .send _ pending _ => pending.decisionTx = channel
  | .dropSender other => other = channel
  | _ => False

theorem Sealed.modifyOther (isSealed : Sealed state channel) {other : Nat}
    (different : other ≠ channel)
    (change : Channel Client → Channel Client) :
    Sealed (state.modifyChannel other change) channel := by
  rcases isSealed with ⟨receiver, found⟩
  refine ⟨receiver, ?_⟩
  rw [getElem_modifyChannel, if_neg different]
  exact found

theorem Sealed.dropReceiver (isSealed : Sealed state channel)
    (other : Nat) : Sealed (state.dropReceiver other) channel := by
  rcases isSealed with ⟨receiver, found⟩
  rw [Sealed, State.dropReceiver, getElem_modifyChannel, found]
  split
  · exact ⟨none, rfl⟩
  · exact ⟨receiver, rfl⟩

/-- Putting a sender into the map seals its channel. -/
theorem sealed_insertPending {id : Uuid} {pending : PendingApproval}
    (opened : pending.decisionTx < state.channels.length)
    (unsent : messageAt state pending.decisionTx = none) :
    Sealed (state.insertPending id pending) pending.decisionTx := by
  have stored (before : State Client)
      (opened : pending.decisionTx < before.channels.length)
      (unsent : messageAt before pending.decisionTx = none) :
      Sealed
        { before.modifyChannel pending.decisionTx
            fun one => { one with sender := .stored } with
          pending := Function.update state.pending id (some pending) }
        pending.decisionTx := by
    have found := List.getElem?_eq_getElem opened
    rw [messageAt, found, Option.bind_some] at unsent
    refine ⟨before.channels[pending.decisionTx].receiver, ?_⟩
    have view :=
      @getElem_modifyChannel _ before pending.decisionTx pending.decisionTx
        fun one => { one with sender := .stored }
    rw [if_pos rfl, found, Option.map_some, unsent] at view
    exact view
  rw [State.insertPending]
  refine stored _ ?_ ?_
  · split
    · rw [State.dropSender, length_modifyChannel]
      exact opened
    · exact opened
  · split
    · rw [messageAt_dropSender]
      exact unsent
    · exact unsent

/-- Another approval is put into the map. -/
theorem Sealed.insertPending (isSealed : Sealed state channel) {id : Uuid}
    (pending : PendingApproval)
    (kept : ¬ Unseals state channel (.insertPending id pending)) :
    Sealed (state.insertPending id pending) channel := by
  have stored (before : State Client) (isSealed : Sealed before channel) :
      Sealed
        { before.modifyChannel pending.decisionTx
            fun one => { one with sender := .stored } with
          pending := Function.update state.pending id (some pending) }
        channel := by
    rcases isSealed with ⟨receiver, found⟩
    have view :=
      @getElem_modifyChannel _ before pending.decisionTx channel
        fun one => { one with sender := .stored }
    refine ⟨receiver, view.trans ?_⟩
    rw [found]
    split
    · rfl
    · rfl
  rw [State.insertPending]
  refine stored _ ?_
  split
  · rename_i old found
    exact isSealed.modifyOther (fun same => kept ⟨old, found, same⟩) _
  · exact isSealed

theorem Sealed.removePending (isSealed : Sealed state channel) {id : Uuid}
    (kept : ¬ Unseals state channel (.removePending id)) :
    Sealed (state.removePending client id).2 channel := by
  cases found : state.pending id with
  | none =>
      rw [State.removePending, found]
      exact isSealed
  | some old =>
      rw [State.removePending, found]
      exact isSealed.modifyOther (fun same => kept ⟨old, found, same⟩) _

theorem Sealed.send (isSealed : Sealed state channel) {id : Uuid}
    {pending : PendingApproval} (decision : Decision)
    (kept : pending.decisionTx ≠ channel) :
    Sealed (state.send id pending decision).2 channel := by
  unfold State.send
  split
  · exact isSealed.modifyOther kept _
  · exact isSealed.modifyOther kept _

/-- A sealed channel stays so until its sender is taken or dropped. -/
theorem Sealed.respond (isSealed : Sealed state channel) {choice : Choice}
    {op : Op} {answer : op.Answer}
    (responded : state.respond client choice op = some (answer, after))
    (kept : ¬ Unseals state channel op) : Sealed after channel := by
  cases State.responds_of_respond responded with
  | channel =>
      rcases isSealed with ⟨receiver, found⟩
      refine ⟨receiver, ?_⟩
      rw [List.getElem?_append_left (List.getElem?_eq_some_iff.mp found).1]
      exact found
  | insertPending id pending => exact isSealed.insertPending pending kept
  | removePending id => exact isSealed.removePending kept
  | send id pending decision => exact isSealed.send decision kept
  | dropSender other => exact isSealed.modifyOther kept _
  | receive other | dropReceiver other => exact isSealed.dropReceiver other
  | accept | lose | refuse | respond | time | mint => exact isSealed

/-- On a sealed channel a wait goes on. -/
theorem Sealed.receive (isSealed : Sealed state channel) :
    state.receive channel = none := by
  rcases isSealed with ⟨receiver, found⟩
  rw [State.receive, found]

theorem receiverAt_removePending (id : Uuid) :
    receiverAt (state.removePending client id).2 channel =
      receiverAt state channel := by
  have taken (other : Nat) :
      receiverAt
          (state.modifyChannel other
            fun one => { one with sender := .held client })
          channel =
        receiverAt state channel :=
    receiverAt_modifyChannel fun _ => rfl
  rw [State.removePending]
  split
  · rfl
  · exact taken _

theorem receiverAt_send (id : Uuid) (pending : PendingApproval)
    (decision : Decision) :
    receiverAt (state.send id pending decision).2 channel =
      receiverAt state channel := by
  have delivered :
      receiverAt
          (state.modifyChannel pending.decisionTx
            fun one =>
              { one with sender := .gone, message := some decision })
          channel =
        receiverAt state channel :=
    receiverAt_modifyChannel fun _ => rfl
  rw [State.send]
  split
  · exact delivered
  · exact receiverAt_dropSender

/-- Who waits goes on waiting until the wait is over. -/
theorem receiverAt_respond {choice : Choice} {op : Op} {answer : op.Answer}
    {receiver : Client} (waits : receiverAt state channel = some receiver)
    (responded : state.respond client choice op = some (answer, after))
    (receives : op ≠ .receive channel) (drops : op ≠ .dropReceiver channel) :
    receiverAt after channel = some receiver := by
  have dropped {other : Nat} (different : other ≠ channel) :
      receiverAt (state.dropReceiver other) channel = some receiver := by
    rw [receiverAt, State.dropReceiver, getElem_modifyChannel,
      if_neg different]
    exact waits
  cases State.responds_of_respond responded with
  | channel =>
      rw [receiverAt] at waits ⊢
      cases found : state.channels[channel]? with
      | none =>
          rw [found] at waits
          cases waits
      | some one =>
          rw [List.getElem?_append_left
            (List.getElem?_eq_some_iff.mp found).1]
          exact waits
  | insertPending id pending => exact receiverAt_insertPending.trans waits
  | removePending id => exact (receiverAt_removePending id).trans waits
  | send id pending decision =>
      exact (receiverAt_send id pending decision).trans waits
  | receive other =>
      exact dropped fun same => receives (congrArg Op.receive same)
  | dropSender other => exact receiverAt_dropSender.trans waits
  | dropReceiver other =>
      exact dropped fun same => drops (congrArg Op.dropReceiver same)
  | accept | lose | refuse | respond | time | mint => exact waits

theorem receiverAt_depart [DecidableEq Client] {leaver : Client}
    {receiver : Client} (waits : receiverAt state channel = some receiver)
    (other : receiver ≠ leaver) :
    receiverAt ((host Client).depart leaver state) channel =
      some receiver := by
  rw [receiverAt] at waits
  change ((state.channels.map (Channel.abandon leaver))[channel]?).bind _ = _
  rw [List.getElem?_map]
  cases found : state.channels[channel]? with
  | none =>
      rw [found] at waits
      cases waits
  | some one =>
      rw [found] at waits
      have waits' : one.receiver = some receiver := waits
      simp [Channel.abandon, waits', other]

theorem receiverAt_depart_self [DecidableEq Client]
    (waits : receiverAt state channel = some client) :
    receiverAt ((host Client).depart client state) channel = none := by
  rw [receiverAt] at waits
  change ((state.channels.map (Channel.abandon client))[channel]?).bind _ = _
  rw [List.getElem?_map]
  cases found : state.channels[channel]? with
  | none => rfl
  | some one =>
      rw [found] at waits
      have waits' : one.receiver = some client := waits
      simp [Channel.abandon, waits']

theorem receiverAt_dropReceiver_self :
    receiverAt (state.dropReceiver channel) channel = none := by
  cases waits : receiverAt (state.dropReceiver channel) channel with
  | none => rfl
  | some receiver => exact absurd rfl (receiverAt_dropReceiver waits).2

end Ends

/-! ## The senders in the map -/

variable [DecidableEq Client] {service : Service} {log : GatewayLog Client}
variable {world : GatewayWorld Client}

/-- Where a pending approval was inserted. -/
theorem inserts_of_pending (run : GatewayRun Client service log world)
    {id : Uuid} {pending : PendingApproval}
    (found : world.shared.pending id = some pending) :
    ∃ place client ticket opening,
      Inserts log place client ticket opening ∧ id = ticket.approvalId ∧
        pending = ticket.pending ∧
          ∀ later other, place < later →
            ¬ Happens log later ⟨.removePending id, some other⟩ := by
  rcases (traced_of_run run).pending id pending found with
    ⟨place, inserted, since⟩
  rcases inserts_of_happens run inserted with
    ⟨client, ticket, opening, inserts, sameId, samePending⟩
  exact
    ⟨place, client, ticket, opening, inserts, sameId, samePending, since⟩

/-- Two insertions for a channel have one id. -/
theorem same_of_channel (run : GatewayRun Client service log world)
    {first second : Nat} {client client' : Client} {ticket ticket' : Ticket}
    {opening opening' : List GatewayEvent}
    (one : Inserts log first client ticket opening)
    (other : Inserts log second client' ticket' opening')
    (same : ticket.channel = ticket'.channel) :
    first = second ∧ ticket.approvalId = ticket'.approvalId := by
  have places := one.eq_of_channel run other same
  subst places
  exact ⟨rfl, (one.same_of_place other).2.1⟩

/-- Different pending approvals have different channels. -/
theorem pending_apart (run : GatewayRun Client service log world)
    {id id' : Uuid} {pending pending' : PendingApproval}
    (found : world.shared.pending id = some pending)
    (found' : world.shared.pending id' = some pending')
    (same : pending.decisionTx = pending'.decisionTx) : id = id' := by
  rcases inserts_of_pending run found with
    ⟨place, client, ticket, opening, inserts, rfl, rfl, _⟩
  rcases inserts_of_pending run found' with
    ⟨place', client', ticket', opening', inserts', rfl, rfl, _⟩
  exact (same_of_channel run inserts inserts' same).2

/-- The channel of an approval that was removed is not in the map. -/
theorem not_pending_of_removed (run : GatewayRun Client service log world)
    {place : Nat} {id id' : Uuid} {pending removed : PendingApproval}
    (happens : Happens log place ⟨.removePending id', some removed⟩)
    (found : world.shared.pending id = some pending) :
    removed.decisionTx ≠ pending.decisionTx := by
  intro same
  rcases inserted_of_removed run happens with
    ⟨insertion, before, inserted, _⟩
  rcases inserts_of_happens run inserted with
    ⟨client, ticket, opening, inserts, rfl, rfl⟩
  rcases inserts_of_pending run found with
    ⟨place', client', ticket', opening', inserts', rfl, rfl, since⟩
  rcases same_of_channel run inserts inserts' same with ⟨rfl, ids⟩
  rw [← ids] at since
  exact since place _ before happens

/-- The call of a session that has removed an approval. -/
theorem not_pending_of_call (run : GatewayRun Client service log world)
    {client : Client} {session : Session gatewayHost Request Error Response}
    (present : world.sessions client = some session) {id id' : Uuid}
    {pending removed : PendingApproval}
    (past : own client log = [⟨.removePending id', some removed⟩])
    (found : world.shared.pending id = some pending) :
    removed.decisionTx ≠ pending.decisionTx := by
  have split :
      own client log = [] ++ ⟨.removePending id', some removed⟩ :: [] := past
  rcases run.exists_answered present split with ⟨place, ⟨choice, here⟩, _⟩
  exact not_pending_of_removed run ⟨client, choice, here⟩ found

/-- The channel of an approval that is inserted is open, and nothing was sent. -/
theorem unsent_of_insert (run : GatewayRun Client service log world)
    {client : Client} {request : Request} {calls : Nat} {id : Uuid}
    {pending : PendingApproval} {next : Unit → Handler Response}
    (present :
      world.sessions client =
        some ⟨request, calls, .call (.insertPending id pending) next⟩) :
    pending.decisionTx < world.shared.channels.length ∧
      messageAt world.shared pending.decisionTx = none := by
  have responded :
      (host Client).respond client .proceed (Op.insertPending id pending)
          world.shared =
        some ((), world.shared.insertPending id pending) :=
    rfl
  have longer := run.call present responded
  have last :
      (log ++
          [Entry.called client Choice.proceed
            ⟨Op.insertPending id pending, ()⟩])[log.length]? =
        some
          (.called client .proceed ⟨Op.insertPending id pending, ()⟩) := by
    simp
  rcases inserts_of_happens longer ⟨client, _, last⟩ with
    ⟨client', ticket, opening, inserts, rfl, rfl⟩
  have traced := traced_of_run run
  constructor
  · rcases inserts.channel_at longer with
      ⟨origin, before, ⟨choice, opened⟩, _⟩
    rcases at_concat_cases opened with inside | ⟨same, _⟩
    · exact traced.opened origin ticket.channel ⟨client', choice, inside⟩
    · omega
  · cases message : messageAt world.shared ticket.pending.decisionTx with
    | none => rfl
    | some decision =>
        rcases traced.message _ decision message with
          ⟨place, id, sent, happens, same⟩
        have before := happens.lt
        rcases happens.concat _ with ⟨sender, choice, here⟩
        rcases exists_delivery longer here with ⟨delivery, _⟩
        have channels : delivery.ticket.channel = ticket.channel := by
          rw [delivery.samePending] at same
          exact same
        have places := delivery.inserts.eq_of_channel longer inserts channels
        have earlier := delivery.insertion_lt
        have later := delivery.removal_lt
        omega

theorem past_of_dropSender {past : List GatewayEvent} {channel : Nat}
    (proceeds : Proceeds past (.dropSender channel)) :
    ∃ id pending,
      past = [⟨.removePending id, some pending⟩] ∧
        channel = pending.decisionTx := by
  cases proceeds with
  | other past quiet => cases quiet
  | dropSender id pending => exact ⟨id, pending, rfl, rfl⟩

/-- No call takes the sender of an approval that stays in the map. -/
theorem not_unseals (run : GatewayRun Client service log world)
    {client : Client} {request : Request} {calls : Nat} {op : Op}
    {next : op.Answer → Handler Response}
    (present :
      world.sessions client = some ⟨request, calls, .call op next⟩)
    {choice : Choice} {answer : op.Answer} {after : State Client}
    (responded :
      world.shared.respond client choice op = some (answer, after))
    {id : Uuid} {pending : PendingApproval}
    (found : world.shared.pending id = some pending)
    (kept : after.pending id = some pending)
    (other : op ≠ .insertPending id pending) :
    ¬ Unseals world.shared pending.decisionTx op := by
  have proceeds : Proceeds (own client log) op :=
    ((run.leaves present).tracks (tracks_serve request)).1
  intro unseals
  cases op with
  | insertPending id' pending' =>
      rcases unseals with ⟨old, there, same⟩
      have ids := pending_apart run there found same
      subst ids
      cases State.responds_of_respond responded
      change
        Function.update world.shared.pending id' (some pending') id' =
          some pending at kept
      rw [Function.update_self, Option.some.injEq] at kept
      exact other (congrArg (Op.insertPending id') kept)
  | removePending id' =>
      rcases unseals with ⟨old, there, same⟩
      have ids := pending_apart run there found same
      subst ids
      rw [(State.respond_removePending responded).2] at kept
      cases kept
  | send id' removed decision =>
      exact not_pending_of_call run present proceeds.of_send found unseals
  | dropSender channel =>
      rcases past_of_dropSender proceeds with ⟨id', removed, past, same⟩
      exact
        not_pending_of_call run present past found (same.symm.trans unseals)
  | _ => exact unseals

/-- In every run the channels of the pending approvals are sealed. -/
theorem sealed_of_run (run : GatewayRun Client service log world)
    {id : Uuid} {pending : PendingApproval}
    (found : world.shared.pending id = some pending) :
    Sealed world.shared pending.decisionTx := by
  induction run generalizing id pending with
  | start isInitial =>
      rw [isInitial.1] at found
      cases found
  | arrive earlier request absent induction => exact induction found
  | @call log world earlier client request calls op next present choice answer
      after responded induction =>
      by_cases new : op = .insertPending id pending
      · subst new
        rcases unsent_of_insert earlier present with ⟨opened, unsent⟩
        cases State.responds_of_respond responded
        exact sealed_insertPending opened unsent
      · rcases (turns_of_respond responded).inserted id pending found with
          same | ⟨before, _⟩
        · exact absurd (congrArg Program.Event.op same) new
        · exact
            (induction before).respond responded
              (not_unseals earlier present responded before found new)
  | @depart log world earlier client session present induction =>
      rcases induction found with ⟨receiver, there⟩
      refine ⟨if receiver = some client then none else receiver, ?_⟩
      change
        (world.shared.channels.map
            (Channel.abandon client))[pending.decisionTx]? = _
      rw [List.getElem?_map, there]
      rfl

/-! ## The receivers of requests in flight -/

omit [DecidableEq Client] in
/-- A request opens one channel. -/
theorem channel_eq_of_waiting {ticket : Ticket}
    {opening rest : List GatewayEvent} {channel : Nat}
    (quiet : ∀ event ∈ opening, Quiet event.op)
    (others : ∀ event ∈ rest, event.op ≠ .channel)
    (member : ⟨.channel, channel⟩ ∈ ticket.waiting opening ++ rest) :
    channel = ticket.channel := by
  rcases List.mem_append.mp member with first | later
  · simp only [Ticket.waiting, Ticket.opened, List.mem_append,
      List.mem_singleton] at first
    rcases first with (((early | mint) | opens) | now) | insert
    · exact absurd (quiet _ early) id
    · cases mint
    · cases opens
      rfl
    · cases now
    · cases insert
  · exact absurd rfl (others _ later)

/-- Where a session has stopped waiting on a channel it had opened. -/
def Stops (past : List GatewayEvent) (channel : Nat) : Prop :=
  ∃ before event after,
    past = before ++ event :: after ∧ ⟨.channel, channel⟩ ∈ before ∧
      (event.op = .receive channel ∨ event.op = .dropReceiver channel)

omit [DecidableEq Client] in
theorem stops_of_requested {ticket : Ticket}
    {opening after : List GatewayEvent} {event : GatewayEvent}
    {reply : Except String EventResponse} {channel : Nat}
    (quiet : ∀ event ∈ opening, Quiet event.op)
    (ends :
      event.op = .receive ticket.channel ∨
        event.op = .dropReceiver ticket.channel)
    (others : ∀ event ∈ after, event.op ≠ .channel)
    (opened :
      ⟨.channel, channel⟩ ∈ ticket.requested opening reply ++ event :: after) :
    Stops (ticket.requested opening reply ++ event :: after) channel := by
  have member := opened
  rw [Ticket.requested, List.append_assoc] at member
  have same : channel = ticket.channel := by
    refine channel_eq_of_waiting quiet ?_ member
    intro later inside
    rcases List.mem_cons.mp inside with rfl | inside
    · exact fun absurdity => by cases absurdity
    · rcases List.mem_cons.mp inside with rfl | inside
      · intro absurdity
        rw [absurdity] at ends
        rcases ends with one | one
        · cases one
        · cases one
      · exact others later inside
  subst same
  exact ⟨_, event, after, rfl, by simp [Ticket.requested, Ticket.waiting,
    Ticket.opened], ends⟩

omit [DecidableEq Client] in
/-- A request that has opened a channel and ended has stopped waiting on it. -/
theorem stops_of_ends {past : List GatewayEvent}
    {outcome : Except Error Response} (ends : Ends past outcome)
    {channel : Nat} (opened : ⟨.channel, channel⟩ ∈ past) :
    Stops past channel := by
  cases ends with
  | failed quiet error => exact absurd (quiet _ opened) id
  | proxied quiet status runId body => exact absurd (quiet _ opened) id
  | unrequested ticket text quiet error =>
      exact stops_of_requested quiet (Or.inr rfl) (by simp) opened
  | closed ticket reply quiet error =>
      exact stops_of_requested quiet (Or.inl rfl) (by simp) opened
  | unrecorded ticket reply decision text quiet error =>
      rw [Ticket.concluded, Ticket.decided, List.append_assoc] at opened ⊢
      refine stops_of_requested quiet (Or.inl rfl) ?_ opened
      intro event member
      rw [List.mem_singleton.mp member]
      exact fun absurdity => by cases absurdity
  | answered ticket reply last decision evidence quiet =>
      rw [Ticket.concluded, Ticket.decided, List.append_assoc,
        List.append_assoc] at opened ⊢
      refine stops_of_requested quiet (Or.inl rfl) ?_ opened
      intro event member
      rcases List.mem_cons.mp member with rfl | member
      · exact fun absurdity => by cases absurdity
      · rw [List.mem_singleton.mp member]
        exact fun absurdity => by cases absurdity
  | unknown id error => cases List.mem_singleton.mp opened
  | malformed | undelivered | delivered =>
      rcases List.mem_append.mp opened with first | second
      · cases List.mem_singleton.mp first
      · cases List.mem_singleton.mp second

omit [DecidableEq Client] in
/-- Only an approval request opens a channel. -/
theorem approval_of_channel {request : Request} {left : Handler Response}
    {events : List GatewayEvent} {channel : Nat}
    (leaves : (serve service request).Leaves events left)
    (opened : ⟨.channel, channel⟩ ∈ events) :
    ∃ runIdHeader body, request = .approval runIdHeader body := by
  cases request with
  | tool tool runIdHeader input =>
      have only : (proxy service tool runIdHeader input).OnlyCalls _ :=
        onlyCalls_proxy tool runIdHeader input
      exact absurd (leaves.allowed only _ opened) id
  | approval runIdHeader body => exact ⟨runIdHeader, body, rfl⟩
  | decide id body =>
      have only :
          (Approval.decide service id body).OnlyCalls
            fun op => op ≠ Op.channel := by
        refine onlyCalls_decide ?_ (fun channel => ?_)
          fun pending decision => ?_
        all_goals exact fun absurdity => by cases absurdity
      exact absurd rfl (leaves.allowed only _ opened)

/-- Who waits on a channel is an approval request in flight. -/
theorem inFlight_of_receiver (run : GatewayRun Client service log world)
    {client : Client} {channel : Nat}
    (waits : receiverAt world.shared channel = some client) :
    ∃ runIdHeader body calls program,
      world.sessions client =
          some ⟨.approval runIdHeader body, calls, program⟩ ∧
        program.ended = none := by
  rcases (traced_of_run run).receiver channel client waits with
    ⟨place, choice, here, remains, since⟩
  rcases Option.ne_none_iff_exists'.mp
      (run.present_of_remains here rfl remains) with
    ⟨⟨request, calls, program⟩, present⟩
  rcases run.own_of_stays here remains with ⟨rest, split⟩
  have opened : ⟨.channel, channel⟩ ∈ own client log := by
    rw [split]
    exact List.mem_append_right _ List.mem_cons_self
  rcases approval_of_channel (run.leaves present) opened with
    ⟨runIdHeader, body, rfl⟩
  refine ⟨runIdHeader, body, calls, program, present, ?_⟩
  cases returned : program.ended with
  | none => rfl
  | some outcome =>
      have ends := run.ended (fun _ => tracks_serve _) present returned
      rcases stops_of_ends ends opened with
        ⟨before, event, after, parts, earlier, stops⟩
      rcases run.exists_answered present parts with
        ⟨place', ⟨choice', there⟩, past, _⟩
      rw [← past] at earlier
      rcases exists_called_of_mem_own earlier with ⟨choice'', called⟩
      rcases List.mem_iff_getElem?.mp called with ⟨origin, inside⟩
      rcases at_of_take inside with ⟨less, inside⟩
      have same : origin = place :=
        channel_inj run ⟨client, choice'', inside⟩ ⟨client, choice, here⟩
      subst same
      have kept := since place' event less ⟨client, choice', there⟩
      rcases stops with receives | drops
      · exact absurd receives kept.1
      · exact absurd drops kept.2

/-- A channel is in the part of one session. -/
theorem opener_eq (run : GatewayRun Client service log world)
    {client client' : Client} {channel : Nat}
    (opened : ⟨.channel, channel⟩ ∈ own client log)
    (opened' : ⟨.channel, channel⟩ ∈ own client' log) : client = client' := by
  rcases exists_called_of_mem_own opened with ⟨choice, called⟩
  rcases exists_called_of_mem_own opened' with ⟨choice', called'⟩
  rcases List.mem_iff_getElem?.mp called with ⟨place, here⟩
  rcases List.mem_iff_getElem?.mp called' with ⟨place', there⟩
  have same : place = place' :=
    channel_inj run ⟨client, choice, here⟩ ⟨client', choice', there⟩
  subst same
  exact (called_inj here there).1

omit [DecidableEq Client] in
/-- A session stops waiting on the channel it has opened. -/
theorem opened_of_stop {past : List GatewayEvent} {op : Op} {channel : Nat}
    (proceeds : Proceeds past op)
    (stops : op = .receive channel ∨ op = .dropReceiver channel) :
    ⟨.channel, channel⟩ ∈ past := by
  rcases stops with rfl | rfl
  · cases proceeds with
    | other past quiet => cases quiet
    | receive ticket reply quiet =>
        simp [Ticket.requested, Ticket.waiting, Ticket.opened]
  · cases proceeds with
    | other past quiet => cases quiet
    | drop ticket text quiet =>
        simp [Ticket.requested, Ticket.waiting, Ticket.opened]

/-- A session waits on the channel it has opened until it stops waiting. -/
theorem receiver_of_opened (run : GatewayRun Client service log world)
    {client : Client} {session : Session gatewayHost Request Error Response}
    (present : world.sessions client = some session) {channel : Nat}
    (opened : ⟨.channel, channel⟩ ∈ own client log)
    (waits :
      ∀ event ∈ own client log,
        event.op ≠ .receive channel ∧ event.op ≠ .dropReceiver channel) :
    receiverAt world.shared channel = some client := by
  induction run generalizing session with
  | start isInitial => cases opened
  | @arrive log world earlier newcomer request absent induction =>
      rw [own_concat, keep] at opened waits
      by_cases same : newcomer = client
      · rw [if_pos same] at opened
        cases opened
      · rw [if_neg same] at opened waits
        simp only [Function.update_of_ne (Ne.symm same)] at present
        exact induction present opened waits
  | @call log world earlier caller request calls op next here choice answer
      after responded induction =>
      rw [own_concat, keep] at opened waits
      by_cases same : caller = client
      · subst same
        rw [if_pos rfl] at opened waits
        rcases List.mem_append.mp opened with before | new
        · have last := waits ⟨op, answer⟩ (by simp)
          refine receiverAt_respond ?_ responded last.1 last.2
          exact
            induction here before fun event member =>
              waits event (List.mem_append_left _ member)
        · cases List.mem_singleton.mp new
          cases State.responds_of_respond responded
          simp [receiverAt]
      · rw [if_neg same] at opened waits
        simp only [Function.update_of_ne (Ne.symm same)] at present
        have proceeds : Proceeds (own caller log) op :=
          ((earlier.leaves here).tracks (tracks_serve request)).1
        have others (stops : op = .receive channel ∨ op = .dropReceiver channel) :
            False :=
          same (opener_eq earlier (opened_of_stop proceeds stops) opened)
        exact
          receiverAt_respond (induction present opened waits) responded
            (fun receives => others (Or.inl receives))
            fun drops => others (Or.inr drops)
  | @depart log world earlier leaver leaving there induction =>
      rw [own_concat, keep] at opened waits
      by_cases same : client = leaver
      · subst same
        simp at present
      · simp only [Function.update_of_ne same] at present
        exact receiverAt_depart (induction present opened waits) same

/-! ## Nobody is forgotten -/

/-- Each pending approval belongs to a request in flight that waits for it. -/
def NoOrphans (world : GatewayWorld Client) : Prop :=
  ∀ id pending, world.shared.pending id = some pending →
    ∃ client runIdHeader body calls program,
      world.sessions client =
          some ⟨.approval runIdHeader body, calls, program⟩ ∧
        program.ended = none ∧
          receiverAt world.shared pending.decisionTx = some client

/--
The move does not end the wait for an approval that is still pending: neither
does its client depart, nor does its handler return since the event that
announces it was refused.
-/
def Spares (world : GatewayWorld Client) :
    Move Client Request Choice → Prop
  | .arrive _ _ => True
  | .answer client _ =>
      ∀ request calls channel next,
        world.sessions client =
            some ⟨request, calls, .call (.dropReceiver channel) next⟩ →
          ∀ id pending, world.shared.pending id = some pending →
            pending.decisionTx ≠ channel
  | .depart client =>
      ∀ id pending, world.shared.pending id = some pending →
        receiverAt world.shared pending.decisionTx ≠ some client

/-- Somebody waits for each pending approval. -/
def Awaited (state : State Client) : Prop :=
  ∀ id pending, state.pending id = some pending →
    ∃ client, receiverAt state pending.decisionTx = some client

theorem noOrphans_of_awaited (run : GatewayRun Client service log world)
    (awaited : Awaited world.shared) : NoOrphans world := by
  intro id pending found
  rcases awaited id pending found with ⟨client, waits⟩
  rcases inFlight_of_receiver run waits with
    ⟨runIdHeader, body, calls, program, present, inFlight⟩
  exact
    ⟨client, runIdHeader, body, calls, program, present, inFlight, waits⟩

/-- Whoever inserts an approval waits for it. -/
theorem receiver_of_insert (run : GatewayRun Client service log world)
    {client : Client} {request : Request} {calls : Nat} {id : Uuid}
    {pending : PendingApproval} {next : Unit → Handler Response}
    (present :
      world.sessions client =
        some ⟨request, calls, .call (.insertPending id pending) next⟩) :
    receiverAt world.shared pending.decisionTx = some client := by
  have proceeds : Proceeds (own client log) (.insertPending id pending) :=
    ((run.leaves present).tracks (tracks_serve request)).1
  rcases proceeds.of_insert with ⟨opening, ticket, quiet, past, _, rfl⟩
  refine receiver_of_opened run present ?_ ?_
  · rw [past]
    simp [Ticket.opened, Ticket.pending]
  · intro event member
    rw [past] at member
    simp only [Ticket.opened, List.mem_append, List.mem_singleton] at member
    rcases member with ((early | rfl) | rfl) | rfl
    · have silent := quiet event early
      constructor
      · intro receives
        rw [receives] at silent
        exact silent
      · intro drops
        rw [drops] at silent
        exact silent
    all_goals
      constructor
      · exact fun absurdity => by cases absurdity
      · exact fun absurdity => by cases absurdity

/-- A call that spares the pending approvals leaves none without a waiter. -/
theorem Awaited.respond (awaited : Awaited world.shared)
    (run : GatewayRun Client service log world) {client : Client}
    {request : Request} {calls : Nat} {op : Op}
    {next : op.Answer → Handler Response}
    (present :
      world.sessions client = some ⟨request, calls, .call op next⟩)
    {choice : Choice} {answer : op.Answer} {after : State Client}
    (responded :
      world.shared.respond client choice op = some (answer, after))
    (spares :
      ∀ channel, op = .dropReceiver channel →
        ∀ id pending, world.shared.pending id = some pending →
          pending.decisionTx ≠ channel) : Awaited after := by
  intro id pending found
  rcases (turns_of_respond responded).inserted id pending found with
    inserted | ⟨before, _⟩
  · cases inserted
    refine
      ⟨client, receiverAt_respond (receiver_of_insert run present) responded
        ?_ ?_⟩
    all_goals exact fun absurdity => by cases absurdity
  · rcases awaited id pending before with ⟨receiver, waits⟩
    refine ⟨receiver, receiverAt_respond waits responded ?_ ?_⟩
    · rintro rfl
      cases State.responds_of_respond responded with
      | receive _ decision received =>
          rw [(sealed_of_run run before).receive] at received
          cases received
    · intro drops
      exact spares _ drops id pending before rfl

/-- One step of a run leaves nobody waiting for nothing if it spares all. -/
theorem Awaited.step (awaited : Awaited world.shared)
    (run : GatewayRun Client service log world)
    {move : Move Client Request Choice} {target : GatewayWorld Client}
    (moved : (gateway Client service).step world move = some target)
    (spares : Spares world move) :
    (∃ longer, GatewayRun Client service longer target) ∧
      Awaited target.shared := by
  rcases World.step_cases moved with arrival | answered | departure
  · rcases arrival with ⟨client, request, rfl, absent, rfl⟩
    exact ⟨⟨_, run.arrive request absent⟩, awaited⟩
  · rcases answered with
      ⟨client, choice, request, calls, op, next, answer, shared', rfl,
        present, responded, rfl⟩
    refine ⟨⟨_, run.call present responded⟩, ?_⟩
    refine awaited.respond run present responded ?_
    rintro channel rfl
    exact spares request calls channel next present
  · rcases departure with ⟨client, session, rfl, present, rfl⟩
    refine ⟨⟨_, run.depart present⟩, ?_⟩
    intro id pending found
    rcases awaited id pending found with ⟨receiver, waits⟩
    refine ⟨receiver, receiverAt_depart waits ?_⟩
    rintro rfl
    exact spares id pending found waits

/-- A move that spares not all leaves an approval that nobody waits for. -/
theorem not_awaited_of_step {move : Move Client Request Choice}
    {target : GatewayWorld Client}
    (moved : (gateway Client service).step world move = some target)
    (spares : ¬ Spares world move) : ¬ Awaited target.shared := by
  intro awaited
  refine spares ?_
  rcases World.step_cases moved with arrival | answered | departure
  · rcases arrival with ⟨client, request, rfl, absent, rfl⟩
    trivial
  · rcases answered with
      ⟨client, choice, request, calls, op, next, answer, shared', rfl,
        present, responded, rfl⟩
    rintro _ _ channel _ waiting id pending found rfl
    rw [present, Option.some.injEq] at waiting
    cases waiting
    cases State.responds_of_respond responded
    rcases awaited id pending found with ⟨receiver, waits⟩
    rw [receiverAt_dropReceiver_self] at waits
    cases waits
  · rcases departure with ⟨client, session, rfl, present, rfl⟩
    intro id pending found waits
    rcases awaited id pending found with ⟨receiver, waits'⟩
    rw [receiverAt_depart_self waits] at waits'
    cases waits'

/-- In a run somebody waits for each pending approval if all steps spare it. -/
theorem awaited_iff_spared (run : GatewayRun Client service log world)
    (awaited : Awaited world.shared) {last : GatewayWorld Client}
    {steps : List (GatewayWorld Client × Move Client Request Choice)}
    (path : Path (gateway Client service) world steps last) :
    (∀ state ∈ states steps last, Awaited state.shared) ↔
      ∀ step ∈ steps, Spares step.1 step.2 := by
  induction path generalizing log with
  | stop world => simp [states, awaited]
  | @step world target last move steps moved rest induction =>
      rw [states, List.map_cons, List.cons_append, List.forall_mem_cons,
        List.forall_mem_cons]
      have first : target ∈ states steps last := by
        have member := stateAt_mem_states steps last 0
        rw [rest.stateAt_zero] at member
        exact member
      constructor
      · rintro ⟨_, all⟩
        have spares : Spares world move := by
          by_contra unspared
          exact not_awaited_of_step moved unspared (all target first)
        rcases awaited.step run moved spares with ⟨⟨longer, onward⟩, next⟩
        exact ⟨spares, (induction onward next).mp all⟩
      · rintro ⟨spares, all⟩
        rcases awaited.step run moved spares with ⟨⟨longer, onward⟩, next⟩
        exact ⟨awaited, (induction onward next).mpr all⟩

omit [DecidableEq Client] in
/-- Where nobody is in flight, nothing is pending. -/
theorem NoOrphans.pending_eq_none (noOrphans : NoOrphans world)
    (quiescent : Quiescent world) (id : Uuid) :
    world.shared.pending id = none := by
  cases found : world.shared.pending id with
  | none => rfl
  | some pending =>
      rcases noOrphans id pending found with
        ⟨client, runIdHeader, body, calls, program, present, inFlight, _⟩
      exact absurd inFlight (quiescent client _ present)

/-! ## Two runs -/

/-- A request waits for its decision, which is granted and recorded. -/
def decidedMoves : List (Move Nat Request Choice) :=
  grantedMoves ++ recordingMoves

/-- The ledger refuses the event that announces an approval. -/
def refusedMoves : List (Move Nat Request Choice) :=
  grantedMoves.take 6 ++
    [.answer 0 (.refuse "connection refused"), .answer 0 .proceed]

/-- The move is no departure, and answers no handler that drops its receiver. -/
def harmless (world : GatewayWorld Nat) : Move Nat Request Choice → Bool
  | .arrive _ _ => true
  | .answer client _ =>
      match world.sessions client with
      | some ⟨_, _, .call (.dropReceiver _) _⟩ => false
      | _ => true
  | .depart _ => false

theorem spares_of_harmless {world : GatewayWorld Nat}
    {move : Move Nat Request Choice}
    (checked : harmless world move = true) : Spares world move := by
  cases move with
  | arrive client request => trivial
  | answer client choice =>
      intro request calls channel next present
      rw [harmless, present] at checked
      cases checked
  | depart client => cases checked

/-- All handlers of a log have ended, and an approval is pending. -/
def leftOver (log : GatewayLog Nat) (world : GatewayWorld Nat) : Bool :=
  log.all (fun entry =>
      match entry with
      | .arrived client _ =>
          (world.sessions client).all fun session =>
            session.program.ended.isSome
      | _ => true) &&
    (world.shared.pending 7).isSome

theorem quiescent_of_leftOver {log : GatewayLog Nat}
    {world : GatewayWorld Nat}
    (run : GatewayRun Nat approvalService log world)
    (checked : leftOver log world = true) :
    Quiescent world ∧ world.shared.pending 7 ≠ none := by
  rw [leftOver, Bool.and_eq_true, List.all_eq_true] at checked
  rcases checked with ⟨ended, pending⟩
  exact
    ⟨quiescent_of_arrived run fun client request arrived => ended _ arrived,
      Option.isSome_iff_ne_none.mp pending⟩

/--
In a run of the gateway no pending approval is ever orphaned exactly if no
step ends the wait for one.
-/
theorem noOrphans_iff_spared {first last : GatewayWorld Client}
    (isInitial : (gateway Client service).initial first)
    {steps : List (GatewayWorld Client × Move Client Request Choice)}
    (path : Path (gateway Client service) first steps last) :
    (∀ state ∈ states steps last, NoOrphans state) ↔
      ∀ step ∈ steps, Spares step.1 step.2 := by
  have start : GatewayRun Client service [] first := .start isInitial
  have nothing : Awaited first.shared := by
    rw [isInitial.1]
    intro id pending found
    cases found
  rw [← awaited_iff_spared start nothing path]
  have reached := path.reachable (.start isInitial)
  constructor
  · intro noOrphans state member id pending found
    rcases noOrphans state member id pending found with
      ⟨client, runIdHeader, body, calls, program, _, _, waits⟩
    exact ⟨client, waits⟩
  · intro awaited state member
    have here : Reachable (gateway Client service) unrestricted state := by
      rcases List.mem_append.mp member with inside | atEnd
      · rcases List.mem_map.mp inside with ⟨step, earlier, rfl⟩
        exact reached.2 step earlier
      · rw [List.mem_singleton.mp atEnd]
        exact reached.1
    rcases exists_logged here with ⟨log, run⟩
    exact noOrphans_of_awaited run (awaited state member)

/-- Nobody is orphaned while a request waits, is decided and records that. -/
theorem noOrphans_decidedMoves :
    ∃ steps last,
      Path (gateway Nat approvalService) idleGateway steps last ∧
        steps.map Prod.snd = decidedMoves ∧
          ∀ state ∈ states steps last, NoOrphans state := by
  rcases @exists_path_of_trace _ _ (gateway Nat approvalService) idleGateway
      decidedMoves
      (fun steps _ => steps.all fun step => harmless step.1 step.2)
      (by decide) with
    ⟨steps, last, path, moves, checked⟩
  refine
    ⟨steps, last, path, moves,
      (noOrphans_iff_spared initial_idleGateway path).mpr fun step member => ?_⟩
  exact spares_of_harmless (List.all_eq_true.mp checked step member)

/-- An approval stays in the map after its request was answered with an error. -/
theorem not_noOrphans_refusedMoves :
    ∃ world,
      Reachable (gateway Nat approvalService) unrestricted world ∧
        Quiescent world ∧ world.shared.pending 7 ≠ none ∧
          ¬ NoOrphans world := by
  rcases exists_gatewayRun refusedMoves leftOver (by decide) with
    ⟨log, world, run, checked⟩
  rcases quiescent_of_leftOver run checked with ⟨quiescent, pending⟩
  exact
    ⟨world, run.reachable, quiescent, pending,
      fun noOrphans => pending (noOrphans.pending_eq_none quiescent 7)⟩

end Trackward.Gateway.OrphanedApprovals
