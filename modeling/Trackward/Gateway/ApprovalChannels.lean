import Trackward.Gateway.Handlers
import Trackward.Lib.Places

/-!
# Where an approval has come from

A pending approval was inserted and not removed since; a decision on a channel
was sent there; who waits on a channel has opened it, has not departed and has
not stopped waiting.  These facts connect the state of the gateway with the
places of its log.
-/

namespace Trackward.Gateway.ApprovalChannels

open Trackward.ChainCore.Encode
open Trackward.Gateway.Calls
open Trackward.Gateway.Handlers
open Trackward.Lib.Logs
open Trackward.Lib.Programs
open Trackward.Lib.Sessions

variable {Client : Type}

/-- A call of the gateway with its answer. -/
abbrev GatewayEvent := Program.Event gatewayHost

/-! ## What is on a channel -/

/-- The decision that was sent on a channel. -/
def messageAt (state : State Client) (channel : Nat) : Option Decision :=
  state.channels[channel]?.bind Channel.message

/-- The client that waits on a channel. -/
def receiverAt (state : State Client) (channel : Nat) : Option Client :=
  state.channels[channel]?.bind Channel.receiver

section Views

variable {state : State Client} {channel other : Nat}

theorem getElem_modifyChannel (change : Channel Client → Channel Client) :
    (state.modifyChannel channel change).channels[other]? =
      if channel = other then state.channels[other]?.map change
      else state.channels[other]? := by
  rw [State.modifyChannel, List.getElem?_modify]
  split
  · rfl
  · simp

theorem messageAt_modifyChannel {change : Channel Client → Channel Client}
    (same : ∀ one, (change one).message = one.message) :
    messageAt (state.modifyChannel channel change) other =
      messageAt state other := by
  rw [messageAt, messageAt, getElem_modifyChannel]
  split
  · cases state.channels[other]? with
    | none => rfl
    | some one => exact same one
  · rfl

theorem receiverAt_modifyChannel {change : Channel Client → Channel Client}
    (same : ∀ one, (change one).receiver = one.receiver) :
    receiverAt (state.modifyChannel channel change) other =
      receiverAt state other := by
  rw [receiverAt, receiverAt, getElem_modifyChannel]
  split
  · cases state.channels[other]? with
    | none => rfl
    | some one => exact same one
  · rfl

@[simp]
theorem messageAt_dropSender :
    messageAt (state.dropSender channel) other = messageAt state other :=
  messageAt_modifyChannel fun _ => rfl

@[simp]
theorem receiverAt_dropSender :
    receiverAt (state.dropSender channel) other = receiverAt state other :=
  receiverAt_modifyChannel fun _ => rfl

@[simp]
theorem messageAt_dropReceiver :
    messageAt (state.dropReceiver channel) other = messageAt state other :=
  messageAt_modifyChannel fun _ => rfl

/-- Who waits after a receiver was dropped waits on another channel. -/
theorem receiverAt_dropReceiver {client : Client}
    (waits : receiverAt (state.dropReceiver channel) other = some client) :
    receiverAt state other = some client ∧ channel ≠ other := by
  rw [receiverAt, State.dropReceiver, getElem_modifyChannel] at waits
  split at waits
  · cases found : state.channels[other]? with
    | none =>
        rw [found] at waits
        cases waits
    | some one =>
        rw [found] at waits
        cases waits
  · rename_i different
    exact ⟨waits, different⟩

@[simp]
theorem messageAt_insertPending {id : Uuid} {pending : PendingApproval} :
    messageAt (state.insertPending id pending) other =
      messageAt state other := by
  have inserted (before : State Client) :
      messageAt
          { before.modifyChannel pending.decisionTx
              fun one => { one with sender := .stored } with
            pending := Function.update state.pending id (some pending) }
          other =
        messageAt before other :=
    messageAt_modifyChannel fun _ => rfl
  rw [State.insertPending, inserted]
  split
  · exact messageAt_dropSender
  · rfl

@[simp]
theorem receiverAt_insertPending {id : Uuid} {pending : PendingApproval} :
    receiverAt (state.insertPending id pending) other =
      receiverAt state other := by
  have inserted (before : State Client) :
      receiverAt
          { before.modifyChannel pending.decisionTx
              fun one => { one with sender := .stored } with
            pending := Function.update state.pending id (some pending) }
          other =
        receiverAt before other :=
    receiverAt_modifyChannel fun _ => rfl
  rw [State.insertPending, inserted]
  split
  · exact receiverAt_dropSender
  · rfl

end Views

/-! ## What an answered call does -/

/-- What a call changes on the channels and in the map. -/
structure Turns (client : Client) (event : GatewayEvent)
    (before after : State Client) : Prop where
  length : before.channels.length ≤ after.channels.length
  opened :
    ∀ channel : Nat, event = ⟨.channel, channel⟩ →
      channel = before.channels.length ∧ channel < after.channels.length
  inserted :
    ∀ id pending, after.pending id = some pending →
      event = ⟨.insertPending id pending, ()⟩ ∨
        before.pending id = some pending ∧
          ∀ other, event ≠ ⟨.removePending id, some other⟩
  removed :
    ∀ id pending, event = ⟨.removePending id, some pending⟩ →
      before.pending id = some pending
  message :
    ∀ channel decision, messageAt after channel = some decision →
      messageAt before channel = some decision ∨
        ∃ id pending,
          event = ⟨.send id pending decision, true⟩ ∧
            pending.decisionTx = channel
  kept :
    ∀ channel, messageAt before channel ≠ none →
      messageAt after channel ≠ none
  sent :
    ∀ id pending decision, event = ⟨.send id pending decision, true⟩ →
      messageAt after pending.decisionTx ≠ none ∧
        ∃ receiver, receiverAt before pending.decisionTx = some receiver
  received :
    ∀ channel decision, event = ⟨.receive channel, .ok decision⟩ →
      messageAt before channel = some decision
  closed :
    ∀ channel, event = ⟨.receive channel, .error ()⟩ →
      messageAt before channel = none
  receiver :
    ∀ channel receiver, receiverAt after channel = some receiver →
      event = ⟨.channel, channel⟩ ∧ receiver = client ∨
        receiverAt before channel = some receiver ∧
          event.op ≠ .receive channel ∧ event.op ≠ .dropReceiver channel

section Turns

variable {client : Client} {before : State Client}

/-- The calls that are about approvals. -/
def isApproval : Op → Bool
  | .ledger _ => false
  | .forward _ => false
  | .now => false
  | .newApprovalId => false
  | _ => true

/-- Other calls leave the channels and the map as they are. -/
theorem turns_of_same {event : GatewayEvent} {after : State Client}
    (other : isApproval event.op = false)
    (channels : after.channels = before.channels)
    (pending : after.pending = before.pending) :
    Turns client event before after := by
  have differs {op : Op} {answer : op.Answer}
      (approval : isApproval op = true) : event ≠ ⟨op, answer⟩ := by
    rintro rfl
    rw [approval] at other
    cases other
  have message (channel : Nat) :
      messageAt after channel = messageAt before channel := by
    rw [messageAt, messageAt, channels]
  constructor
  · rw [channels]
  · intro channel same
    exact absurd same (differs rfl)
  · intro id inserted found
    rw [pending] at found
    exact Or.inr ⟨found, fun removed => differs rfl⟩
  · intro id removed same
    exact absurd same (differs rfl)
  · intro channel decision found
    rw [message] at found
    exact Or.inl found
  · intro channel found
    rwa [message]
  · intro id pending decision same
    exact absurd same (differs rfl)
  · intro channel decision same
    exact absurd same (differs rfl)
  · intro channel same
    exact absurd same (differs rfl)
  · intro channel receiver waits
    rw [receiverAt, channels] at waits
    refine Or.inr ⟨waits, ?_, ?_⟩
    · intro same
      rw [same] at other
      cases other
    · intro same
      rw [same] at other
      cases other

/-- A new channel is empty, and its opener waits on it. -/
theorem turns_channel :
    Turns client ⟨.channel, before.channels.length⟩ before
      { before with
        channels :=
          before.channels ++ [⟨some client, .held client, none⟩] } := by
  have view (channel : Nat) :
      (before.channels ++ [⟨some client, .held client, none⟩])[channel]? =
        if channel = before.channels.length then
          some ⟨some client, .held client, none⟩
        else before.channels[channel]? := by
    rw [List.getElem?_append]
    split
    · rename_i small
      rw [if_neg (Nat.ne_of_lt small)]
    · rename_i large
      rw [List.getElem?_singleton]
      split
      · rw [if_pos (by omega)]
      · rw [if_neg (by omega), List.getElem?_eq_none (by omega)]
  constructor
  · simp
  · intro channel same
    cases same
    simp
  · intro id pending found
    exact Or.inr ⟨found, fun other same => by cases same⟩
  · intro id pending same
    cases same
  · intro channel decision found
    rw [messageAt, view] at found
    split at found
    · cases found
    · exact Or.inl found
  · intro channel found
    rw [messageAt, view]
    split
    · rename_i new
      rw [messageAt, new, List.getElem?_eq_none (Nat.le_refl _)] at found
      exact absurd rfl found
    · exact found
  · intro id pending decision same
    cases same
  · intro channel decision same
    cases same
  · intro channel same
    cases same
  · intro channel receiver waits
    rw [receiverAt, view] at waits
    split at waits
    · rename_i new
      cases waits
      exact Or.inl ⟨by rw [new], rfl⟩
    · refine Or.inr ⟨waits, fun same => ?_, fun same => ?_⟩
      · cases same
      · cases same

/-- The calls that open a channel, send on it or end a wait. -/
def isTransfer : GatewayEvent → Bool
  | ⟨.channel, _⟩ => true
  | ⟨.send _ _ _, delivered⟩ => delivered
  | ⟨.receive _, _⟩ => true
  | ⟨.dropReceiver _, _⟩ => true
  | _ => false

/-- A call that leaves what was sent and who waits, up to the map. -/
theorem turns_of_views {event : GatewayEvent} {after : State Client}
    (length : after.channels.length = before.channels.length)
    (message :
      ∀ channel, messageAt after channel = messageAt before channel)
    (receiver :
      ∀ channel, receiverAt after channel = receiverAt before channel)
    (inserted :
      ∀ id pending, after.pending id = some pending →
        event = ⟨.insertPending id pending, ()⟩ ∨
          before.pending id = some pending ∧
            ∀ other, event ≠ ⟨.removePending id, some other⟩)
    (removed :
      ∀ id pending, event = ⟨.removePending id, some pending⟩ →
        before.pending id = some pending)
    (other : isTransfer event = false) :
    Turns client event before after := by
  have differs {op : Op} {answer : op.Answer}
      (transfer : isTransfer ⟨op, answer⟩ = true) : event ≠ ⟨op, answer⟩ := by
    rintro rfl
    rw [transfer] at other
    cases other
  constructor
  · rw [length]
  · intro channel same
    exact absurd same (differs rfl)
  · exact inserted
  · exact removed
  · intro channel decision found
    rw [message] at found
    exact Or.inl found
  · intro channel found
    rwa [message]
  · intro id pending decision same
    exact absurd same (differs rfl)
  · intro channel decision same
    exact absurd same (differs rfl)
  · intro channel same
    exact absurd same (differs rfl)
  · intro channel waiting waits
    rw [receiver] at waits
    rcases event with ⟨op, answer⟩
    refine Or.inr ⟨waits, ?_, ?_⟩
    · rintro rfl
      cases other
    · rintro rfl
      cases other

theorem length_modifyChannel (channel : Nat)
    (change : Channel Client → Channel Client) :
    (before.modifyChannel channel change).channels.length =
      before.channels.length :=
  List.length_modify ..

theorem turns_insertPending (id : Uuid) (pending : PendingApproval) :
    Turns client ⟨.insertPending id pending, ()⟩ before
      (before.insertPending id pending) := by
  have length :
      (before.insertPending id pending).channels.length =
        before.channels.length := by
    have inserted (state : State Client) :
        ({ state.modifyChannel pending.decisionTx
              fun one => { one with sender := .stored } with
            pending :=
              Function.update before.pending id (some pending) } :
              State Client).channels.length =
          state.channels.length :=
      length_modifyChannel _ _
    rw [State.insertPending, inserted]
    split
    · exact length_modifyChannel _ _
    · rfl
  refine turns_of_views length (fun _ => messageAt_insertPending)
    (fun _ => receiverAt_insertPending) ?_ (fun _ _ same => by cases same)
    rfl
  intro other found inserted
  change
    Function.update before.pending id (some pending) other = some found
      at inserted
  by_cases same : other = id
  · subst same
    rw [Function.update_self] at inserted
    cases inserted
    exact Or.inl rfl
  · rw [Function.update_of_ne same] at inserted
    exact Or.inr ⟨inserted, fun _ same => by cases same⟩

theorem turns_removePending (id : Uuid) :
    Turns client ⟨.removePending id, (before.removePending client id).1⟩
      before (before.removePending client id).2 := by
  cases found : before.pending id with
  | none =>
      rw [State.removePending, found]
      refine turns_of_views rfl (fun _ => rfl) (fun _ => rfl) ?_
        (fun _ _ same => by cases same) rfl
      intro other pending there
      exact Or.inr ⟨there, fun _ same => by cases same⟩
  | some pending =>
      rw [State.removePending, found]
      refine turns_of_views (length_modifyChannel _ _)
        (fun _ => messageAt_modifyChannel fun _ => rfl)
        (fun _ => receiverAt_modifyChannel fun _ => rfl) ?_ ?_ rfl
      · intro other last there
        change Function.update before.pending id none other = some last
          at there
        by_cases same : other = id
        · subst same
          rw [Function.update_self] at there
          cases there
        · rw [Function.update_of_ne same] at there
          refine Or.inr ⟨there, fun _ removed => ?_⟩
          cases removed
          exact same rfl
      · intro other last same
        cases same
        exact found

theorem turns_dropSender (channel : Nat) :
    Turns client ⟨.dropSender channel, ()⟩ before
      (before.dropSender channel) := by
  refine turns_of_views (length_modifyChannel _ _)
    (fun _ => messageAt_dropSender) (fun _ => receiverAt_dropSender) ?_
    (fun _ _ same => by cases same) rfl
  intro id pending found
  exact Or.inr ⟨found, fun _ same => by cases same⟩

/-- A decision is sent to a client that waits. -/
theorem turns_send (id : Uuid) (pending : PendingApproval)
    (decision : Decision) :
    Turns client
      ⟨.send id pending decision, (before.send id pending decision).1⟩
      before (before.send id pending decision).2 := by
  unfold State.send
  split
  · rename_i receiver sender message found
    have view (channel : Nat) :
        messageAt
            ((before.modifyChannel pending.decisionTx fun one =>
              { one with sender := .gone, message := some decision }).note
                (.decided id pending decision))
            channel =
          if pending.decisionTx = channel then some decision
          else messageAt before channel := by
      show messageAt (before.modifyChannel _ _) channel = _
      rw [messageAt, getElem_modifyChannel]
      split
      · rename_i same
        rw [← same, found]
        rfl
      · rfl
    constructor
    · exact Nat.le_of_eq (length_modifyChannel _ _).symm
    · intro channel same
      cases same
    · intro other last there
      exact Or.inr ⟨there, fun _ same => by cases same⟩
    · intro other last same
      cases same
    · intro channel last there
      rw [view] at there
      split at there
      · rename_i same
        cases there
        exact Or.inr ⟨id, pending, rfl, same⟩
      · exact Or.inl there
    · intro channel there
      rw [view]
      split
      · exact Option.some_ne_none _
      · exact there
    · intro other last sent same
      cases same
      rw [view, if_pos rfl]
      refine ⟨Option.some_ne_none _, receiver, ?_⟩
      rw [receiverAt, found]
      rfl
    · intro channel last same
      cases same
    · intro channel same
      cases same
    · intro channel waiting waits
      have same :
          receiverAt (before.modifyChannel pending.decisionTx fun one =>
              { one with sender := .gone, message := some decision })
            channel =
          receiverAt before channel :=
        receiverAt_modifyChannel fun _ => rfl
      refine Or.inr ⟨same ▸ waits, fun other => ?_, fun other => ?_⟩
      · cases other
      · cases other
  · refine turns_of_views (length_modifyChannel _ _)
      (fun _ => messageAt_dropSender) (fun _ => receiverAt_dropSender) ?_
      (fun _ _ same => by cases same) rfl
    intro other last there
    exact Or.inr ⟨there, fun _ same => by cases same⟩

/-- The calls that end a wait. -/
def endsWait : Op → Bool
  | .receive _ => true
  | .dropReceiver _ => true
  | _ => false

/-- Whoever stops waiting on a channel knows what was sent there. -/
theorem turns_of_dropReceiver {channel : Nat} {event : GatewayEvent}
    (ends :
      event.op = .receive channel ∨ event.op = .dropReceiver channel)
    (received :
      ∀ other decision, event = ⟨.receive other, .ok decision⟩ →
        messageAt before other = some decision)
    (closed :
      ∀ other, event = ⟨.receive other, .error ()⟩ →
        messageAt before other = none) :
    Turns client event before (before.dropReceiver channel) := by
  have differs {op : Op} {answer : op.Answer} (other : endsWait op = false) :
      event ≠ ⟨op, answer⟩ := by
    rintro rfl
    rcases ends with same | same
    · cases same
      cases other
    · cases same
      cases other
  constructor
  · exact Nat.le_of_eq (length_modifyChannel _ _).symm
  · intro other same
    exact absurd same (differs rfl)
  · intro id pending there
    exact Or.inr ⟨there, fun _ => differs rfl⟩
  · intro id pending same
    exact absurd same (differs rfl)
  · intro other decision there
    rw [messageAt_dropReceiver] at there
    exact Or.inl there
  · intro other there
    rwa [messageAt_dropReceiver]
  · intro id pending decision same
    exact absurd same (differs rfl)
  · exact received
  · exact closed
  · intro other receiver waits
    rcases receiverAt_dropReceiver waits with ⟨there, different⟩
    refine Or.inr ⟨there, ?_, ?_⟩
    · intro same
      rcases ends with one | one
      · rw [one] at same
        cases same
        exact different rfl
      · rw [one] at same
        cases same
    · intro same
      rcases ends with one | one
      · rw [one] at same
        cases same
      · rw [one] at same
        cases same
        exact different rfl

theorem turns_dropReceiver (channel : Nat) :
    Turns client ⟨.dropReceiver channel, ()⟩ before
      (before.dropReceiver channel) :=
  turns_of_dropReceiver (Or.inr rfl) (fun _ _ same => by cases same)
    fun _ same => by cases same

theorem turns_receive {channel : Nat} {decision : Except Unit Decision}
    (received : before.receive channel = some decision) :
    Turns client ⟨.receive channel, decision⟩ before
      (before.dropReceiver channel) := by
  unfold State.receive at received
  refine turns_of_dropReceiver (Or.inl rfl) ?_ ?_
  · intro other sent same
    cases same
    rw [messageAt]
    split at received
    · rename_i found
      cases received
      rw [found]
      rfl
    · cases received
    · cases received
  · intro other same
    cases same
    rw [messageAt]
    split at received
    · cases received
    · rename_i found
      rw [found]
      rfl
    · cases received

/-- What any answered call does. -/
theorem turns_of_respond {after : State Client} {choice : Choice} {op : Op}
    {answer : op.Answer}
    (responded : before.respond client choice op = some (answer, after)) :
    Turns client ⟨op, answer⟩ before after := by
  cases State.responds_of_respond responded with
  | channel => exact turns_channel
  | insertPending id pending => exact turns_insertPending id pending
  | removePending id => exact turns_removePending id
  | send id pending decision => exact turns_send id pending decision
  | receive channel decision received => exact turns_receive received
  | dropSender channel => exact turns_dropSender channel
  | dropReceiver channel => exact turns_dropReceiver channel
  | accept | lose | refuse | respond | time | mint =>
      exact turns_of_same rfl rfl rfl

end Turns

/-! ## Where the state has come from -/

/-- The log of a run of the gateway. -/
abbrev GatewayLog (Client : Type) :=
  List (Entry gatewayHost Client Request Choice)

/-- All runs of a gateway that has just started, with their logs. -/
abbrev GatewayRun (Client : Type) [DecidableEq Client] (service : Service) :
    GatewayLog Client → GatewayWorld Client → Prop :=
  Logged (host Client) (serve service) fun state => state = .initial

/-- At a place of the log somebody is answered. -/
def Happens (log : GatewayLog Client) (place : Nat) (event : GatewayEvent) :
    Prop :=
  ∃ client choice, log[place]? = some (.called client choice event)

/-- What the state holds has come from places of the log. -/
structure Traced (log : GatewayLog Client) (state : State Client) : Prop where
  opened :
    ∀ place, ∀ channel : Nat, Happens log place ⟨.channel, channel⟩ →
      channel < state.channels.length
  pending :
    ∀ id pending, state.pending id = some pending →
      ∃ place,
        Happens log place ⟨.insertPending id pending, ()⟩ ∧
          ∀ later other, place < later →
            ¬ Happens log later ⟨.removePending id, some other⟩
  message :
    ∀ channel decision, messageAt state channel = some decision →
      ∃ place id pending,
        Happens log place ⟨.send id pending decision, true⟩ ∧
          pending.decisionTx = channel
  sent :
    ∀ place id pending decision,
      Happens log place ⟨.send id pending decision, true⟩ →
        messageAt state pending.decisionTx ≠ none
  receiver :
    ∀ channel client, receiverAt state channel = some client →
      ∃ place choice,
        log[place]? = some (.called client choice ⟨.channel, channel⟩) ∧
          Remains client log place log.length ∧
            ∀ later event, place < later → Happens log later event →
              event.op ≠ .receive channel ∧ event.op ≠ .dropReceiver channel

theorem Happens.concat {log : GatewayLog Client} {place : Nat}
    {event : GatewayEvent} (happens : Happens log place event)
    (entry : Entry gatewayHost Client Request Choice) :
    Happens (log ++ [entry]) place event := by
  rcases happens with ⟨client, choice, here⟩
  exact ⟨client, choice, at_concat here⟩

theorem happens_concat_cases {log : GatewayLog Client}
    {entry : Entry gatewayHost Client Request Choice} {place : Nat}
    {event : GatewayEvent} (happens : Happens (log ++ [entry]) place event) :
    Happens log place event ∨
      place = log.length ∧
        ∃ client choice, entry = .called client choice event := by
  rcases happens with ⟨client, choice, here⟩
  rcases at_concat_cases here with inside | ⟨last, same⟩
  · exact Or.inl ⟨client, choice, inside⟩
  · exact Or.inr ⟨last, client, choice, same⟩

theorem Happens.lt {log : GatewayLog Client} {place : Nat}
    {event : GatewayEvent} (happens : Happens log place event) :
    place < log.length := by
  rcases happens with ⟨client, choice, here⟩
  exact lt_length_of_at here

theorem traced_initial : Traced ([] : GatewayLog Client) .initial where
  opened := by
    rintro place channel ⟨client, choice, here⟩
    cases here
  pending := by
    intro id pending found
    cases found
  message := by
    intro channel decision found
    cases found
  sent := by
    rintro place id pending decision ⟨client, choice, here⟩
    cases here
  receiver := by
    intro channel client waits
    cases waits

/-- Arrivals and departures take nobody's pending approvals. -/
theorem Traced.unchanged {log : GatewayLog Client}
    {state after : State Client} (traced : Traced log state)
    {entry : Entry gatewayHost Client Request Choice}
    (silent : ∀ client choice event, entry ≠ .called client choice event)
    (length : after.channels.length = state.channels.length)
    (pending : after.pending = state.pending)
    (message :
      ∀ channel, messageAt after channel = messageAt state channel)
    (receiver :
      ∀ channel client, receiverAt after channel = some client →
        receiverAt state channel = some client ∧ entry ≠ .departed client) :
    Traced (log ++ [entry]) after := by
  have earlier {place : Nat} {event : GatewayEvent}
      (happens : Happens (log ++ [entry]) place event) :
      Happens log place event := by
    rcases happens_concat_cases happens with inside | ⟨_, client, choice, same⟩
    · exact inside
    · exact absurd same (silent client choice event)
  constructor
  · intro place channel happens
    rw [length]
    exact traced.opened place channel (earlier happens)
  · intro id approval found
    rw [pending] at found
    rcases traced.pending id approval found with ⟨place, inserted, since⟩
    exact
      ⟨place, inserted.concat entry, fun later other after happens =>
        since later other after (earlier happens)⟩
  · intro channel decision found
    rw [message] at found
    rcases traced.message channel decision found with
      ⟨place, id, approval, sent, same⟩
    exact ⟨place, id, approval, sent.concat entry, same⟩
  · intro place id approval decision happens
    rw [message]
    exact traced.sent place id approval decision (earlier happens)
  · intro channel client waits
    rcases receiver channel client waits with ⟨before, stays⟩
    rcases traced.receiver channel client before with
      ⟨place, choice, here, remains, since⟩
    exact
      ⟨place, choice, at_concat here, remains.concat stays,
        fun later event after happens =>
          since later event after (earlier happens)⟩

/-- An answered call is a place where the state may come from. -/
theorem Traced.called {log : GatewayLog Client} {state after : State Client}
    (traced : Traced log state) {client : Client} {choice : Choice}
    {event : GatewayEvent} (turns : Turns client event state after) :
    Traced (log ++ [.called client choice event]) after := by
  have last {other : GatewayEvent} (same : event = other) :
      Happens (log ++ [.called client choice event]) log.length other :=
    ⟨client, choice, by simp [same]⟩
  have cases {place : Nat} {other : GatewayEvent}
      (happens :
        Happens (log ++ [.called client choice event]) place other) :
      Happens log place other ∨ place = log.length ∧ event = other := by
    rcases happens_concat_cases happens with inside | ⟨here, _, _, same⟩
    · exact Or.inl inside
    · cases same
      exact Or.inr ⟨here, rfl⟩
  constructor
  · intro place channel happens
    rcases cases happens with inside | ⟨_, same⟩
    · exact Nat.lt_of_lt_of_le (traced.opened place channel inside)
        turns.length
    · exact (turns.opened channel same).2
  · intro id pending found
    rcases turns.inserted id pending found with new | ⟨old, keeps⟩
    · refine ⟨log.length, last new, fun later other after happens => ?_⟩
      have small := happens.lt
      rw [List.length_append, List.length_singleton] at small
      omega
    · rcases traced.pending id pending old with ⟨place, inserted, since⟩
      refine
        ⟨place, inserted.concat _, fun later other after happens => ?_⟩
      rcases cases happens with inside | ⟨_, same⟩
      · exact since later other after inside
      · exact keeps other same
  · intro channel decision found
    rcases turns.message channel decision found with
      old | ⟨id, pending, same, rfl⟩
    · rcases traced.message channel decision old with
        ⟨place, id, pending, sent, same⟩
      exact ⟨place, id, pending, sent.concat _, same⟩
    · exact ⟨log.length, id, pending, last same, rfl⟩
  · intro place id pending decision happens
    rcases cases happens with inside | ⟨_, same⟩
    · exact turns.kept _ (traced.sent place id pending decision inside)
    · exact (turns.sent id pending decision same).1
  · intro channel waiting waits
    rcases turns.receiver channel waiting waits with
      ⟨same, rfl⟩ | ⟨old, receives, drops⟩
    · refine ⟨log.length, choice, by simp [same], ?_, ?_⟩
      · intro place later small _
        rw [List.length_append, List.length_singleton] at small
        omega
      · intro later other after happens
        have small := happens.lt
        rw [List.length_append, List.length_singleton] at small
        omega
    · rcases traced.receiver channel waiting old with
        ⟨place, choice', here, remains, since⟩
      refine
        ⟨place, choice', at_concat here, remains.concat called_ne_departed,
          fun later other after happens => ?_⟩
      rcases cases happens with inside | ⟨_, same⟩
      · exact since later other after inside
      · cases same
        exact ⟨receives, drops⟩

section Runs

variable [DecidableEq Client] {service : Service} {log : GatewayLog Client}
variable {world : GatewayWorld Client}

/-- In every run the state has come from places of the log. -/
theorem traced_of_run (run : GatewayRun Client service log world) :
    Traced log world.shared := by
  induction run with
  | start isInitial =>
      rw [isInitial.1]
      exact traced_initial
  | arrive earlier request absent induction =>
      refine induction.unchanged ?_ rfl rfl (fun _ => rfl) ?_
      · intro client choice event same
        cases same
      · intro channel client waits
        refine ⟨waits, fun same => ?_⟩
        cases same
  | call earlier present responded induction =>
      exact induction.called (turns_of_respond responded)
  | @depart log world earlier client session present induction =>
      have view (channel : Nat) :
          (world.shared.channels.map (Channel.abandon client))[channel]? =
            world.shared.channels[channel]?.map (Channel.abandon client) :=
        List.getElem?_map ..
      refine induction.unchanged ?_ (List.length_map _) rfl ?_ ?_
      · intro caller choice event same
        cases same
      · intro channel
        change
          ((world.shared.channels.map _)[channel]?).bind Channel.message = _
        rw [view, messageAt]
        cases world.shared.channels[channel]? with
        | none => rfl
        | some one => rfl
      · intro channel waiting waits
        change
          ((world.shared.channels.map _)[channel]?).bind Channel.receiver = _
            at waits
        rw [view] at waits
        cases found : world.shared.channels[channel]? with
        | none =>
            rw [found] at waits
            cases waits
        | some one =>
            rw [found] at waits
            change (Channel.abandon client one).receiver = _ at waits
            rw [Channel.abandon] at waits
            split at waits
            · cases waits
            · rename_i other
              refine ⟨by rw [receiverAt, found]; exact waits, ?_⟩
              rintro same
              cases same
              exact other waits

/-- What a call at a place does, and where the state before it has come from. -/
theorem traced_at (run : GatewayRun Client service log world)
    {place : Nat} {client : Client} {choice : Choice} {event : GatewayEvent}
    (here : log[place]? = some (.called client choice event)) :
    ∃ before after,
      Traced (log.take place) before ∧ Turns client event before after := by
  rcases run.at here with
    ⟨middle, request, calls, next, shared, shorter, present, responded⟩
  exact
    ⟨middle.shared, shared, traced_of_run shorter,
      turns_of_respond responded⟩

omit [DecidableEq Client] in
theorem Happens.take {place last : Nat} {event : GatewayEvent}
    (happens : Happens log place event) (before : place < last) :
    Happens (log.take last) place event := by
  rcases happens with ⟨client, choice, here⟩
  exact ⟨client, choice, at_take before here⟩

omit [DecidableEq Client] in
theorem happens_of_take {place last : Nat} {event : GatewayEvent}
    (happens : Happens (log.take last) place event) :
    place < last ∧ Happens log place event := by
  rcases happens with ⟨client, choice, here⟩
  rcases at_of_take here with ⟨before, there⟩
  exact ⟨before, client, choice, there⟩

/-- Every channel is opened once. -/
theorem channel_inj (run : GatewayRun Client service log world)
    {first second channel : Nat}
    (one : Happens log first ⟨.channel, channel⟩)
    (other : Happens log second ⟨.channel, channel⟩) : first = second := by
  have notBefore {first second : Nat}
      (one : Happens log first ⟨.channel, channel⟩)
      (other : Happens log second ⟨.channel, channel⟩) :
      ¬ first < second := by
    intro before
    rcases other with ⟨client, choice, here⟩
    rcases traced_at run here with ⟨state, after, traced, turns⟩
    have small := traced.opened first channel (one.take before)
    rw [(turns.opened channel rfl).1] at small
    exact Nat.lt_irrefl _ small
  have less := notBefore one other
  have more := notBefore other one
  omega

/-- Only what was inserted and not removed since is removed. -/
theorem inserted_of_removed (run : GatewayRun Client service log world)
    {last : Nat} {id : Uuid} {pending : PendingApproval}
    (removed : Happens log last ⟨.removePending id, some pending⟩) :
    ∃ place < last,
      Happens log place ⟨.insertPending id pending, ()⟩ ∧
        ∀ later other, place < later → later < last →
          ¬ Happens log later ⟨.removePending id, some other⟩ := by
  rcases removed with ⟨client, choice, here⟩
  rcases traced_at run here with ⟨state, after, traced, turns⟩
  rcases traced.pending id pending (turns.removed id pending rfl) with
    ⟨place, inserted, since⟩
  rcases happens_of_take inserted with ⟨before, there⟩
  exact
    ⟨place, before, there, fun later other after less happens =>
      since later other after (happens.take less)⟩

/-- Only what was sent is received. -/
theorem sent_of_received (run : GatewayRun Client service log world)
    {last channel : Nat} {decision : Decision}
    (received : Happens log last ⟨.receive channel, .ok decision⟩) :
    ∃ place < last, ∃ id pending,
      Happens log place ⟨.send id pending decision, true⟩ ∧
        pending.decisionTx = channel := by
  rcases received with ⟨client, choice, here⟩
  rcases traced_at run here with ⟨state, after, traced, turns⟩
  rcases traced.message channel decision
      (turns.received channel decision rfl) with
    ⟨place, id, pending, sent, same⟩
  rcases happens_of_take sent with ⟨before, there⟩
  exact ⟨place, before, id, pending, there, same⟩

/-- Where the wait was in vain, nothing was sent before. -/
theorem not_sent_of_closed (run : GatewayRun Client service log world)
    {place last : Nat} {id : Uuid} {pending : PendingApproval}
    {decision : Decision}
    (closed : Happens log last ⟨.receive pending.decisionTx, .error ()⟩)
    (sent : Happens log place ⟨.send id pending decision, true⟩) :
    ¬ place < last := by
  intro before
  rcases closed with ⟨client, choice, here⟩
  rcases traced_at run here with ⟨state, after, traced, turns⟩
  have message := traced.sent place id pending decision (sent.take before)
  exact message (turns.closed pending.decisionTx rfl)

/-- A decision is sent to a client that has opened the channel and waits. -/
theorem waits_of_sent (run : GatewayRun Client service log world)
    {last : Nat} {id : Uuid} {pending : PendingApproval}
    {decision : Decision}
    (sent : Happens log last ⟨.send id pending decision, true⟩) :
    ∃ place < last, ∃ client choice,
      log[place]? =
          some (.called client choice ⟨.channel, pending.decisionTx⟩) ∧
        Remains client log place last ∧
          ∀ later event, place < later → later < last →
            Happens log later event →
              event.op ≠ .receive pending.decisionTx ∧
                event.op ≠ .dropReceiver pending.decisionTx := by
  rcases sent with ⟨sender, choice, here⟩
  rcases traced_at run here with ⟨state, after, traced, turns⟩
  rcases (turns.sent id pending decision rfl).2 with ⟨client, waits⟩
  rcases traced.receiver _ client waits with
    ⟨place, choice', opened, remains, since⟩
  rcases at_of_take opened with ⟨before, there⟩
  refine ⟨place, before, client, choice', there, ?_, ?_⟩
  · intro later more less departed
    have small := lt_length_of_at here
    refine remains later more ?_ (at_take less departed)
    rw [List.length_take]
    omega
  · intro later event more less happens
    exact since later event more (happens.take less)

end Runs

end Trackward.Gateway.ApprovalChannels
