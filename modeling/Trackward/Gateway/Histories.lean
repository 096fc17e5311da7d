import Trackward.Gateway.ApprovalChannels

/-!
# The history of a log

What has happened is listed by the log of a run, entry by entry.
-/

namespace Trackward.Gateway.Histories

open Trackward.ChainCore.Encode
open Trackward.Gateway.ApprovalChannels
open Trackward.Gateway.Calls
open Trackward.Gateway.Handlers
open Trackward.Lib.Logs
open Trackward.Lib.Programs
open Trackward.Lib.Sessions

variable {Client : Type}

/-- What happens when a call is answered. -/
def happened : Choice → GatewayEvent → Option Happening
  | .accept id seq, ⟨.ledger call, _⟩ => some (.wrote call id seq)
  | .lose id seq _, ⟨.ledger call, _⟩ => some (.wrote call id seq)
  | .respond _, ⟨.forward call, _⟩ => some (.forwarded call)
  | .proceed, ⟨.send id pending decision, true⟩ =>
      some (.decided id pending decision)
  | _, _ => none

/-- An answered call adds what happened to the history. -/
theorem history_of_respond {state after : State Client} {client : Client}
    {choice : Choice} {op : Op} {answer : op.Answer}
    (responded : state.respond client choice op = some (answer, after)) :
    after.history = state.history ++ (happened choice ⟨op, answer⟩).toList := by
  cases State.responds_of_respond responded with
  | accept | lose | respond => rfl
  | send id pending decision =>
      unfold State.send
      split
      · rfl
      · simp [happened, State.dropSender, State.modifyChannel]
  | refuse | time | mint | channel | insertPending | removePending
  | receive | dropSender | dropReceiver =>
      simp [happened, State.dropReceiver, State.dropSender,
        State.modifyChannel]

/-- What happens at an entry of the log. -/
def happening : Entry gatewayHost Client Request Choice → Option Happening
  | .called _ choice event => happened choice event
  | _ => none

/-- The history lists what happened at the entries of the log. -/
theorem history_of_run [DecidableEq Client] {service : Service}
    {log : GatewayLog Client} {world : GatewayWorld Client}
    (run : GatewayRun Client service log world) :
    world.shared.history = log.filterMap happening := by
  induction run with
  | start isInitial =>
      rw [isInitial.1]
      rfl
  | arrive earlier request absent induction =>
      rw [List.filterMap_append, ← induction]
      exact (List.append_nil _).symm
  | @call log world earlier client request calls op next present choice
      answer shared responded induction =>
      rw [List.filterMap_append, ← induction, history_of_respond responded,
        List.filterMap_cons, List.filterMap_nil]
      cases happened : happened choice ⟨op, answer⟩ with
      | none => simp [happening, happened]
      | some what => simp [happening, happened]
  | depart earlier present induction =>
      rw [List.filterMap_append, ← induction]
      exact (List.append_nil _).symm

/-- A write in the history was answered at an entry. -/
theorem called_of_happening {entry : Entry gatewayHost Client Request Choice}
    {call : LedgerCall} {id : Uuid} {seq : Int64}
    (found : happening entry = some (.wrote call id seq)) :
    ∃ client choice answer,
      entry = .called client choice ⟨.ledger call, answer⟩ := by
  unfold happening at found
  split at found
  · rename_i client choice event
    unfold happened at found
    split at found
    · cases found
      exact ⟨client, _, _, rfl⟩
    · cases found
      exact ⟨client, _, _, rfl⟩
    · cases found
    · cases found
    · cases found
  · cases found

/-- A write that was answered with a reply was accepted. -/
theorem accepted_of_called [DecidableEq Client] {service : Service}
    {log : GatewayLog Client} {world : GatewayWorld Client}
    (run : GatewayRun Client service log world) {place : Nat}
    {client : Client} {choice : Choice} {call : LedgerCall}
    {reply : LedgerReply call}
    (here :
      log[place]? = some (.called client choice ⟨.ledger call, .ok reply⟩)) :
    ∃ id seq, choice = .accept id seq := by
  rcases run.at here with
    ⟨before, request, calls, next, shared, _, _, responded⟩
  cases State.responds_of_respond responded with
  | accept call id seq => exact ⟨id, seq, rfl⟩

/-- A write that was not refused is in the history. -/
theorem wrote_of_called [DecidableEq Client] {service : Service}
    {log : GatewayLog Client} {world : GatewayWorld Client}
    (run : GatewayRun Client service log world) {place : Nat}
    {client : Client} {choice : Choice} {call : LedgerCall}
    {answer : Except String (LedgerReply call)}
    (here : log[place]? = some (.called client choice ⟨.ledger call, answer⟩))
    (accepted : ∀ text, choice ≠ .refuse text) :
    ∃ id seq, .wrote call id seq ∈ world.shared.history := by
  rcases run.at here with
    ⟨before, request, calls, next, shared, _, _, responded⟩
  have member := List.mem_of_getElem? here
  rw [history_of_run run]
  cases State.responds_of_respond responded with
  | accept call id seq | lose call id seq =>
      exact ⟨id, seq, List.mem_filterMap.mpr ⟨_, member, rfl⟩⟩
  | refuse call text => exact absurd rfl (accepted text)

end Trackward.Gateway.Histories
