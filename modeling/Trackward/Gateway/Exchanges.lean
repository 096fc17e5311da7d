import Trackward.Gateway.Deployment

/-!
# What comes of a write to the ledger

A write that the gateway believes accepted has left one row, the one that was
answered.  One that ends in an error has left nothing, or such a row all the
same: the answer was lost.
-/

namespace Trackward.Gateway.Exchanges

open Trackward.Gateway.Calls
open Trackward.Gateway.Deployment
open Trackward.Ledger.Actor
open Trackward.Ledger.Answers
open Trackward.Ledger.Models (Effect Fault)
open Trackward.Ledger.Records
open Trackward.Lib
open Trackward.Lib.Outcomes
open Trackward.Lib.Programs
open Trackward.Lib.Programs.Program (Leaves)
open Trackward.Lib.Substitution

/-! ## What an exchange has written -/

/-- A call of a deployed handler with its answer. -/
abbrev DeployedEvent := Program.Event deployedHost

/-- A statement counts; with the reply the transaction is over. -/
def noteEvent (tally : Tally Entry) : DeployedEvent → Tally Entry
  | ⟨.statement op, answer⟩ => tally.event ⟨op, answer⟩
  | ⟨.reply, _⟩ => { tally with pending := [] }
  | _ => tally

/-- What an exchange has inserted and committed so far. -/
def tallyOf (events : List DeployedEvent) : Tally Entry :=
  events.foldl noteEvent Tally.zero

theorem tallyOf_concat (events : List DeployedEvent) (event : DeployedEvent) :
    tallyOf (events ++ [event]) = noteEvent (tallyOf events) event := by
  simp [tallyOf]

/-- The row is one that the ledger fills for a write of the gateway. -/
def Stores (setup : Setup) (call : LedgerCall) (entry : Entry) : Prop :=
  ∃ arrival route actor,
    routeOf setup.wire arrival call = some route ∧
      fromRequestParts setup.state.defaultActor setup.client.headers =
          .ok actor ∧
        Fills setup.state.service.runtime actor route entry

/-- What an exchange has committed, and how it ends. -/
inductive Concluded (setup : Setup) (call : LedgerCall) :
    List Entry → Except String (LedgerReply call) → Prop where
  | accepted {entry : Entry} (stores : Stores setup call entry) :
      Concluded setup call [entry]
        (.ok (.accepted (idOf entry) (seqOf entry) call))
  | lost {entry : Entry} (stores : Stores setup call entry)
      (text : String) : Concluded setup call [entry] (.error text)
  | refused (text : String) : Concluded setup call [] (.error text)

/-- Every write goes to a route that writes one row. -/
theorem writesOne_of_routeOf {wire : Wire} {arrival : Arrival}
    {call : LedgerCall} {route : WriteRoute}
    (routed : routeOf wire arrival call = some route) :
    writesOne route = true := by
  cases call with
  | createRun agent metadata | appendEvent runId kind metadata
  | recordSideEffect runId invocation kind target status metadata =>
      rcases Option.bind_eq_some_iff.mp routed with ⟨sent, _, ⟨⟩⟩
      rfl
  | recordToolInvocation runId tool input output status code =>
      rcases Option.bind_eq_some_iff.mp routed with ⟨sent, _, rest⟩
      rcases Option.bind_eq_some_iff.mp rest with ⟨sent', _, ⟨⟩⟩
      rfl
  | bindRun runId binding | recordHumanApproval id runId tool decision =>
      cases routed
      rfl

/-! ## Executions -/

/-- A handler that was run to its end by its statements. -/
theorem runs_of_onLedger {α : Type}
    {program : Program wholeDb HttpError α} {events : List DeployedEvent}
    {outcome : Except Empty (Except HttpError α)}
    (executed : (onLedger program).Executes events outcome)
    (before : Tally Entry) :
    ∃ ending,
      outcome = .ok ending ∧
        Runs program before (events.foldl noteEvent before) ending := by
  induction program generalizing events before with
  | done value =>
      rcases Program.executes_done_iff.mp executed with ⟨rfl, rfl⟩
      exact ⟨_, rfl, runs_done_iff.mpr ⟨rfl, rfl⟩⟩
  | raise error =>
      rcases Program.executes_done_iff.mp executed with ⟨rfl, rfl⟩
      exact ⟨_, rfl, runs_raise_iff.mpr ⟨rfl, rfl⟩⟩
  | call op next induction =>
      rcases Program.executes_call_iff.mp executed with
        ⟨answer, rest, rfl, continued⟩
      rcases induction answer continued (before.event ⟨op, answer⟩) with
        ⟨ending, rfl, events', ran, noted⟩
      exact
        ⟨ending, rfl, _,
          Program.executes_call_iff.mpr ⟨answer, events', rfl, ran⟩, noted⟩

/-- The answer of the ledger comes back, or an error in its place. -/
theorem executes_sendBack {setup : Setup} {call : LedgerCall}
    {ending : Except HttpError Entry} {events : List DeployedEvent}
    {answer : Except String (LedgerReply call)}
    (executed :
      (sendBack setup call ending).Executes events (.ok answer)) :
    ∃ reply,
      events = [⟨.reply, reply⟩] ∧
        (answer = concluded setup call ending ∨
          ∃ text, answer = .error text) := by
  rcases Program.executes_call_iff.mp executed with
    ⟨reply, rest, rfl, continued⟩
  rcases reply with text | sent
  · rcases Program.executes_done_iff.mp continued with ⟨rfl, same⟩
    exact ⟨_, rfl, Or.inr ⟨text, Except.ok.inj same⟩⟩
  · rcases Program.executes_done_iff.mp continued with ⟨rfl, same⟩
    exact ⟨_, rfl, Or.inl (Except.ok.inj same)⟩

/-- The handler of a write commits the row that it answers with, or none. -/
theorem stores_of_runs {setup : Setup} {arrival : Arrival}
    {call : LedgerCall} {handler : Answering}
    (handles : handlerOf setup arrival call = some handler)
    {after : Tally Entry} {ending : Except HttpError Entry}
    (ran : Runs handler Tally.zero after ending) :
    (∃ entry,
        ending = .ok entry ∧ after.committed = [entry] ∧
          Stores setup call entry) ∨
      ∃ error, ending = .error error ∧ after.committed = [] := by
  rcases Option.bind_eq_some_iff.mp handles with ⟨route, routed, answers⟩
  rcases answered_of_runs answers (writesOne_of_routeOf routed) ran with
    ⟨actor, extracted, answered⟩ | failed
  · rcases answered with ⟨entry, rfl, one, fills⟩ | failed
    · exact
        Or.inl
          ⟨entry, rfl, one, arrival, route, actor, routed, extracted, fills⟩
    · exact Or.inr failed
  · exact Or.inr failed

/-- An exchange that has ended has ended in one of these ways. -/
theorem concluded_of_executes {setup : Setup} {call : LedgerCall}
    {events : List DeployedEvent}
    {answer : Except String (LedgerReply call)}
    (executed : (exchange setup call).Executes events (.ok answer)) :
    (tallyOf events).pending = [] ∧
      Concluded setup call (tallyOf events).committed answer := by
  rcases Program.executes_call_iff.mp executed with
    ⟨delivered, rest, rfl, continued⟩
  rcases delivered with text | arrival
  · rcases Program.executes_done_iff.mp continued with ⟨rfl, same⟩
    cases same
    exact ⟨rfl, .refused text⟩
  · change (handled setup call (handlerOf setup arrival call)).Executes rest _
      at continued
    cases handles : handlerOf setup arrival call with
    | none =>
        rw [handles] at continued
        rcases Program.executes_done_iff.mp continued with ⟨rfl, same⟩
        cases same
        exact ⟨rfl, .refused _⟩
    | some handler =>
        rw [handles] at continued
        rcases executes_splice continued with
          ⟨outcome, before, after, rfl, served, sent⟩
        rcases runs_of_onLedger served Tally.zero with ⟨ending, same, ran⟩
        cases same
        rcases executes_sendBack sent with ⟨reply, rfl, returned⟩
        have noted :
            tallyOf (⟨.deliver call, .ok arrival⟩ :: (before ++
                [⟨.reply, reply⟩])) =
              { before.foldl noteEvent Tally.zero with pending := [] } := by
          simp [tallyOf, noteEvent]
        rw [noted]
        refine ⟨rfl, ?_⟩
        change Concluded setup call
          (before.foldl noteEvent Tally.zero).committed answer
        rcases stores_of_runs handles ran with
          ⟨entry, rfl, one, stores⟩ | ⟨error, rfl, nothing⟩
        · rw [one]
          rcases returned with rfl | ⟨text, rfl⟩
          · exact .accepted stores
          · exact .lost stores text
        · rw [nothing]
          rcases returned with rfl | ⟨text, rfl⟩
          · exact .refused _
          · exact .refused text

/-! ## Exchanges that are broken off -/

/-- A call on the way of a write. -/
def Underway : DeployedOp → Prop
  | .gateway _ => False
  | _ => True

theorem onlyCalls_onLedger {α : Type} (program : Program wholeDb HttpError α) :
    (onLedger program).OnlyCalls Underway := by
  induction program with
  | done value => trivial
  | raise error => trivial
  | call op next induction => exact ⟨trivial, induction⟩

theorem onlyCalls_exchange (setup : Setup) (call : LedgerCall) :
    (exchange setup call).OnlyCalls Underway := by
  refine ⟨trivial, fun delivered => ?_⟩
  rcases delivered with text | arrival
  · trivial
  · change (handled setup call (handlerOf setup arrival call)).OnlyCalls _
    cases handlerOf setup arrival call with
    | none => trivial
    | some handler =>
        refine onlyCalls_splice (onlyCalls_onLedger handler) fun ending => ?_
        refine ⟨trivial, fun reply => ?_⟩
        cases reply with
        | error text => trivial
        | ok sent => trivial

/-- A call that is answered, but commits nothing. -/
def Vain (event : DeployedEvent) : Prop :=
  ∀ tally, (noteEvent tally event).committed = tally.committed

/-- Every call on the way of a write may fail. -/
theorem exists_vain {op : DeployedOp} (underway : Underway op) :
    ∃ answer, Vain ⟨op, answer⟩ := by
  cases op with
  | gateway op => exact underway.elim
  | deliver call => exact ⟨.error "", fun _ => rfl⟩
  | statement op => exact ⟨.error ⟨false, ""⟩, fun _ => rfl⟩
  | reply => exact ⟨.error "", fun _ => rfl⟩

/-- Calls that commit nothing change nothing in what was committed. -/
theorem committed_vain {events : List DeployedEvent}
    (vain : ∀ event ∈ events, Vain event) (tally : Tally Entry) :
    (events.foldl noteEvent tally).committed = tally.committed := by
  induction events generalizing tally with
  | nil => rfl
  | cons event events induction =>
      rcases List.forall_mem_cons.mp vain with ⟨first, others⟩
      rw [List.foldl_cons, induction others, first tally]

/-- An exchange has committed nothing so far, or the row of its write. -/
theorem stores_of_leaves {setup : Setup} {call : LedgerCall}
    {events : List DeployedEvent}
    {left : Program deployedHost Empty (Except String (LedgerReply call))}
    (leaves : Leaves (exchange setup call) events left) :
    (tallyOf events).committed = [] ∨
      ∃ entry,
        (tallyOf events).committed = [entry] ∧ Stores setup call entry := by
  rcases leaves.exists_executes (fun _ => exists_vain)
      (onlyCalls_exchange setup call) with
    ⟨rest, outcome, executed, vain⟩
  rcases outcome with absurdity | answer
  · exact absurdity.elim
  have same :
      (tallyOf (events ++ rest)).committed = (tallyOf events).committed := by
    rw [tallyOf, List.foldl_append]
    exact committed_vain vain _
  have concluded := (concluded_of_executes executed).2
  rw [same] at concluded
  generalize (tallyOf events).committed = rows at concluded
  cases concluded with
  | accepted stores => exact Or.inr ⟨_, rfl, stores⟩
  | lost stores text => exact Or.inr ⟨_, rfl, stores⟩
  | refused text => exact Or.inl rfl

/-! ## Exchanges among others -/

section Steps

variable {Client : Type} [DecidableEq Client]

/-- What one client does on the way of a write, and what it tallies. -/
structure Proceeds (client : Client) (before after : Deployed Client)
    (tally tally' : Tally Entry) : Prop where
  gateway : after.gateway = before.gateway
  pending :
    after.ledger.pending =
      Function.update before.ledger.pending client tally'.pending
  committed :
    ∃ rows,
      after.ledger.committed = before.ledger.committed ++ rows ∧
        tally'.committed = tally.committed ++ rows

/-- Where nothing changes in the ledger, nothing changes in the tally. -/
theorem Proceeds.still {client : Client} {before : Deployed Client}
    {tally : Tally Entry}
    (same : before.ledger.pending client = tally.pending) :
    Proceeds client before before tally tally where
  gateway := rfl
  pending := by rw [← same, Function.update_eq_self]
  committed := ⟨[], by simp⟩

/-- With the reply the transaction is over. -/
theorem Proceeds.release {client : Client} {before : Deployed Client}
    {tally : Tally Entry} :
    Proceeds client before (before.release client) tally
      { tally with pending := [] } where
  gateway := rfl
  pending := rfl
  committed := ⟨[], by simp [Deployed.release, Transactions.State.release]⟩

/-- A statement that succeeds is noted. -/
theorem Proceeds.succeed {client : Client} {before : Deployed Client}
    {tally : Tally Entry} {now : Int} {op : wholeDb.Op}
    {reply : Transactions.Reply op}
    {ledger : Transactions.State Client Int64 Entry Effect}
    (succeeded :
      before.ledger.succeed Ledger.Schema.accepts client now op =
        some (reply, ledger))
    (same : before.ledger.pending client = tally.pending) :
    Proceeds client before { before with ledger := ledger } tally
      (tally.note op) := by
  have noted := Tally.note_of_succeed succeeded tally.committed
  rw [same] at noted
  rcases Transactions.State.succeed_frame succeeded with ⟨grown, others⟩
  refine ⟨rfl, ?_, op.visible tally.pending, ?_, ?_⟩
  · funext other
    rw [noted]
    by_cases own : other = client
    · subst own
      simp
    · simpa [own] using (others other own).pending
  · rw [← same]
    exact grown
  · rw [noted]

/-- The tally of an exchange follows what the ledger answers. -/
theorem proceeds_of_respond {before after : Deployed Client}
    {client : Client} {choice : DeployedChoice} {op : DeployedOp}
    {answer : op.Answer} {tally : Tally Entry} (underway : Underway op)
    (responded : before.respond client choice op = some (answer, after))
    (same : before.ledger.pending client = tally.pending) :
    Proceeds client before after tally (noteEvent tally ⟨op, answer⟩) := by
  unfold Deployed.respond at responded
  split at responded
  · exact underway.elim
  · cases responded
    exact .still same
  · cases responded
    exact .still same
  · rename_i choice op
    rcases Option.map_eq_some_iff.mp responded with
      ⟨⟨answer, ledger⟩, answered, same'⟩
    cases same'
    rcases Transactions.respond_cases answered with
      ⟨fault, rfl, rfl, rfl⟩ | ⟨now, reply, rfl, rfl, succeeded⟩
    · exact .still same
    · exact .succeed succeeded same
  · cases responded
    exact .release
  · cases responded
    exact .release
  · cases responded

end Steps

end Trackward.Gateway.Exchanges
