import Trackward.Gateway.LostDecisions
import Trackward.Lib.Traces

/-!
# Decisions that are refused

A decide call takes the approval out of the map before it reads the decision
from its body.  A body without a decision is refused, and by then the approval
is gone: its request can no longer be decided.
-/

namespace Trackward.Gateway.RefusedDecisions

open Trackward.ChainCore.Encode
open Trackward.ChainCore.JsonValue
open Trackward.Gateway.ApprovalChannels
open Trackward.Gateway.Calls
open Trackward.Gateway.Handlers
open Trackward.Gateway.LostDecisions
open Trackward.Lib.Programs
open Trackward.Lib.Programs.Program (executes_call_iff executes_done_iff
  executes_raise_iff)
open Trackward.Lib.Runs
open Trackward.Lib.Sessions
open Trackward.Lib.Traces

/-- The steps of a run of the gateway, with the states before them. -/
abbrev GatewaySteps (Client : Type) :=
  List (GatewayWorld Client × Move Client Request Choice)

variable {Client : Type} [DecidableEq Client] {service : Service}
variable {client : Client} {id : Uuid} {body : Json}
variable {steps : GatewaySteps Client} {finished : GatewayWorld Client}
variable {outcome : Except Error Response}

/-- A decide call from its arrival to its answer, while anybody else moves. -/
structure DecideCall (service : Service) (client : Client) (id : Uuid)
    (body : Json) (steps : GatewaySteps Client)
    (finished : GatewayWorld Client) (outcome : Except Error Response) :
    Prop where
  path :
    ∃ arrived,
      Reachable (gateway Client service) unrestricted arrived ∧
        arrived.sessions client =
            some ⟨.decide id body, 0, serve service (.decide id body)⟩ ∧
          Path (gateway Client service) arrived steps finished
  stays : Stays client steps
  ended :
    ∃ session,
      finished.sessions client = some session ∧
        session.program.ended = some outcome

/-- The state in which a call was answered for the first time. -/
def lookedUp (client : Client) (steps : GatewaySteps Client)
    (finished : GatewayWorld Client) : State Client :=
  (stateAt steps finished (answeredAt client steps 0)).shared

/-- No step of the client changes the pending approvals or who waits. -/
def ChangesNothing (client : Client) (steps : GatewaySteps Client)
    (finished : GatewayWorld Client) : Prop :=
  ∀ earlier before choice later,
    steps = earlier ++ (before, .answer client choice) :: later →
      (stateAt later finished 0).shared.pending = before.shared.pending ∧
        (stateAt later finished 0).shared.channels = before.shared.channels

/-! ## What a decide call does -/

theorem eq_badRequest_of_decisionOf {runtime : Runtime} {error : Error}
    (unread : decisionOf runtime body = .error error) :
    ∃ text, error = .badRequest text := by
  unfold decisionOf at unread
  split at unread
  · cases unread
    exact ⟨_, rfl⟩
  · cases unread
  · cases unread
  · cases unread
    exact ⟨_, rfl⟩

/-- An unknown id is not found, whatever the body. -/
theorem outcome_of_unknown {events : List GatewayEvent}
    (ran :
      (Approval.decide service id body).Executes
        (⟨.removePending id, none⟩ :: events) outcome) :
    outcome = .error .notFound := by
  rcases executes_call_iff.mp ran with ⟨removed, rest, split, continued⟩
  cases split
  exact (executes_raise_iff.mp continued).2

/-- A body without a decision is refused. -/
theorem outcome_of_unread {events : List GatewayEvent}
    {pending : PendingApproval} {error : Error}
    (unread : decisionOf service.runtime body = .error error)
    (ran :
      (Approval.decide service id body).Executes
        (⟨.removePending id, some pending⟩ :: events) outcome) :
    outcome = .error error := by
  rcases executes_call_iff.mp ran with ⟨removed, rest, split, continued⟩
  cases split
  simp only [unread] at continued
  rcases executes_call_iff.mp continued with ⟨dropped, last, _, ended⟩
  exact (executes_raise_iff.mp ended).2

/-- A body with a decision is not refused. -/
theorem not_badRequest_of_decision {events : List GatewayEvent}
    {removed : Option PendingApproval} {decision : Decision} {text : String}
    (read : decisionOf service.runtime body = .ok decision) :
    ¬ (Approval.decide service id body).Executes
        (⟨.removePending id, removed⟩ :: events)
        (.error (.badRequest text)) := by
  intro ran
  cases removed with
  | none => cases outcome_of_unknown ran
  | some pending =>
      rcases executes_call_iff.mp ran with ⟨removed, rest, split, continued⟩
      cases split
      simp only [read] at continued
      rcases executes_call_iff.mp continued with
        ⟨delivered, last, _, ended⟩
      cases delivered with
      | false => cases (executes_raise_iff.mp ended).2
      | true => cases (executes_done_iff.mp ended).2

/-- A call that was answered has looked its id up, and was answered by that. -/
theorem DecideCall.looks_up
    (call : DecideCall service client id body steps finished outcome) :
    ∃ earlier before choice later events,
      steps = earlier ++ (before, .answer client choice) :: later ∧
        before.shared = lookedUp client steps finished ∧
          (stateAt later finished 0).shared.pending id = none ∧
            (Approval.decide service id body).Executes
              (⟨.removePending id, before.shared.pending id⟩ :: events)
              outcome := by
  rcases call.path with ⟨arrived, _, asked, path⟩
  rcases call.ended with ⟨session, present, ended⟩
  have moved :
      finished.sessions client ≠
        some ⟨.decide id body, 0, serve service (.decide id body)⟩ := by
    intro same
    rw [present, Option.some.injEq] at same
    rw [same] at ended
    cases ended
  rcases Path.exists_firstAnswer path call.stays asked moved with
    ⟨earlier, before, choice, later, target, removed, rfl, none, responded,
      goesOn, rest⟩
  have staysLater : Stays client later := fun step member =>
    call.stays step
      (List.mem_append_right _ (List.mem_cons_of_mem _ member))
  have first :
      (answered client
          (earlier ++ (before, .answer client choice) :: later))[0]? =
        some (before, .answer client choice) := by
    rw [answered_of_first none, List.getElem?_cons_zero]
  rcases State.respond_removePending responded with ⟨rfl, gone⟩
  rcases rest.visited staysLater goesOn with
    ⟨left, visits, found, visited, _⟩
  rw [present, Option.some.injEq] at found
  rw [found] at ended
  refine
    ⟨earlier, before, choice, later, visits.map Visit.event, rfl, ?_, ?_, ?_⟩
  · rw [lookedUp, (stateAt_answeredAt finished first).2]
  · rw [rest.stateAt_zero]
    exact gone
  · exact .call _ (visited.leaves.executes ended)

/-- Whoever finds an approval takes it away. -/
theorem DecideCall.not_changesNothing
    (call : DecideCall service client id body steps finished outcome)
    (found : (lookedUp client steps finished).pending id ≠ none) :
    ¬ ChangesNothing client steps finished := by
  intro same
  rcases call.looks_up with
    ⟨earlier, before, choice, later, events, split, looked, gone, _⟩
  have kept := (same earlier before choice later split).1
  rw [← looked, ← kept] at found
  exact found gone

/-! ## Two calls -/

/-- A request for an approval has been recorded and waits for its decision. -/
def waitingMoves : List (Move Nat Request Choice) :=
  grantedMoves.take 7

/-- A client arrives with a decide call for the id 7. -/
def arrive (world : GatewayWorld Nat) (client : Nat) (body : Json) :
    GatewayWorld Nat :=
  { world with
    sessions :=
      Function.update world.sessions client
        (some ⟨.decide 7 body, 0, serve approvalService (.decide 7 body)⟩) }

/-- How a client was answered. -/
def answerTo (world : GatewayWorld Nat) (client : Nat) :
    Option (Except Error Response) :=
  (world.sessions client).bind fun session => session.program.ended

def isBadRequest : Except Error Response → Bool
  | .error (.badRequest _) => true
  | _ => false

theorem exists_badRequest {outcome : Except Error Response}
    (refused : isBadRequest outcome = true) :
    ∃ text, outcome = .error (.badRequest text) := by
  unfold isBadRequest at refused
  split at refused
  · exact ⟨_, rfl⟩
  · cases refused

/-- A schedule after an arrival that plays through is a decide call. -/
theorem exists_decideCall (world : GatewayWorld Nat) (client : Nat)
    (reached :
      Reachable (gateway Nat approvalService) unrestricted world)
    (absent : world.sessions client = none) (body : Json)
    (moves : List (Move Nat Request Choice))
    (remains : .depart client ∉ moves)
    (check :
      GatewaySteps Nat → GatewayWorld Nat → Except Error Response → Bool)
    (played :
      (trace (gateway Nat approvalService) (arrive world client body)
            moves).any
          (fun run => (answerTo run.2 client).any (check run.1 run.2)) =
        true) :
    ∃ steps finished outcome,
      DecideCall approvalService client 7 body steps finished outcome ∧
        check steps finished outcome = true := by
  rcases exists_path_of_trace moves
      (fun steps finished =>
        (answerTo finished client).any (check steps finished))
      played with
    ⟨steps, finished, path, moved, checked⟩
  rw [Option.any_eq_true] at checked
  rcases checked with ⟨outcome, answers, passed⟩
  have arrives :
      (gateway Nat approvalService).step world
          (.arrive client (.decide 7 body)) =
        some (arrive world client body) := by
    simp [gateway, system, World.step, absent, arrive]
  refine
    ⟨steps, finished, outcome,
      ⟨⟨arrive world client body, .next reached trivial arrives,
          Function.update_self client _ _, path⟩,
        stays_of_moves (moved ▸ remains),
        Option.bind_eq_some_iff.mp answers⟩,
      passed⟩

/--
A decide call that is refused changes nothing exactly if it is not refused: if
its approval was not pending, or its body has a decision.
-/
theorem refusal_changesNothing_iff
    (call : DecideCall service client id body steps finished outcome) :
    (∀ text, outcome = .error (.badRequest text) →
        ChangesNothing client steps finished) ↔
      (lookedUp client steps finished).pending id = none ∨
        ∃ decision, decisionOf service.runtime body = .ok decision := by
  rcases call.looks_up with
    ⟨earlier, before, choice, later, events, split, looked, gone, ran⟩
  rw [← looked]
  constructor
  · intro unchanged
    cases found : before.shared.pending id with
    | none => exact Or.inl rfl
    | some pending =>
        cases read : decisionOf service.runtime body with
        | ok decision => exact Or.inr ⟨decision, rfl⟩
        | error error =>
            rcases eq_badRequest_of_decisionOf read with ⟨text, rfl⟩
            rw [found] at ran
            have refused := outcome_of_unread read ran
            refine absurd (unchanged text refused)
              (call.not_changesNothing ?_)
            rw [← looked, found]
            exact Option.some_ne_none pending
  · rintro (unknown | ⟨decision, read⟩) text rfl
    · rw [unknown] at ran
      cases outcome_of_unknown ran
    · exact absurd ran (not_badRequest_of_decision read)

/-- A body without a decision does no harm where nothing is pending. -/
theorem refusal_changesNothing_idle :
    ∃ steps finished outcome,
      DecideCall approvalService 1 7 (.object []) steps finished outcome ∧
        ∀ text, outcome = .error (.badRequest text) →
          ChangesNothing 1 steps finished := by
  rcases exists_decideCall idleGateway 1 (.start initial_idleGateway) rfl
      (.object []) [.answer 1 .proceed] (by simp)
      (fun steps finished _ =>
        ((lookedUp 1 steps finished).pending 7).isNone)
      (by decide) with
    ⟨steps, finished, outcome, call, unknown⟩
  exact
    ⟨steps, finished, outcome, call,
      (refusal_changesNothing_iff call).mpr
        (Or.inl (Option.isNone_iff_eq_none.mp unknown))⟩

/-- A refused call has found an approval whose request still waits. -/
def isLost (steps : GatewaySteps Nat) (finished : GatewayWorld Nat)
    (outcome : Except Error Response) : Bool :=
  isBadRequest outcome &&
    (((lookedUp 1 steps finished).pending 7).isSome &&
      ((finished.shared.pending 7).isNone &&
        receiverAt finished.shared 0 = some 0))

/-- A decide call without a decision comes while a request waits. -/
theorem exists_waiting :
    ∃ waiting,
      Reachable (gateway Nat approvalService) unrestricted waiting ∧
        ((waiting.sessions 1).isNone &&
            (trace (gateway Nat approvalService)
                (arrive waiting 1 (.object []))
                [.answer 1 .proceed, .answer 1 .proceed]).any
              fun run => (answerTo run.2 1).any (isLost run.1 run.2)) =
          true := by
  rcases @exists_path_of_trace _ _ (gateway Nat approvalService) idleGateway
      waitingMoves
      (fun _ waiting =>
        (waiting.sessions 1).isNone &&
          (trace (gateway Nat approvalService)
              (arrive waiting 1 (.object []))
              [.answer 1 .proceed, .answer 1 .proceed]).any
            fun run => (answerTo run.2 1).any (isLost run.1 run.2))
      (by decide) with
    ⟨steps, waiting, path, _, checked⟩
  exact ⟨waiting, (path.reachable (.start initial_idleGateway)).1, checked⟩

/-- Without a decision an approval is gone while its request still waits. -/
theorem not_changesNothing_withoutDecision :
    ∃ steps finished text,
      DecideCall approvalService 1 7 (.object []) steps finished
          (.error (.badRequest text)) ∧
        ¬ ChangesNothing 1 steps finished ∧
          finished.shared.pending 7 = none ∧
            receiverAt finished.shared 0 = some 0 := by
  rcases exists_waiting with ⟨waiting, reached, checked⟩
  rw [Bool.and_eq_true] at checked
  rcases exists_decideCall waiting 1 reached
      (Option.isNone_iff_eq_none.mp checked.1) (.object [])
      [.answer 1 .proceed, .answer 1 .proceed] (by simp) isLost
      checked.2 with
    ⟨steps, finished, outcome, call, lost⟩
  simp only [isLost, Bool.and_eq_true, decide_eq_true_eq] at lost
  rcases lost with ⟨refused, found, gone, waits⟩
  rcases exists_badRequest refused with ⟨text, rfl⟩
  have known : (lookedUp 1 steps finished).pending 7 ≠ none :=
    Option.isSome_iff_ne_none.mp found
  exact
    ⟨steps, finished, text, call, call.not_changesNothing known,
      Option.isNone_iff_eq_none.mp gone, waits⟩

end Trackward.Gateway.RefusedDecisions
