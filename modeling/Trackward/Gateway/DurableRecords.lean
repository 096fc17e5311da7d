import Trackward.Gateway.Refinement

/-!
# What the ledger keeps of an answered request

The gateway answers a request when the ledger has told it so.  Behind a ledger
whose answers may be lost, and among other requests, that is enough: what an
answered request has written is there, and what is there was written for a
request.
-/

namespace Trackward.Gateway.DurableRecords

open Trackward.ChainCore.Encode
open Trackward.ChainCore.JsonValue
open Trackward.Gateway.ApprovalChannels
open Trackward.Gateway.Calls
open Trackward.Gateway.Deployment
open Trackward.Gateway.Exchanges
open Trackward.Gateway.Handlers
open Trackward.Gateway.Refinement
open Trackward.Gateway.SideEffectRecords
open Trackward.Ledger.Answers
open Trackward.Ledger.Models (Event SideEffect ToolInvocation)
open Trackward.Ledger.Records
open Trackward.Ledger.Routes (bind_eq_ok_iff)
open Trackward.Lib.Logs hiding Entry
open Trackward.Lib.Octets
open Trackward.Lib.Programs
open Trackward.Lib.Runs
open Trackward.Lib.Sessions
open Trackward.Lib.Substitution

/-! ## Rows that show their write -/

/-- The column holds the value, as it has arrived and as it is stored. -/
def Holds (setup : Setup) (column value : Json) : Prop :=
  ∃ sent,
    setup.wire.transmit value = some sent ∧
      column = setup.state.service.runtime.jsonb sent

/-- The row shows what the write has asked for. -/
def Shows (setup : Setup) : LedgerCall → Entry → Prop
  | .createRun agent metadata, .ofRow (.run run) =>
      run.agent = agent ∧ Holds setup run.metadata metadata
  | .bindRun runId binding, .ofRecord (.binding bound) =>
      bound.runId = runId ∧
        bound.promptVersionId = binding.promptVersionId ∧
          bound.policyVersionId = binding.policyVersionId ∧
            bound.evalResultId = binding.evalResultId
  | .appendEvent runId kind body, .ofRow (.chained (.event event)) =>
      event.runId = runId ∧ event.kind = kind ∧ Holds setup event.body body
  | .recordToolInvocation runId tool input output status code,
      .ofRow (.chained (.toolInvocation invocation)) =>
      invocation.runId = runId ∧ invocation.tool = tool ∧
        Holds setup invocation.input input ∧
          Holds setup invocation.output output ∧
            invocation.status = status ∧
              invocation.statusCode =
                code.map fun code => Int32.ofNat code.toNat
  | .recordSideEffect runId toolInvocationId kind target status text,
      .ofRow (.chained (.sideEffect effect)) =>
      effect.runId = runId ∧ effect.toolInvocationId = toolInvocationId ∧
        effect.kind = kind ∧ effect.target = target ∧
          effect.status = status ∧ Holds setup effect.confirmation text
  | .recordHumanApproval id runId tool decision reason _,
      .ofRow (.chained (.humanApproval approval)) =>
      approval.id = id ∧ approval.runId = runId ∧ approval.tool = tool ∧
        approval.decision = decision ∧ approval.reason = reason
  | _, _ => False

/-- The row of a write shows it. -/
theorem shows_of_stores {setup : Setup} {call : LedgerCall} {entry : Entry}
    (stores : Stores setup call entry) : Shows setup call entry := by
  rcases stores with ⟨arrival, route, actor, routed, _, fills⟩
  cases call with
  | createRun agent metadata =>
      rcases Option.bind_eq_some_iff.mp routed with ⟨sent, arrived, ⟨⟩⟩
      cases fills with
      | run => exact ⟨rfl, sent, arrived, rfl⟩
      | chained writes => cases writes
  | bindRun runId binding =>
      cases routed
      cases fills with
      | chained writes => cases writes
      | binding => exact ⟨rfl, rfl, rfl, rfl⟩
  | appendEvent runId kind body =>
      rcases Option.bind_eq_some_iff.mp routed with ⟨sent, arrived, ⟨⟩⟩
      rcases fills with _ | ⟨⟨⟩, ⟨⟩, named, built⟩
      rcases bind_eq_ok_iff.mp built with ⟨occurredAt, _, ⟨⟩⟩
      exact ⟨rfl, rfl, sent, arrived, rfl⟩
  | recordToolInvocation runId tool input output status code =>
      rcases Option.bind_eq_some_iff.mp routed with ⟨sent, arrived, rest⟩
      rcases Option.bind_eq_some_iff.mp rest with ⟨sent', arrived', ⟨⟩⟩
      rcases fills with _ | ⟨⟨⟩, ⟨⟩, named, built⟩
      rcases bind_eq_ok_iff.mp built with ⟨startedAt, _, rest⟩
      rcases bind_eq_ok_iff.mp rest with ⟨finishedAt, _, ⟨⟩⟩
      exact ⟨rfl, rfl, ⟨sent, arrived, rfl⟩, ⟨sent', arrived', rfl⟩, rfl,
        rfl⟩
  | recordSideEffect runId invocation kind target status text =>
      rcases Option.bind_eq_some_iff.mp routed with ⟨sent, arrived, ⟨⟩⟩
      rcases fills with _ | ⟨⟨⟩, ⟨⟩, named, built⟩
      rcases bind_eq_ok_iff.mp built with ⟨observedAt, _, ⟨⟩⟩
      exact ⟨rfl, rfl, rfl, rfl, rfl, sent, arrived, rfl⟩
  | recordHumanApproval id runId tool decision reason requestedAt =>
      cases routed
      rcases fills with _ | ⟨⟨⟩, ⟨⟩, named, built⟩
      rcases bind_eq_ok_iff.mp built with ⟨requestedAt, _, rest⟩
      rcases bind_eq_ok_iff.mp rest with ⟨decidedAt, _, ⟨⟩⟩
      exact ⟨named, rfl, rfl, rfl, rfl⟩

/-- An event is shown by an event. -/
theorem event_of_shows {setup : Setup} {runId : Uuid} {kind : String}
    {body : Json} {entry : Entry}
    (shows : Shows setup (.appendEvent runId kind body) entry) :
    ∃ event : Event,
      entry = .ofRow (.chained (.event event)) ∧ event.runId = runId ∧
        event.kind = kind ∧ Holds setup event.body body := by
  cases entry with
  | ofRecord record => exact shows.elim
  | ofRow row =>
      cases row with
      | run | anchor => exact shows.elim
      | chained row =>
          cases row with
          | event event => exact ⟨event, rfl, shows⟩
          | _ => exact shows.elim

/-- An invocation is shown by an invocation. -/
theorem invocation_of_shows {setup : Setup} {runId : Uuid}
    {tool status : String} {input output : Json} {code : Option UInt16}
    {entry : Entry}
    (shows :
      Shows setup
        (.recordToolInvocation runId tool input output status code) entry) :
    ∃ call : ToolInvocation,
      entry = .ofRow (.chained (.toolInvocation call)) ∧
        call.runId = runId ∧ call.tool = tool ∧
          Holds setup call.output output ∧ call.status = status := by
  cases entry with
  | ofRecord record => exact shows.elim
  | ofRow row =>
      cases row with
      | run | anchor => exact shows.elim
      | chained row =>
          cases row with
          | toolInvocation call =>
              rcases shows with ⟨ofRun, same, _, output, status, _⟩
              exact ⟨call, rfl, ofRun, same, output, status⟩
          | _ => exact shows.elim

/-- A side effect shows only that it was recorded. -/
theorem recordSideEffect_of_shows {setup : Setup} {call : LedgerCall}
    {effect : SideEffect}
    (shows : Shows setup call (.ofRow (.chained (.sideEffect effect)))) :
    ∃ text,
      call =
        .recordSideEffect effect.runId effect.toolInvocationId effect.kind
          effect.target effect.status text := by
  cases call with
  | recordSideEffect runId invocation kind target status text =>
      rcases shows with ⟨rfl, rfl, rfl, rfl, rfl, _⟩
      exact ⟨text, rfl⟩
  | _ => exact shows.elim

/-! ## What an answer owes -/

/-- A write, and the id of its row where the answer depends on it. -/
abbrev OwedWrite := LedgerCall × Option Uuid

theorem nodup_origin (origin : String) :
    ([("origin", Json.string origin)].map Prod.fst).Nodup := by
  simp

/-- A request that names no run has one created. -/
def minted (service : Service) (runIdHeader : Option String)
    (origin : String) (runId : Uuid) : List OwedWrite :=
  match extractRunId service.runtime runIdHeader with
  | some _ => []
  | none =>
      [(.createRun "gateway"
          (.object [("origin", .string origin)] (nodup_origin origin)),
        some runId)]

/-- The writes without which a request is not answered like this. -/
inductive Owes (service : Service) : Request → Response → List OwedWrite → Prop
    where
  | proxied (tool : String) (runIdHeader : Option String) (input : Json)
      (status : UInt16) (runId : Uuid) (body : Bytes) :
      Owes service (.tool tool runIdHeader input) (.proxied status runId body)
        (minted service runIdHeader "tool_proxy" runId ++
          [(.appendEvent runId "tool_call"
              (.object [("tool", .string tool), ("input", input)]),
            none),
            (.appendEvent runId
              (outcomeEvent tool status
                (bodyValue service.runtime body)).1
              (outcomeEvent tool status
                (bodyValue service.runtime body)).2,
            none)])
  | answered (runIdHeader : Option String) (body : Json)
      (runId approvalId : Uuid) (decision : Decision) :
      Owes service (.approval runIdHeader body)
        (.answered runId approvalId (decisionLabel decision) decision.reason)
        (minted service runIdHeader "approval" runId ++
          [(.appendEvent runId "approval_requested"
              (requestedBody approvalId body),
            none),
            (.appendEvent runId
              (if decision.granted then "approval_granted"
                else "approval_denied")
              (.object
                [("approval_id", .string (uuidText approvalId)),
                  ("tool", .string (textOr body "tool" "")),
                  ("reason", .optString decision.reason)]),
            none)])
  | decided (id : Uuid) (body : Json) (runId : Uuid) (tool : String) :
      Owes service (.decide id body) (.decided runId tool) []

/-- The write was accepted, under the id where there is one. -/
def Accepted (events : List GatewayEvent) (write : OwedWrite) : Prop :=
  ∃ reply : LedgerReply write.1,
    ⟨.ledger write.1, .ok reply⟩ ∈ events ∧
      ∀ id, write.2 = some id →
        ∀ id' seq, reply = .accepted id' seq write.1 → id' = id

theorem Accepted.mono {events more : List GatewayEvent} {write : OwedWrite}
    (accepted : Accepted events write) (included : events ⊆ more) :
    Accepted more write := by
  rcases accepted with ⟨reply, member, named⟩
  exact ⟨reply, included member, named⟩

/-- A sequence that ends in a value has run both of its parts. -/
theorem executes_bind_ok {α β : Type} {first : Handler α}
    {second : α → Handler β} {events : List GatewayEvent} {value : β}
    (ran : (first >>= second).Executes events (.ok value)) :
    ∃ middle before after,
      events = before ++ after ∧ first.Executes before (.ok middle) ∧
        (second middle).Executes after (.ok value) := by
  rcases Program.executes_bind_iff.mp ran with ⟨error, _, ⟨⟩⟩ | split
  exact split

/-- A write that must succeed was accepted. -/
theorem accepted_ledger {call : LedgerCall} {reply : LedgerReply call}
    {events : List GatewayEvent}
    (ran : (ledger call).Executes events (.ok reply)) :
    ⟨.ledger call, .ok reply⟩ ∈ events := by
  rcases Program.executes_call_iff.mp ran with ⟨answer, rest, rfl, continued⟩
  rcases answer with text | accepted
  · cases continued
  · rcases Program.executes_done_iff.mp continued with ⟨rfl, same⟩
    cases same
    exact List.mem_cons_self

theorem accepted_tryLedger {call : LedgerCall} {reply : LedgerReply call}
    {events : List GatewayEvent}
    (ran : (tryLedger call).Executes events (.ok (.ok reply))) :
    ⟨.ledger call, .ok reply⟩ ∈ events := by
  rcases Program.executes_call_iff.mp ran with ⟨answer, rest, rfl, continued⟩
  rcases Program.executes_done_iff.mp continued with ⟨rfl, same⟩
  cases same
  exact List.mem_cons_self

/-- A run that was created for a request is there. -/
theorem accepted_minted {service : Service} {runIdHeader : Option String}
    {origin : String} {runId : Uuid} {isNew : Bool}
    {events : List GatewayEvent}
    (ran :
      (resolveOrMintRun service runIdHeader origin).Executes events
        (.ok (runId, isNew))) :
    ∀ write ∈ minted service runIdHeader origin runId,
      Accepted events write := by
  intro write member
  cases named : extractRunId service.runtime runIdHeader with
  | some id =>
      rw [minted, named] at member
      cases member
  | none =>
      rw [minted, named] at member
      rw [resolveOrMintRun, named] at ran
      rcases executes_bind_ok ran with
        ⟨created, before, after, rfl, creating, rest⟩
      have same : created = runId := by
        split at rest
        · rcases Program.executes_done_iff.mp rest with ⟨_, ⟨⟩⟩
          rfl
        · rcases executes_bind_ok rest with ⟨_, _, _, _, _, ended⟩
          rcases Program.executes_done_iff.mp ended with ⟨_, ⟨⟩⟩
          rfl
      subst same
      rw [List.mem_singleton.mp member]
      refine
        ⟨created, List.mem_append_left _ (accepted_ledger creating), ?_⟩
      rintro id ⟨⟩ id' seq same
      exact same.symm

/-- An accepted write that owes no id. -/
theorem accepted_of_mem {events : List GatewayEvent} {call : LedgerCall}
    {reply : LedgerReply call} (member : ⟨.ledger call, .ok reply⟩ ∈ events) :
    Accepted events (call, none) := by
  refine ⟨reply, member, ?_⟩
  rintro id ⟨⟩

/-- A call that was answered has both of its events recorded. -/
theorem accepted_proxy {service : Service} {tool : String}
    {runIdHeader : Option String} {input : Json}
    {events : List GatewayEvent} {response : Response}
    (ran :
      (proxy service tool runIdHeader input).Executes events
        (.ok response)) :
    ∃ writes,
      Owes service (.tool tool runIdHeader input) response writes ∧
        ∀ write ∈ writes, Accepted events write := by
  unfold proxy at ran
  split at ran
  · cases ran
  · rcases executes_bind_ok ran with
      ⟨⟨runId, isNew⟩, opening, _, rfl, resolving, ran⟩
    rcases executes_bind_ok ran with ⟨_, first, _, rfl, announcing, ran⟩
    rcases executes_bind_ok ran with
      ⟨⟨status, body⟩, _, _, rfl, forwarding, ran⟩
    rcases executes_bind_ok ran with ⟨_, last, _, rfl, concluding, ran⟩
    rcases executes_bind_ok ran with ⟨recorded, _, _, rfl, _, ran⟩
    rcases executes_bind_ok ran with ⟨_, _, _, rfl, _, ran⟩
    rcases Program.executes_done_iff.mp ran with ⟨rfl, ⟨⟩⟩
    refine ⟨_, .proxied tool runIdHeader input status runId body, ?_⟩
    intro write member
    rcases List.mem_append.mp member with new | later
    · exact
        (accepted_minted resolving write new).mono
          (List.subset_append_left _ _)
    · rcases List.mem_cons.mp later with rfl | later
      · apply accepted_of_mem
        apply List.mem_append_right
        exact List.mem_append_left _ (accepted_ledger announcing)
      · rw [List.mem_singleton.mp later]
        apply accepted_of_mem
        iterate 3 apply List.mem_append_right
        exact List.mem_append_left _ (accepted_ledger concluding)

/-- An approval that was answered has both of its events recorded. -/
theorem accepted_request {service : Service} {runIdHeader : Option String}
    {body : Json} {events : List GatewayEvent} {response : Response}
    (ran :
      (Approval.request service runIdHeader body).Executes events
        (.ok response)) :
    ∃ writes,
      Owes service (.approval runIdHeader body) response writes ∧
        ∀ write ∈ writes, Accepted events write := by
  rcases executes_bind_ok ran with
    ⟨⟨runId, isNew⟩, opening, _, rfl, resolving, ran⟩
  rcases executes_bind_ok ran with ⟨approvalId, _, _, rfl, _, ran⟩
  rcases executes_bind_ok ran with ⟨channel, _, _, rfl, _, ran⟩
  rcases executes_bind_ok ran with ⟨requestedAt, _, _, rfl, _, ran⟩
  rcases executes_bind_ok ran with ⟨_, _, _, rfl, _, ran⟩
  rcases executes_bind_ok ran with ⟨written, _, _, rfl, asking, ran⟩
  rcases written with text | reply
  · rcases executes_bind_ok ran with ⟨_, _, _, _, _, ⟨⟩⟩
  · rcases executes_bind_ok ran with ⟨received, _, _, rfl, _, ran⟩
    rcases received with closed | decision
    · cases ran
    · rcases executes_bind_ok ran with ⟨_, _, _, rfl, recording, ran⟩
      rcases executes_bind_ok ran with ⟨_, _, _, rfl, _, ran⟩
      rcases Program.executes_done_iff.mp ran with ⟨rfl, ⟨⟩⟩
      refine ⟨_, .answered runIdHeader body runId approvalId decision, ?_⟩
      intro write member
      rcases List.mem_append.mp member with new | later
      · exact
          (accepted_minted resolving write new).mono
            (List.subset_append_left _ _)
      · rcases List.mem_cons.mp later with rfl | later
        · apply accepted_of_mem
          iterate 5 apply List.mem_append_right
          exact List.mem_append_left _ (accepted_tryLedger asking)
        · rw [List.mem_singleton.mp later]
          apply accepted_of_mem
          iterate 7 apply List.mem_append_right
          exact List.mem_append_left _ (accepted_ledger recording)

/-- A decision that was delivered owes nothing to the ledger. -/
theorem accepted_decide {service : Service} {id : Uuid} {body : Json}
    {events : List GatewayEvent} {response : Response}
    (ran : (Approval.decide service id body).Executes events (.ok response)) :
    ∃ writes,
      Owes service (.decide id body) response writes ∧
        ∀ write ∈ writes, Accepted events write := by
  rcases executes_bind_ok ran with ⟨removed, _, _, rfl, _, ran⟩
  split at ran
  · cases ran
  · split at ran
    · rcases executes_bind_ok ran with ⟨_, _, _, _, _, ⟨⟩⟩
    · rcases executes_bind_ok ran with ⟨delivered, _, _, rfl, _, ran⟩
      split at ran
      · rcases Program.executes_done_iff.mp ran with ⟨rfl, ⟨⟩⟩
        exact ⟨[], .decided id body _ _, by simp⟩
      · cases ran

theorem accepted_serve {service : Service} {request : Request}
    {events : List GatewayEvent} {response : Response}
    (ran : (serve service request).Executes events (.ok response)) :
    ∃ writes,
      Owes service request response writes ∧
        ∀ write ∈ writes, Accepted events write := by
  cases request with
  | tool tool runIdHeader input => exact accepted_proxy ran
  | approval runIdHeader body => exact accepted_request ran
  | decide id body => exact accepted_decide ran

/-! ## Writes and their rows -/

section Runs

variable {Client : Type} [DecidableEq Client] {service : Service}
variable {setup : Setup} {world : DeployedWorld Client}

/-- A write in the history has left its row. -/
theorem exists_row {inFlight : Client → List Entry}
    {history : List Happening} {committed : List Entry}
    (books : Books setup inFlight history committed) {what : Happening}
    (happened : what ∈ history) (written : isWritten what = true) :
    ∃ entry ∈ committed, Tells setup what entry := by
  rcases books with @⟨told, held, tells, holds, rows⟩
  have listed : what ∈ history.filter isWritten :=
    List.mem_filter.mpr ⟨happened, written⟩
  rcases List.mem_iff_get.mp listed with ⟨place, rfl⟩
  have inside : place < told.length := tells.length_eq ▸ place.isLt
  refine
    ⟨told[place], rows.mem_iff.mpr ?_, tells.get place.isLt inside⟩
  exact List.mem_append_left _ (List.getElem_mem inside)

/-- A row was left by a write in the history, or it is held. -/
theorem told_or_held {inFlight : Client → List Entry}
    {history : List Happening} {committed : List Entry}
    (books : Books setup inFlight history committed) {entry : Entry}
    (member : entry ∈ committed) :
    (∃ what ∈ history, Tells setup what entry) ∨
      ∃ client, entry ∈ inFlight client := by
  rcases books with @⟨told, held, tells, holds, rows⟩
  rcases List.mem_append.mp (rows.mem_iff.mp member) with inTold | inHeld
  · rcases List.mem_iff_get.mp inTold with ⟨place, rfl⟩
    have inside : place < (history.filter isWritten).length := by
      rw [tells.length_eq]
      exact place.isLt
    refine Or.inl ⟨_, ?_, tells.get inside place.isLt⟩
    exact List.mem_of_mem_filter (List.getElem_mem inside)
  · rcases List.mem_map.mp inHeld with ⟨⟨client, row⟩, there, rfl⟩
    refine Or.inr ⟨client, ?_⟩
    rw [holds client]
    exact List.mem_map_of_mem (List.mem_filter.mpr ⟨there, by simp⟩)

/--
Every committed row is told in a history of the gateway alone, after writes
whose rows are committed as well.
-/
theorem exists_told
    (reached : Reachable (deployed Client service setup) unrestricted world)
    {entry : Entry} (member : entry ∈ world.shared.ledger.committed) :
    ∃ (abstract : GatewayWorld Client) (call : LedgerCall)
      (earlier later : List Happening),
      Reachable (gateway Client service) unrestricted abstract ∧
        world.shared.gateway = unwritten abstract.shared ∧
          abstract.shared.history =
              earlier ++ .wrote call (idOf entry) (seqOf entry) :: later ∧
            Stores setup call entry ∧
              ∀ what ∈ earlier, isWritten what = true →
                ∃ entry' ∈ world.shared.ledger.committed,
                  Tells setup what entry' := by
  rcases exists_above reached with ⟨exchanges, abstract, above⟩
  rcases told_or_held above.mirrors.books member with
    ⟨what, happened, ⟨stores⟩⟩ | ⟨client, held⟩
  · rcases List.append_of_mem happened with ⟨earlier, later, history⟩
    refine
      ⟨abstract, _, earlier, later, above.reached, above.mirrors.gateway,
        history, stores, ?_⟩
    intro what before written
    refine exists_row above.mirrors.books ?_ written
    rw [history]
    exact List.mem_append_left _ before
  · rcases above.holding client with
      nothing | ⟨call, entry', writing, only, stores⟩
    · rw [nothing] at held
      cases held
    · rw [only, List.mem_singleton] at held
      subst held
      -- the answer may be lost at once, so the row may be told at once
      rcases writing with ⟨request, calls, next, present⟩
      have lost :
          (host Client).respond client (.lose (idOf entry) (seqOf entry) "")
              (.ledger call) abstract.shared =
            some
              (.error "",
                abstract.shared.note
                  (.wrote call (idOf entry) (seqOf entry))) := rfl
      have moved :
          (gateway Client service).step abstract
              (.answer client (.lose (idOf entry) (seqOf entry) "")) =
            _ :=
        World.step_call (serve service) present lost
      refine
        ⟨_, call, abstract.shared.history, [],
          .next above.reached trivial moved, ?_, rfl, stores,
          fun what before => exists_row above.mirrors.books before⟩
      rw [above.mirrors.gateway]
      simp [unwritten, State.note, isWritten]

/-! ## A call that is recorded -/

/-- A write that arrives, with its statements and the answer to it. -/
def writing (id : Uuid) (now : Int) (statements : Nat) :
    List (Move Nat Request DeployedChoice) :=
  .answer 0 (.arrive ⟨id, .epoch, .epoch⟩) ::
    (List.replicate statements (.answer 0 (.statement (.succeed now))) ++
      [.answer 0 .proceed])

/-- A run is created, and a call with one of its side effects recorded. -/
def recordedMoves : List (Move Nat Request DeployedChoice) :=
  [.arrive 0 (.tool "mail" none .null)] ++ writing 3 0 1 ++ writing 1 1 8 ++
    [.answer 0 (.gateway (.respond (.ok ⟨200, .ok []⟩)))] ++
      writing 2 2 8 ++ writing 9 3 5 ++ writing 5 4 5 ++
        [.answer 0 (.fail "unavailable")]

/-- The row of the side effect that names the invocation 9. -/
def sideEffectNine? : Entry → Option SideEffect
  | .ofRow (.chained (.sideEffect effect)) =>
      if effect.toolInvocationId = some 9 then some effect else none
  | _ => none

/-- The client was answered with the success of a call in the run 3. -/
def isAnsweredDeployed (world : DeployedWorld Nat) : Bool :=
  match (world.sessions 0).map seen with
  | some (.tool _ none _, some (.ok (.proxied status 3 _))) => isSuccess status
  | _ => false

/-- This schedule plays through. -/
theorem exists_recordedRun :
    ∃ world,
      Reachable (deployed Nat mailService trustedSetup) unrestricted world ∧
        (world.shared.ledger.committed.findSome? sideEffectNine?).isSome ∧
          isAnsweredDeployed world = true := by
  rcases
      Reachable.exists_of_replay unrestricted_of_anyMove
        (initial_idleDeployment mailService trustedSetup) recordedMoves
        (fun world =>
          (world.shared.ledger.committed.findSome? sideEffectNine?).isSome &&
            isAnsweredDeployed world)
        (by decide +kernel) with
    ⟨world, reached, checked⟩
  rw [Bool.and_eq_true] at checked
  exact ⟨world, reached, checked⟩

/-! ## Side effects stay in their run -/

/--
Behind the gateway every side effect was declared in the output of a call that
has succeeded.  The result of this call is recorded in the run of the side
effect, and where the side effect names an invocation, it is the row of this
call, in the same run.
-/
theorem sideEffect_sameRun
    (reached : Reachable (deployed Client service setup) unrestricted world)
    {effect : SideEffect}
    (member :
      .ofRow (.chained (.sideEffect effect)) ∈
        world.shared.ledger.committed) :
    ∃ (tool : String) (output declaration : Json) (event : Event),
      .ofRow (.chained (.event event)) ∈ world.shared.ledger.committed ∧
        event.runId = effect.runId ∧ event.kind = "tool_result" ∧
          Holds setup event.body
              (.object [("tool", .string tool), ("output", output)]) ∧
            declaration ∈ declared output ∧
              effect.kind = textOr declaration "kind" "unknown" ∧
                effect.target = textOr declaration "target" "unknown" ∧
                  effect.status = textOr declaration "status" "confirmed" ∧
                    ∀ invocation, effect.toolInvocationId = some invocation →
                      ∃ call : ToolInvocation,
                        .ofRow (.chained (.toolInvocation call)) ∈
                            world.shared.ledger.committed ∧
                          call.id = invocation ∧
                            call.runId = effect.runId ∧ call.tool = tool ∧
                              Holds setup call.output output ∧
                                call.status = "ok" := by
  rcases exists_told reached member with
    ⟨abstract, call, earlier, later, above, _, history, stores, kept⟩
  rcases recordSideEffect_of_shows (shows_of_stores stores) with
    ⟨text, rfl⟩
  rcases exists_recording above history with
    ⟨log, middle, call, code, body, reply, recorded, run, rfl, success, told,
      owed⟩
  rcases List.mem_map.mp owed with ⟨declaration, listed, same⟩
  rw [confirmation, LedgerCall.recordSideEffect.injEq] at same
  rcases same with ⟨ofRun, named, kind, target, status, _⟩
  have result := told _ (List.mem_cons_of_mem _ List.mem_cons_self)
  rcases result with ⟨client, choice, there⟩
  rcases wrote_of_reply run there with ⟨id, seq, _, wrote⟩
  rcases kept _ wrote rfl with ⟨entry, inside, ⟨stores'⟩⟩
  rcases event_of_shows (shows_of_stores stores') with
    ⟨event, rfl, ofRun', isResult, holds⟩
  refine
    ⟨call.tool, bodyValue service.runtime body, declaration, event, inside,
      ofRun'.trans ofRun, isResult, holds, listed, kind.symm, target.symm,
      status.symm, ?_⟩
  intro invocation isNamed
  rw [← named] at isNamed
  rcases recorded with error | found
  · cases isNamed
  · cases isNamed
    have last :=
      told _ (List.mem_cons_of_mem _
        (List.mem_cons_of_mem _ List.mem_cons_self))
    rcases last with ⟨client, choice, there⟩
    rcases wrote_of_reply run there with ⟨id, seq, rfl, wrote⟩
    rcases kept _ wrote rfl with ⟨entry, inside, ⟨stores'⟩⟩
    rcases invocation_of_shows (shows_of_stores stores') with
      ⟨row, rfl, ofRun', same, output, isOk⟩
    exact
      ⟨row, inside, rfl, ofRun'.trans ofRun, same, output, isOk⟩

/-- The side effect of the run names a row of its own run. -/
theorem sideEffect_sameRun_recordedMoves :
    ∃ (world : DeployedWorld Nat) (effect : SideEffect)
      (call : ToolInvocation),
      Reachable (deployed Nat mailService trustedSetup) unrestricted world ∧
        .ofRow (.chained (.toolInvocation call)) ∈
            world.shared.ledger.committed ∧
          effect.toolInvocationId = some 9 ∧ call.id = 9 ∧
            call.runId = effect.runId := by
  rcases exists_recordedRun with ⟨world, reached, found, _⟩
  rcases Option.isSome_iff_exists.mp found with ⟨effect, found⟩
  rcases List.exists_of_findSome?_eq_some found with ⟨entry, member, isNine⟩
  unfold sideEffectNine? at isNine
  split at isNine
  · split at isNine
    · rename_i named
      cases isNine
      rcases sideEffect_sameRun reached member with
        ⟨tool, output, declaration, event, _, _, _, _, _, _, _, _, calls⟩
      rcases calls 9 named with ⟨call, inside, isCall, sameRun, _⟩
      exact ⟨world, effect, call, reached, inside, named, isCall, sameRun⟩
    · cases isNine
  · cases isNine

/-! ## Answers are durable -/

/-- What is accepted in a log is committed at the ledger. -/
theorem exists_row_of_accepted {exchanges : Client → Carrying}
    {abstract : GatewayWorld Client}
    (above : Above service setup world exchanges abstract)
    {log : GatewayLog Client} (run : GatewayRun Client service log abstract)
    {client : Client} {write : OwedWrite}
    (accepted : Accepted (own client log) write) :
    ∃ entry ∈ world.shared.ledger.committed,
      Shows setup write.1 entry ∧
        ∀ id, write.2 = some id → idOf entry = id := by
  rcases accepted with ⟨reply, member, named⟩
  rcases exists_called_of_mem_own member with ⟨choice, called⟩
  rcases wrote_of_reply run called with ⟨id, seq, replied, wrote⟩
  rcases exists_row above.mirrors.books wrote rfl with
    ⟨entry, inside, ⟨stores⟩⟩
  exact
    ⟨entry, inside, shows_of_stores stores,
      fun id' same => named id' same _ _ replied⟩

/--
When a request has been answered, everything the answer owes is committed at
the ledger, whatever answers of the ledger were lost in between: a run that was
created for it, the call and its outcome, or the approval and its decision.
-/
theorem answered_durable
    (reached : Reachable (deployed Client service setup) unrestricted world)
    {client : Client} {session : Session deployedHost Request Error Response}
    {response : Response} (present : world.sessions client = some session)
    (returned : session.program.ended = some (.ok response)) :
    ∃ writes,
      Owes service session.request response writes ∧
        ∀ write ∈ writes,
          ∃ entry ∈ world.shared.ledger.committed,
            Shows setup write.1 entry ∧
              ∀ id, write.2 = some id → idOf entry = id := by
  rcases exists_above reached with ⟨exchanges, abstract, above⟩
  have same :=
    (above.fits client).seen_eq (@simulates Client _ setup).opens
  rw [present, Option.map_some, seen, returned] at same
  rcases Option.map_eq_some_iff.mp same.symm with ⟨session', there, view⟩
  rw [seen, Prod.mk.injEq] at view
  rcases view with ⟨request, returned'⟩
  rcases exists_logged above.reached with ⟨log, run⟩
  have ran := (run.leaves there).executes returned'
  rw [request] at ran
  rcases accepted_serve ran with ⟨writes, owes, accepted⟩
  exact
    ⟨writes, owes, fun write member =>
      exists_row_of_accepted above run (accepted write member)⟩

/-- The run 3 was created for the answered call. -/
theorem answered_durable_recordedMoves :
    ∃ (world : DeployedWorld Nat) (entry : Entry),
      Reachable (deployed Nat mailService trustedSetup) unrestricted world ∧
        entry ∈ world.shared.ledger.committed ∧ idOf entry = 3 ∧
          Shows trustedSetup
            (.createRun "gateway"
              (.object [("origin", .string "tool_proxy")]))
            entry := by
  rcases exists_recordedRun with ⟨world, reached, _, answered⟩
  unfold isAnsweredDeployed at answered
  split at answered
  · rename_i tool input status body found
    rcases Option.map_eq_some_iff.mp found with ⟨session, present, view⟩
    rw [seen, Prod.mk.injEq] at view
    rcases view with ⟨request, returned⟩
    rcases answered_durable reached present returned with
      ⟨writes, owes, durable⟩
    rw [request] at owes
    cases owes with
    | proxied =>
        rcases durable _ List.mem_cons_self with
          ⟨entry, inside, shows, named⟩
        exact ⟨world, entry, reached, inside, named 3 rfl, shows⟩
  · cases answered

end Runs

end Trackward.Gateway.DurableRecords
