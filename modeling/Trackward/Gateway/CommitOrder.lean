import Trackward.Gateway.DeployedLedger
import Trackward.Gateway.GenuineApprovals
import Trackward.Ledger.RowTables

/-!
# The ledger keeps the order of each request

Many requests write to the ledger at once, and an answer may come long after
the row was committed.  Yet the rows of one request are committed in the order
in which it has asked for them; so what a request says first in a run has the
lower number there.  An outcome is never numbered before what it is the outcome
of.
-/

namespace Trackward.Gateway.CommitOrder

open Trackward.ChainCore.Encode
open Trackward.ChainCore.JsonValue
open Trackward.Gateway.ApprovalCalls
open Trackward.Gateway.ApprovalChannels
open Trackward.Gateway.Calls
open Trackward.Gateway.DeployedLedger
open Trackward.Gateway.Deployment
open Trackward.Gateway.DurableRecords
open Trackward.Gateway.Exchanges hiding Proceeds
open Trackward.Gateway.GenuineApprovals (appendEvent_of_shows grantedMoves)
open Trackward.Gateway.Handlers
open Trackward.Gateway.Refinement
open Trackward.Gateway.SideEffectRecords (mailService)
open Trackward.Ledger.EventSequence (eventsOf seqs)
open Trackward.Ledger.Models (Event chainedRows eventRows)
open Trackward.Ledger.Records
open Trackward.Ledger.RowTables (seqs_of_whole)
open Trackward.Lib
open Trackward.Lib.Growth (countTo pairwise_countTo)
open Trackward.Lib.Logs hiding Entry
open Trackward.Lib.Outcomes
open Trackward.Lib.Programs
open Trackward.Lib.Programs.Program
  (Leaves Tracks tracks_bind tracks_of_onlyCalls)
open Trackward.Lib.Runs
open Trackward.Lib.Sessions
open Trackward.Lib.Substitution

variable {Client : Type} [DecidableEq Client]

/-! ## What a session has committed -/

/-- The log of a run of the deployment. -/
abbrev DeployedLog (Client : Type) :=
  List (Logs.Entry deployedHost Client Request DeployedChoice)

/-- A run of the deployment with its log. -/
abbrev DeployedRun (Client : Type) [DecidableEq Client] (service : Service)
    (setup : Setup) (log : DeployedLog Client)
    (world : DeployedWorld Client) : Prop :=
  Logged (deployment Client)
    (fun request => substitute (carry setup) (serve service request))
    Deployed.isFresh log world

/-- What the ledger answers to a session is tallied there. -/
theorem noted_of_respond {before after : Deployed Client} {client : Client}
    {choice : DeployedChoice} {op : DeployedOp} {answer : op.Answer}
    {tally : Tally Entry}
    (responded : before.respond client choice op = some (answer, after))
    (same : before.ledger.pending client = tally.pending) :
    after.ledger.pending =
        Function.update before.ledger.pending client
          (noteEvent tally ⟨op, answer⟩).pending ∧
      ∃ rows,
        after.ledger.committed = before.ledger.committed ++ rows ∧
          (noteEvent tally ⟨op, answer⟩).committed =
            tally.committed ++ rows := by
  have elsewhere : Underway op ∨ ∃ call, op = .gateway call := by
    cases op with
    | gateway call => exact Or.inr ⟨call, rfl⟩
    | deliver | statement | reply => exact Or.inl trivial
  rcases elsewhere with underway | ⟨call, rfl⟩
  · have proceeds := proceeds_of_respond underway responded same
    exact ⟨proceeds.pending, proceeds.committed⟩
  · have still : noteEvent tally ⟨.gateway call, answer⟩ = tally := rfl
    rw [ledger_of_gateway responded, still, ← same, Function.update_eq_self]
    exact ⟨rfl, [], by simp, by simp⟩

/--
The row was committed by an answer in the log, after the rows that its session
had committed before.
-/
def CommittedBy (log : DeployedLog Client) (committed : List Entry)
    (entry : Entry) : Prop :=
  ∃ earlier client choice event later rows,
    log = earlier ++ .called client choice event :: later ∧
      (tallyOf (own client earlier ++ [event])).committed =
          (tallyOf (own client earlier)).committed ++ rows ∧
        entry ∈ rows ∧
          ((tallyOf (own client earlier)).committed ++ rows).Sublist
            committed

/-- What was committed stays where it is. -/
theorem CommittedBy.more {log : DeployedLog Client}
    {committed : List Entry} {entry : Entry}
    (by' : CommittedBy log committed entry) (more : DeployedLog Client)
    (rows : List Entry) :
    CommittedBy (log ++ more) (committed ++ rows) entry := by
  rcases by' with
    ⟨earlier, client, choice, event, later, own, rfl, grown, member, order⟩
  exact
    ⟨earlier, client, choice, event, later ++ more, own, by simp, grown,
      member, order.trans (List.sublist_append_left _ _)⟩

/-- The ledger behind the gateway. -/
abbrev LedgerState (Client : Type) :=
  Transactions.State Client Int64 Entry Ledger.Models.Effect

/-- What a client has written: nothing, or what its session was answered. -/
def Tallied (log : DeployedLog Client) (ledger : LedgerState Client)
    (client : Client) :
    Option (Session deployedHost Request Error Response) → Prop
  | none => ledger.pending client = []
  | some _ =>
      ledger.pending client = (tallyOf (own client log)).pending ∧
        (tallyOf (own client log)).committed.Sublist ledger.committed

/-- What happens to others does not concern a client. -/
theorem Tallied.others {log : DeployedLog Client}
    {entry : Logs.Entry deployedHost Client Request DeployedChoice}
    {ledger ledger' : LedgerState Client} {client : Client}
    {session : Option (Session deployedHost Request Error Response)}
    (tallied : Tallied log ledger client session)
    (same : own client (log ++ [entry]) = own client log)
    (pending : ledger'.pending client = ledger.pending client)
    (grown : ledger.committed <+: ledger'.committed) :
    Tallied (log ++ [entry]) ledger' client session := by
  cases session with
  | none => exact pending.trans tallied
  | some session =>
      rw [Tallied, same, pending]
      exact ⟨tallied.1, tallied.2.trans grown.sublist⟩

/-- The rows of the ledger, session by session. -/
structure Accounts (log : DeployedLog Client) (world : DeployedWorld Client) :
    Prop where
  sessions :
    ∀ client,
      Tallied log world.shared.ledger client (world.sessions client)
  committed :
    ∀ entry ∈ world.shared.ledger.committed,
      CommittedBy log world.shared.ledger.committed entry

variable {service : Service} {setup : Setup} {world : DeployedWorld Client}

/-- A session commits its rows one after the other. -/
theorem Accounts.call {log : DeployedLog Client}
    (accounts : Accounts log world) {client : Client} {request : Request}
    {calls : Nat} {op : DeployedOp}
    {next : op.Answer → Program deployedHost Error Response}
    (present : world.sessions client = some ⟨request, calls, .call op next⟩)
    {choice : DeployedChoice} {answer : op.Answer} {shared : Deployed Client}
    (responded :
      world.shared.respond client choice op = some (answer, shared)) :
    Accounts (log ++ [.called client choice ⟨op, answer⟩])
      ⟨shared,
        Function.update world.sessions client
          (some ⟨request, calls + 1, next answer⟩)⟩ := by
  have tallied := accounts.sessions client
  rw [present] at tallied
  rcases noted_of_respond responded tallied.1 with
    ⟨pending, rows, grown, noted⟩
  have mine :
      own client (log ++ [.called client choice ⟨op, answer⟩]) =
        own client log ++ [⟨op, answer⟩] := by
    rw [own_concat, keep, if_pos rfl]
  rw [← tallyOf_concat] at pending noted
  have inOrder :
      ((tallyOf (own client log)).committed ++ rows).Sublist
        shared.ledger.committed := by
    rw [grown]
    exact tallied.2.append (List.Sublist.refl rows)
  constructor
  · rw [Function.forall_update_iff _ (Tallied _ shared.ledger)]
    constructor
    · rw [Tallied, mine, noted, pending, Function.update_self]
      exact ⟨rfl, inOrder⟩
    · intro other different
      refine (accounts.sessions other).others ?_ ?_ ?_
      · rw [own_concat, keep, if_neg (Ne.symm different)]
      · rw [pending, Function.update_of_ne different]
      · rw [grown]
        exact List.prefix_append _ _
  · intro entry member
    rw [grown] at member
    rcases List.mem_append.mp member with before | new
    · have kept :=
        (accounts.committed entry before).more
          [.called client choice ⟨op, answer⟩] rows
      rw [← grown] at kept
      exact kept
    · exact
        ⟨log, client, choice, ⟨op, answer⟩, [], rows, rfl, noted, new,
          inOrder⟩

/-- Every run commits the rows of each session one after the other. -/
theorem accounts_of_run {log : DeployedLog Client}
    (run : DeployedRun Client service setup log world) :
    Accounts log world := by
  induction run with
  | @start world isInitial =>
      have empty : world.shared.ledger.committed = [] := isInitial.1.2.1
      constructor
      · intro client
        rw [isInitial.2 client]
        exact isInitial.1.2.2.1 client
      · intro entry member
        rw [empty] at member
        cases member
  | @arrive log world run newcomer request absent accounts =>
      constructor
      · rw [Function.forall_update_iff _ (Tallied _ world.shared.ledger)]
        constructor
        · have idle := accounts.sessions newcomer
          rw [absent] at idle
          rw [Tallied, own_concat, keep, if_pos rfl]
          exact ⟨idle, List.nil_sublist _⟩
        · intro other different
          refine (accounts.sessions other).others ?_ rfl List.prefix_rfl
          rw [own_concat, keep, if_neg (Ne.symm different)]
      · intro entry member
        have kept :=
          (accounts.committed entry member).more [.arrived newcomer request]
            []
        rwa [List.append_nil] at kept
  | call run present responded accounts =>
      exact accounts.call present responded
  | @depart log world run leaver leaving here accounts =>
      constructor
      · apply
          (Function.forall_update_iff _
            (Tallied _ (world.shared.ledger.release leaver))).mpr
        constructor
        · simp [Tallied, Transactions.State.release]
        · intro other different
          refine (accounts.sessions other).others ?_ ?_ List.prefix_rfl
          · rw [own_concat]
            rfl
          · simp [Transactions.State.release, different]
      · intro entry member
        have kept :=
          (accounts.committed entry member).more [.departed leaver] []
        rwa [List.append_nil] at kept

/-! ## The rows of a handler -/

/-- The rows that the writes of a handler have left, in order. -/
inductive Recorded (setup : Setup) : List GatewayEvent → List Entry → Prop
    where
  | nil : Recorded setup [] []
  | other {past : List GatewayEvent} {rows : List Entry}
      (recorded : Recorded setup past rows) {op : Op} (own : isWrite op = false)
      (answer : op.Answer) : Recorded setup (past ++ [⟨op, answer⟩]) rows
  | write {past : List GatewayEvent} {rows : List Entry}
      (recorded : Recorded setup past rows) {call : LedgerCall}
      {answer : Except String (LedgerReply call)} {new : List Entry}
      (concluded : Concluded setup call new answer) :
      Recorded setup (past ++ [⟨.ledger call, answer⟩]) (rows ++ new)

/-- A write that was accepted has left its row. -/
theorem Recorded.exists_row {past : List GatewayEvent} {rows : List Entry}
    (recorded : Recorded setup past rows) {call : LedgerCall}
    {reply : LedgerReply call}
    (member : ⟨.ledger call, .ok reply⟩ ∈ past) :
    ∃ entry ∈ rows, Stores setup call entry := by
  induction recorded with
  | nil => cases member
  | @other past rows recorded op own answer induction =>
      rcases List.mem_append.mp member with before | last
      · exact induction before
      · cases List.mem_singleton.mp last
        cases own
  | @write past rows recorded call' answer new concluded induction =>
      rcases List.mem_append.mp member with before | last
      · rcases induction before with ⟨entry, inside, stores⟩
        exact ⟨entry, List.mem_append_left _ inside, stores⟩
      · cases List.mem_singleton.mp last
        cases concluded with
        | @accepted entry stores =>
            exact
              ⟨entry, List.mem_append_right _ (List.mem_singleton.mpr rfl),
                stores⟩

/-- A tally goes on from what was committed before. -/
theorem foldl_noteEvent (events : List DeployedEvent) (tally : Tally Entry)
    (before : List Entry) :
    events.foldl noteEvent
        { tally with committed := before ++ tally.committed } =
      { events.foldl noteEvent tally with
        committed := before ++ (events.foldl noteEvent tally).committed } := by
  induction events generalizing tally with
  | nil => rfl
  | cons event events induction =>
      have one :
          noteEvent { tally with committed := before ++ tally.committed }
              event =
            { noteEvent tally event with
              committed := before ++ (noteEvent tally event).committed } := by
        rcases event with ⟨op, answer⟩
        cases op with
        | gateway | deliver | reply => rfl
        | statement op =>
            rcases answer with fault | reply
            · rfl
            · cases op with
              | begin | lock | select | insert | emit => rfl
              | commit | publish =>
                  simp [noteEvent, Tally.event, Tally.note]
      rw [List.foldl_cons, one, induction, List.foldl_cons]

/-- What is committed after some exchanges is committed on top of them. -/
theorem tallyOf_append {before : List DeployedEvent}
    (quiet : (tallyOf before).pending = []) (events : List DeployedEvent) :
    tallyOf (before ++ events) =
      { tallyOf events with
        committed :=
          (tallyOf before).committed ++ (tallyOf events).committed } := by
  have start : tallyOf before = ⟨[], (tallyOf before).committed ++ []⟩ := by
    rw [List.append_nil, ← quiet]
  have further :=
    foldl_noteEvent events Tally.zero (tallyOf before).committed
  change events.foldl noteEvent ⟨[], (tallyOf before).committed ++ []⟩ = _
    at further
  rw [← start] at further
  rw [tallyOf, List.foldl_append]
  exact further

/-- The calls of a handler have left its rows. -/
theorem recorded_of_carries {past : List GatewayEvent}
    {events : List DeployedEvent}
    (carries : Carries (carry setup) past events) :
    (tallyOf events).pending = [] ∧
      Recorded setup past (tallyOf events).committed := by
  induction carries with
  | nil => exact ⟨rfl, .nil⟩
  | @concat upper lower events op value earlier ran induction =>
      rcases induction with ⟨quiet, recorded⟩
      rw [tallyOf_append quiet]
      cases own : isWrite op with
      | false =>
          rw [carry_of_own own] at ran
          rcases Program.executes_call_iff.mp ran with
            ⟨answer, rest, rfl, continued⟩
          rcases Program.executes_done_iff.mp continued with ⟨rfl, ended⟩
          have nothing :
              tallyOf [(⟨.gateway op, answer⟩ : DeployedEvent)] =
                Tally.zero := rfl
          rw [nothing]
          refine ⟨rfl, ?_⟩
          change Recorded setup _ ((tallyOf lower).committed ++ [])
          rw [List.append_nil]
          exact recorded.other own value
      | true =>
          rcases eq_ledger_of_isWrite own with ⟨call, rfl⟩
          rcases concluded_of_executes ran with ⟨ended, concluded⟩
          exact ⟨ended, recorded.write concluded⟩

/--
Every row of the ledger was asked for by a request, whose earlier rows were
committed before.
-/
theorem exists_committing
    (reached : Reachable (deployed Client service setup) unrestricted world)
    {entry : Entry} (member : entry ∈ world.shared.ledger.committed) :
    ∃ request past call next rows,
      Leaves (serve service request) past (.call (.ledger call) next) ∧
        Recorded setup past rows ∧ Stores setup call entry ∧
          (rows ++ [entry]).Sublist world.shared.ledger.committed := by
  rcases exists_logged reached with ⟨log, run⟩
  rcases (accounts_of_run run).committed entry member with
    ⟨earlier, client, choice, event, later, rows, rfl, grown, inside, order⟩
  rcases run.called with
    ⟨before, request, calls, next, shared, shorter, present, _⟩
  rcases
      exists_calling (@simulates Client _ setup).opens
        (shorter.leaves present) with
    ⟨past, lower, partway, op, next', inner, left, carries, split, inside'⟩
  rcases recorded_of_carries carries with ⟨quiet, recorded⟩
  rw [split, List.append_assoc, tallyOf_append quiet, tallyOf_append quiet]
    at grown
  rw [split, tallyOf_append quiet] at order
  change
    (tallyOf lower).committed ++ (tallyOf (partway ++ [event])).committed =
      ((tallyOf lower).committed ++ (tallyOf partway).committed) ++ rows
    at grown
  rw [List.append_assoc, List.append_cancel_left_eq] at grown
  rcases held_of_leaves (inside'.concat event.answer) with
    nothing | ⟨call, entry', rfl, one, stores⟩
  · rw [nothing] at grown
    rw [(List.append_eq_nil_iff.mp grown.symm).2] at inside
    cases inside
  · rw [one] at grown
    rcases List.append_eq_singleton_iff.mp grown.symm with
      ⟨none, rfl⟩ | ⟨_, rfl⟩
    · rw [List.mem_singleton.mp inside]
      rw [none, List.append_nil] at order
      exact ⟨request, past, call, next', _, left, recorded, stores, order⟩
    · cases inside

/-! ## Numbers -/

/-- The numbers of some rows are among those of more rows, in their order. -/
theorem seqs_sublist {rows more : List Entry} (runId : Uuid)
    (order : rows.Sublist more) :
    (seqs runId (rows.filterMap Entry.row?)).Sublist
      (seqs runId (more.filterMap Entry.row?)) := by
  unfold seqs eventsOf eventRows chainedRows
  apply List.Sublist.map
  apply List.Sublist.filter
  exact ((order.filterMap _).filterMap _).filterMap _

/-- Behind the gateway, too, the events of a run are numbered in order. -/
theorem seqs_of_deployed
    (reached : Reachable (deployed Client service setup) unrestricted world)
    (runId : Uuid) :
    seqs runId (world.shared.ledger.committed.filterMap Entry.row?) =
      countTo
        (seqs runId
          (world.shared.ledger.committed.filterMap Entry.row?)).length := by
  rcases exists_backs .stable reached with ⟨whole, backs⟩
  rw [← backs.shared]
  refine seqs_of_whole ?_ backs.reached
  rintro _ rfl
  rfl

/-- Of two events of a run, the one that was committed first is first. -/
theorem seq_lt_of_sublist
    (reached : Reachable (deployed Client service setup) unrestricted world)
    {first second : Event} (same : first.runId = second.runId)
    (order :
      [Entry.ofRow (.chained (.event first)),
          Entry.ofRow (.chained (.event second))].Sublist
        world.shared.ledger.committed) :
    first.seq < second.seq := by
  have numbers := seqs_sublist second.runId order
  have pair :
      seqs second.runId
          (List.filterMap Entry.row?
            [Entry.ofRow (.chained (.event first)),
              Entry.ofRow (.chained (.event second))]) =
        [first.seq.toInt, second.seq.toInt] := by
    simp [seqs, eventsOf, eventRows, chainedRows, Entry.row?, same,
      Ledger.Models.Row.chained?]
  rw [pair, seqs_of_deployed reached] at numbers
  have increasing := (pairwise_countTo _).sublist numbers
  rw [Int64.lt_iff_toInt_lt]
  exact List.rel_of_pairwise_cons increasing (List.mem_singleton.mpr rfl)

/-! ## Outcomes of calls -/

/-- The kinds of the events that record the outcome of a call. -/
def outcomeKinds : List String :=
  ["tool_result", "tool_error"]

/-- A call that records no outcome. -/
def Plain : Op → Prop
  | .ledger (.appendEvent _ kind _) => kind ∉ outcomeKinds
  | _ => True

theorem nodup_announcement (tool : String) (input : Json) :
    ([("tool", Json.string tool), ("input", input)].map Prod.fst).Nodup := by
  simp

/-- The event that announces a call to a tool. -/
def announcement (tool : String) (input : Json) : Json :=
  .object [("tool", .string tool), ("input", input)]
    (nodup_announcement tool input)

/-- An outcome is recorded when the call to the tool has been announced. -/
def Follows (past : List GatewayEvent) (op : Op) : Prop :=
  ∀ runId kind body, op = .ledger (.appendEvent runId kind body) →
    kind ∈ outcomeKinds →
      ∃ tool input status output reply,
        ⟨.ledger
            (.appendEvent runId "tool_call" (announcement tool input)),
          .ok reply⟩ ∈ past ∧
          (kind, body) = outcomeEvent tool status output

theorem follows_of_plain {past : List GatewayEvent} {op : Op}
    (plain : Plain op) : Follows past op := by
  rintro runId kind body rfl outcome
  exact absurd outcome plain

/-- Without outcomes there is nothing to follow. -/
theorem tracks_of_plain {α : Type} {handler : Handler α}
    (only : handler.OnlyCalls Plain) (past : List GatewayEvent) :
    handler.Tracks Follows (fun _ _ => True) past :=
  Tracks.weaken (fun _ _ _ => trivial)
    (tracks_of_onlyCalls only fun _ _ _ plain => follows_of_plain plain)

/-- A handler without outcomes goes on. -/
theorem tracks_plain {α β : Type} {handler : Handler α}
    {next : α → Handler β} {past : List GatewayEvent}
    (only : handler.OnlyCalls Plain)
    (follows :
      ∀ events value, handler.Executes events (.ok value) →
        (next value).Tracks Follows (fun _ _ => True) (past ++ events)) :
    (handler >>= next).Tracks Follows (fun _ _ => True) past := by
  refine tracks_bind (Tracks.weaken ?_ (tracks_of_onlyCalls only ?_))
  · rintro later outcome ⟨events, rfl, _, ran⟩
    cases outcome with
    | ok value => exact follows events value ran
    | error error => trivial
  · intro events op _ plain
    exact follows_of_plain plain

/-- A handler goes on when its write was accepted. -/
theorem tracks_ledger {α : Type} {call : LedgerCall}
    {next : LedgerReply call → Handler α} {past : List GatewayEvent}
    (follows : Follows past (.ledger call))
    (onwards :
      ∀ reply,
        (next reply).Tracks Follows (fun _ _ => True)
          (past ++ [⟨.ledger call, .ok reply⟩])) :
    (ledger call >>= next).Tracks Follows (fun _ _ => True) past := by
  refine ⟨follows, fun answer => ?_⟩
  rcases answer with text | reply
  · trivial
  · exact onwards reply

theorem tracks_proxy (tool : String) (runIdHeader : Option String)
    (input : Json) :
    (proxy service tool runIdHeader input).Tracks Follows (fun _ _ => True)
      [] := by
  unfold proxy
  split
  · trivial
  · refine tracks_plain
      (onlyCalls_resolveOrMintRun (fun _ _ => trivial) fun _ _ => trivial)
      fun opening value _ => ?_
    rcases value with ⟨runId, minted⟩
    refine tracks_plain (onlyCalls_ledger (by simp [Plain, outcomeKinds]))
      fun announcing reply announced => ?_
    refine tracks_plain (onlyCalls_forward trivial)
      fun middle answer _ => ?_
    rcases answer with ⟨status, body⟩
    have before := accepted_ledger announced
    refine tracks_ledger ?_ fun last => ?_
    · rintro _ _ _ ⟨⟩ _
      refine ⟨tool, input, status, _, reply, ?_, rfl⟩
      apply List.mem_append_left
      exact List.mem_append_right _ before
    · refine tracks_of_plain ?_ _
      refine Program.onlyCalls_bind (onlyCalls_perform trivial)
        fun recorded => ?_
      refine Program.onlyCalls_bind ?_ fun _ => trivial
      split
      · exact onlyCalls_recordConfirmations fun _ => trivial
      · trivial

theorem plain_of_approvalOp (op : Op) (about : ApprovalOp op) : Plain op := by
  cases op with
  | ledger call =>
      cases call with
      | appendEvent runId kind body =>
          intro outcome
          simp only [outcomeKinds, List.mem_cons, List.not_mem_nil, or_false]
            at outcome
          rcases outcome with rfl | rfl
          · exact absurd about (by simp [ApprovalOp])
          · exact absurd about (by simp [ApprovalOp])
      | _ => trivial
  | _ => trivial

theorem tracks_serve (request : Request) :
    (serve service request).Tracks Follows (fun _ _ => True) [] := by
  cases request with
  | tool tool runIdHeader input => exact tracks_proxy tool runIdHeader input
  | approval runIdHeader body =>
      exact
        tracks_of_plain
          (onlyCalls_approval
            (onlyCalls_resolveOrMintRun (fun _ _ => trivial) fun _ _ =>
              trivial)
            plain_of_approvalOp)
          []
  | decide id body =>
      exact tracks_of_plain
        (onlyCalls_decide trivial (fun _ => trivial) fun _ _ => trivial) []

/-! ## What was said before -/

/-- An event of the run says this, and has a lower number. -/
def SaidBefore (setup : Setup) (world : DeployedWorld Client) (event : Event)
    (kind : String) (body : Json) : Prop :=
  ∃ first : Event,
    .ofRow (.chained (.event first)) ∈ world.shared.ledger.committed ∧
      first.runId = event.runId ∧ first.kind = kind ∧
        Holds setup first.body body ∧ first.seq < event.seq

/-- What a request has said in the run, it has said before. -/
theorem saidBefore_of_past
    (reached : Reachable (deployed Client service setup) unrestricted world)
    {past : List GatewayEvent} {rows : List Entry}
    (recorded : Recorded setup past rows) {event : Event}
    (order :
      (rows ++ [Entry.ofRow (.chained (.event event))]).Sublist
        world.shared.ledger.committed)
    {kind : String} {body : Json} {reply : EventResponse}
    (member :
      ⟨.ledger (.appendEvent event.runId kind body), .ok reply⟩ ∈ past) :
    SaidBefore setup world event kind body := by
  rcases recorded.exists_row member with ⟨entry, inside, stores⟩
  rcases event_of_shows (shows_of_stores stores) with
    ⟨first, rfl, ofRun, same, holds⟩
  refine
    ⟨first, order.subset (List.mem_append_left _ inside), ofRun, same, holds,
      seq_lt_of_sublist reached ofRun ?_⟩
  exact
    ((List.singleton_sublist.mpr inside).append (List.Sublist.refl _)).trans
      order

/-- The event is the outcome of a call that was announced before. -/
def CallAnnounced (setup : Setup) (world : DeployedWorld Client)
    (event : Event) : Prop :=
  ∃ (tool : String) (input : Json) (status : UInt16) (output : Json),
    SaidBefore setup world event "tool_call" (announcement tool input) ∧
      event.kind = (outcomeEvent tool status output).1 ∧
        Holds setup event.body (outcomeEvent tool status output).2

/-- The event is the outcome of an approval that was requested before. -/
def ApprovalRequested (setup : Setup) (world : DeployedWorld Client)
    (event : Event) : Prop :=
  ∃ (ticket : Ticket) (decision : Decision) (body : Json),
    SaidBefore setup world event "approval_requested"
        (requestedBody ticket.approvalId ticket.body) ∧
      ticket.outcome decision =
          .appendEvent event.runId event.kind body ∧
        Holds setup event.body body

/--
In the ledger behind the gateway no outcome comes before its cause.  Below the
result of a call there is, in the same run, the event that announced this call;
and below the outcome of an approval the event that requested it.
-/
theorem outcomes_follow
    (reached : Reachable (deployed Client service setup) unrestricted world)
    {event : Event}
    (member :
      .ofRow (.chained (.event event)) ∈ world.shared.ledger.committed) :
    (event.kind ∈ outcomeKinds → CallAnnounced setup world event) ∧
      (event.kind ∈ ["approval_granted", "approval_denied"] →
        ApprovalRequested setup world event) := by
  rcases exists_committing reached member with
    ⟨request, past, call, next, rows, leaves, recorded, stores, order⟩
  rcases appendEvent_of_shows (shows_of_stores stores) with
    ⟨body, rfl, holds⟩
  constructor
  · intro outcome
    rcases (leaves.tracks (tracks_serve request)).1 _ _ _ rfl outcome with
      ⟨tool, input, status, output, reply, announced, same⟩
    rw [Prod.mk.injEq] at same
    rw [same.2] at holds
    exact
      ⟨tool, input, status, output,
        saidBefore_of_past reached recorded order announced, same.1, holds⟩
  · intro concludes
    have about : event.kind ∈ approvalKinds :=
      List.mem_cons_of_mem _ concludes
    have proceeds :=
      (leaves.tracks (ApprovalCalls.tracks_serve request)).1
    rcases Proceeds.of_append about proceeds with
      ⟨opening, ticket, quiet, come, call⟩ |
      ⟨opening, ticket, reply, decision, quiet, come, call⟩
    · rw [Ticket.request, LedgerCall.appendEvent.injEq] at call
      rw [call.2.1] at concludes
      exact absurd concludes (by decide)
    · have concluded := call
      rw [Ticket.outcome, LedgerCall.appendEvent.injEq] at concluded
      rcases concluded with ⟨ofRun, _, _⟩
      have asked :
          ⟨.ledger
              (.appendEvent ticket.runId "approval_requested"
                (requestedBody ticket.approvalId ticket.body)),
            .ok reply⟩ ∈ past := by
        rw [← List.nil_append past, come]
        exact
          List.mem_append_left _ (List.mem_append_right _ List.mem_cons_self)
      rw [← ofRun] at asked
      exact
        ⟨ticket, decision, body,
          saidBefore_of_past reached recorded order asked, call.symm, holds⟩

/-- The event that grants an approval. -/
def granted? : Entry → Option Event
  | .ofRow (.chained (.event event)) =>
      if event.kind = "approval_granted" then some event else none
  | _ => none

/-- Below the event that grants an approval there is its request. -/
theorem outcomes_follow_grantedMoves :
    ∃ (world : DeployedWorld Nat) (event : Event) (body : Json),
      Reachable (deployed Nat mailService trustedSetup) unrestricted world ∧
        .ofRow (.chained (.event event)) ∈ world.shared.ledger.committed ∧
          event.kind = "approval_granted" ∧
            SaidBefore trustedSetup world event "approval_requested" body := by
  rcases
      Reachable.exists_of_replay unrestricted_of_anyMove
        (initial_idleDeployment mailService trustedSetup) grantedMoves
        (fun world =>
          (world.shared.ledger.committed.findSome? granted?).isSome)
        (by decide +kernel) with
    ⟨world, reached, found⟩
  rcases Option.isSome_iff_exists.mp found with ⟨event, found⟩
  rcases List.exists_of_findSome?_eq_some found with
    ⟨entry, member, isGranted⟩
  unfold granted? at isGranted
  split at isGranted
  · split at isGranted
    · rename_i kind
      cases isGranted
      have concludes : event.kind ∈ ["approval_granted", "approval_denied"] :=
        kind ▸ List.mem_cons_self
      rcases (outcomes_follow reached member).2 concludes with
        ⟨ticket, decision, payload, before, _⟩
      exact ⟨world, event, _, reached, member, kind, before⟩
    · cases isGranted
  · cases isGranted

end Trackward.Gateway.CommitOrder
