import Trackward.Ledger.Writes
import Trackward.Lib.Growth

/-!
# Sequence numbers of events

An append locks its run before it reads the greatest `seq` of the run and keeps
the lock until its event is committed.  The events of a run are therefore
numbered 1, 2, ... in the order in which they are committed, whatever appends
fail or roll back in between.

Only appends to the run itself write rows that matter here; every other handler
keeps the protocol because it writes no event of the run.
-/

namespace Trackward.Ledger.EventSequence

open Trackward.ChainCore.Encode
open Trackward.Ledger.Chain
open Trackward.Ledger.Concurrency
open Trackward.Ledger.Models
open Trackward.Ledger.Routes
open Trackward.Ledger.Writes
open Trackward.Lib.Growth
open Trackward.Lib.Programs
open Trackward.Lib.Runs
open Trackward.Lib.Sessions
open Trackward.Lib.Transactions

/-! ## The events of a run -/

/-- The events of a run, in commit order. -/
def eventsOf (runId : Uuid) (rows : List Row) : List Event :=
  (eventRows rows).filter fun event => event.runId = runId

/-- The sequence numbers of the events of a run, in commit order. -/
def seqs (runId : Uuid) (rows : List Row) : List Int :=
  (eventsOf runId rows).map fun event => event.seq.toInt

theorem minValue_le_maxSeq (rows : List Row) (runId : Uuid) :
    -2 ^ 63 ≤ maxSeq rows runId := by
  show -2 ^ 63 ≤ (seqs runId rows).max?.getD 0
  cases greatest : (seqs runId rows).max? with
  | none => simp
  | some number =>
      have member := (List.max?_eq_some_iff.mp greatest).1
      rcases List.mem_map.mp member with ⟨event, _, rfl⟩
      exact Int64.le_toInt event.seq

/-- The number an append reads is one more than the greatest one. -/
theorem toInt_of_nextSeq {rows : List Row} {runId : Uuid} {seq : Int64}
    (next : nextSeq rows runId = .ok seq) :
    seq.toInt = (seqs runId rows).max?.getD 0 + 1 := by
  unfold nextSeq at next
  split at next
  · rename_i bounded
    rw [Except.ok.injEq] at next
    have lower := minValue_le_maxSeq rows runId
    rw [← next, Int64.toInt_ofInt_of_le (by omega) bounded]
    rfl
  · cases next

theorem eventsOf_event (event : Event) :
    eventsOf event.runId [.chained (.event event)] = [event] := by
  simp [eventsOf, eventRows, chainedRows, Row.chained?]

/-- The row is no event of the run. -/
def Elsewhere (runId : Uuid) (row : Row) : Prop :=
  ∀ event, row = .chained (.event event) → event.runId ≠ runId

theorem eventsOf_append (runId : Uuid) (past rows : List Row) :
    eventsOf runId (past ++ rows) =
      eventsOf runId past ++ eventsOf runId rows := by
  simp [eventsOf, eventRows, chainedRows]

theorem eventsOf_of_elsewhere {runId : Uuid} {rows : List Row}
    (elsewhere : ∀ row ∈ rows, Elsewhere runId row) :
    eventsOf runId rows = [] := by
  simp only [eventsOf, eventRows, chainedRows, List.filter_eq_nil_iff,
    decide_eq_true_eq]
  intro event member
  rcases List.mem_filterMap.mp member with ⟨chained, inRows, isEvent⟩
  rcases List.mem_filterMap.mp inRows with ⟨row, here, isChained⟩
  cases row with
  | run row => cases isChained
  | anchor row leaves => cases isChained
  | chained row =>
      cases isChained
      cases chained <;> cases isEvent
      exact elsewhere _ here _ rfl

/-! ## The protocol of the numbers -/

/-- A batch has no event of the run, or one with the next number. -/
def Numbered (runId : Uuid) (past rows : List Row) : Prop :=
  eventsOf runId rows = [] ∨
    ∃ event,
      eventsOf runId rows = [event] ∧
        event.seq.toInt = (seqs runId past).max?.getD 0 + 1

/-- The protocol of the lock that orders the appends to a run. -/
def protocol (runId : Uuid) :
    Protocol Concurrency.Request Int64 Row (List Event) where
  key := uuidToLockKey runId
  view := eventsOf runId
  base := fun rows => eventsOf runId rows = []
  admissible := fun _ past rows => Numbered runId past rows
  alone := fun _ _ => True
  steady := fun _ _ _ _ => True
  steady_refl := fun _ _ _ => trivial
  steady_trans := fun _ _ _ _ _ _ _ => trivial

/-- Numbered batches count the events of a run. -/
theorem seqs_eq_countTo_of_history {runId : Uuid} {rows : List Row}
    (grown :
      History (protocol runId).base (protocol runId).admits rows) :
    seqs runId rows = countTo (seqs runId rows).length := by
  induction grown with
  | base isBase => simp [seqs, show eventsOf runId _ = [] from isBase, countTo]
  | append _ admitted induction =>
      rcases admitted with ⟨⟨request, numbered⟩, _⟩
      rcases numbered with none | ⟨event, single, next⟩
      · rw [seqs, eventsOf_append, none, List.append_nil]
        exact induction
      · rw [seqs, eventsOf_append, single, List.map_append]
        exact countTo_concat induction next

/-! ## Handlers that write no event of the run -/

/-- A row of a request other than an append to the run is elsewhere. -/
theorem elsewhere_of_written {runId : Uuid} {request : Request} {row : Row}
    (other :
      ∀ actor id input,
        request ≠ .write (.event actor id runId input))
    (written : Written request row) : Elsewhere runId row := by
  cases request with
  | createRun actor id input =>
      rcases written with ⟨run, rfl, _⟩
      rintro event ⟨⟩
  | write write =>
      rcases written with ⟨chained, rfl, described⟩
      rintro event ⟨⟩ same
      have isEvent : table write = .events := described.table.symm
      cases write <;> cases isEvent
      rename_i actor id eventRun input
      have inRun := described.run eventRun rfl
      rw [ChainedRow.runId, same, Option.some.injEq] at inRun
      subst inRun
      exact other actor id input rfl
  | trigger global scopeRun untilTs now id anchoredAt =>
      rcases written with ⟨anchor, leaves, rfl⟩
      rintro event ⟨⟩
  | loopTick now id anchoredAt =>
      rcases written with ⟨anchor, leaves, rfl⟩
      rintro event ⟨⟩

/-! ## Appends to the run -/

section Appends

variable {Client : Type} [DecidableEq Client]
variable {runId : Uuid} {client : Client} {request : Request}
variable {calls : Nat} {state : Db Client}

/-- The weakest precondition under the protocol of the numbers. -/
abbrev wp {α : Type}
    (runId : Uuid) (client : Client) (request : Request)
    (handler : Handler α) (post : α → Nat → Db Client → Prop)
    (calls : Nat) (state : Db Client) : Prop :=
  (protocol runId).contract.wp (db Client) client request handler post
    calls state

/-- The lock of the run is held, and its events are those of `rows`. -/
structure Holding (runId : Uuid) (client : Client) (rows : List Row)
    (state : Db Client) : Prop where
  quiet : state.pending client = []
  held : state.holder (uuidToLockKey runId) = some client
  events : eventsOf runId state.committed = eventsOf runId rows

omit [DecidableEq Client] in
/-- Others cannot add events to a run whose lock is held. -/
theorem Holding.since {rows : List Row} {later : Db Client}
    (holding : Holding runId client rows state)
    (pending : later.pending client = state.pending client)
    (since : (protocol runId).Since client request calls state later) :
    Holding runId client rows later :=
  ⟨pending.trans holding.quiet, since.locks _ holding.held,
    (since.view holding.held).trans holding.events⟩

theorem wp_liftExcept {α : Type} {result : Except Exit α}
    {post : α → Nat → Db Client → Prop}
    (continues : ∀ value, result = .ok value → post value calls state) :
    wp runId client request (liftExcept result) post calls state := by
  cases result with
  | ok value => exact continues value rfl
  | error exit => trivial

/-- The next number of the rows that were read may be committed. -/
theorem wp_insertNumbered {runtime : Runtime} {createdAt : Int}
    {actor : String} {id : Uuid} {seq : Int64} {input : CreateEvent}
    {rows : List Row}
    (holding : Holding runId client rows state)
    (next : nextSeq rows runId = .ok seq) :
    wp runId client request
      (insertDraft runtime dbError createdAt
        (eventDraft runtime actor id runId seq input))
      (fun _ _ _ => True) calls state := by
  refine Contract.wp_bind.mpr (Contract.wp_bind.mpr (Protocol.wp_lock ?_))
  intro locked pendingLocked sinceLocked _
  have holdingLocked := holding.since pendingLocked sinceLocked
  refine Contract.wp_bind.mpr (Protocol.wp_select ?_)
  intro read pendingRead sinceRead
  have holdingRead := holdingLocked.since pendingRead sinceRead
  refine wp_liftExcept fun link _ => ?_
  refine Contract.wp_bind.mpr (wp_liftExcept fun row built => ?_)
  rcases bind_eq_ok_iff.mp built with ⟨occurredAt, _, ⟨⟩⟩
  refine Contract.wp_bind.mpr (Protocol.wp_insert ?_)
  intro inserted pendingInserted sinceInserted
  rw [holdingRead.quiet, List.nil_append] at pendingInserted
  refine Contract.wp_bind.mpr (Protocol.wp_commit ?_ fun _ => trivial)
  intro before _ sinceBefore _
  have held := sinceInserted.locks _ holdingRead.held
  have events :
      eventsOf runId before.committed = eventsOf runId rows :=
    (sinceBefore.view held).trans
      ((sinceInserted.view holdingRead.held).trans holdingRead.events)
  rw [pendingInserted]
  refine ⟨Or.inr ⟨_, eventsOf_event _, ?_⟩,
    Or.inl (sinceBefore.locks _ held)⟩
  rw [seqs, events]
  exact toInt_of_nextSeq next

theorem wp_appendEvent {runtime : Runtime} {actor : String} {id : Uuid}
    {input : CreateEvent} (quiet : state.pending client = []) :
    wp runId client request (appendEvent runtime actor id runId input)
      (fun _ _ _ => True) calls state := by
  refine Contract.wp_bind.mpr (Protocol.wp_begin ?_)
  intro createdAt begun pendingBegun _
  refine Contract.wp_bind.mpr (Protocol.wp_lock ?_)
  intro locked pendingLocked _ held
  refine Contract.wp_bind.mpr (Protocol.wp_select ?_)
  intro known pendingKnown sinceKnown
  split
  · refine Contract.wp_bind.mpr (Protocol.wp_select ?_)
    intro read pendingRead sinceRead
    have quietRead : read.pending client = [] := by
      rw [pendingRead, pendingKnown, pendingLocked, pendingBegun, quiet]
    rw [quietRead, List.append_nil]
    refine Contract.wp_bind.mpr (wp_liftExcept fun seq next => ?_)
    apply wp_insertNumbered _ next
    exact ⟨quietRead, sinceRead.locks _ (sinceKnown.locks _ held), rfl⟩
  · trivial

/-- Every request keeps the protocol in isolation. -/
theorem wp_serve {service : Service}
    (quiet : state.pending client = []) :
    wp runId client request (serve service request) (fun _ _ _ => True) 0
      state := by
  by_cases append :
      ∃ actor id input, request = .write (.event actor id runId input)
  · rcases append with ⟨actor, id, input, rfl⟩
    apply Contract.wp_bind.mpr
    exact Contract.wp_weaken (fun _ _ _ _ => trivial)
      (wp_appendEvent quiet)
  · push Not at append
    apply Contract.wp_weaken fun _ _ _ _ => trivial
    apply Protocol.wp_of_onlyCalls _ (writes_serve request)
    · simp [quiet]
    · intro past rows elsewhere
      have none :=
        eventsOf_of_elsewhere fun row member =>
          elsewhere_of_written append (elsewhere row member)
      refine ⟨Or.inl none, ?_⟩
      show eventsOf runId (past ++ rows) = eventsOf runId past
      rw [eventsOf_append, none, List.append_nil]

end Appends

/-! ## Numbers without gaps -/

/-- A ledger that starts without events of the run numbers them in order. -/
theorem seqs_eq_countTo_of_reachable
    {Client : Type} [DecidableEq Client] {service : Service}
    {base : List Row → Prop} {runId : Uuid}
    (starts : ∀ rows, base rows → eventsOf runId rows = [])
    {world : LedgerWorld Client}
    (reached : Reachable (ledger service base) unrestricted world) :
    seqs runId world.shared.committed =
      countTo (seqs runId world.shared.committed).length := by
  apply seqs_eq_countTo_of_history
  apply (protocol runId).history fun _ _ _ quiet => wp_serve quiet
  have weaker :
      ∀ state : LedgerWorld Client,
        (ledger service base).initial state →
          (ledger service (protocol runId).base).initial state :=
    fun state isInitial =>
      ⟨⟨starts _ isInitial.1.1, isInitial.1.2⟩, isInitial.2⟩
  apply (reached.ofInitial weaker).weaken
  intro state move _
  exact Protocol.discipline_permits _ (fun _ _ => trivial)
    (fun _ _ _ _ => trivial) _ _ _

/--
In every state the ledger reaches, the events of a run have the numbers
1, 2, ..., n in the order in which they were committed.
-/
theorem seqs_eq_countTo
    {Client : Type} [DecidableEq Client] (service : Service)
    (runId : Uuid) {world : LedgerWorld Client}
    (reached :
      Reachable
        (ledger service fun rows => eventsOf runId rows = [])
        unrestricted world) :
    seqs runId world.shared.committed =
      countTo (eventsOf runId world.shared.committed).length := by
  rw [seqs_eq_countTo_of_reachable (fun _ none => none) reached, seqs,
    List.length_map]

/-- Client 1 appends, client 2 fails to, client 3 appends beside client 4. -/
def appendSchedule : List (Move Nat Request (Choice Fault)) :=
  .arrive 1 (append 1) :: .arrive 2 (append 2) :: answers 2 1 3 ++
    .depart 2 :: answers 1 2 8 ++
      .arrive 3 (append 3) :: .arrive 4 (append 4) :: answers 4 3 1 ++
        answers 3 4 8 ++ answers 4 5 7

/-- Three of four appends to one run are committed with the numbers 1 to 3. -/
theorem seqs_of_appendSchedule :
    ∃ world : LedgerWorld Nat,
      Reachable
          (ledger plainService fun rows => eventsOf 7 rows = [])
          unrestricted world ∧
        (eventsOf 7 world.shared.committed).length = 3 ∧
          seqs 7 world.shared.committed = countTo 3 := by
  have starts :
      (ledger plainService fun rows => eventsOf 7 rows = []).initial
        (resting [runSeven]) :=
    initial_resting rfl
  rcases
      Reachable.exists_of_replay unrestricted_of_anyMove starts
        appendSchedule
        (fun world => (eventsOf 7 world.shared.committed).length = 3)
        (by decide +kernel) with
    ⟨world, reached, three⟩
  simp only [decide_eq_true_eq] at three
  refine ⟨world, reached, three, ?_⟩
  rw [seqs_eq_countTo plainService 7 reached, three]

end Trackward.Ledger.EventSequence
