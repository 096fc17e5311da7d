import Trackward.Ledger.AnchorRetries
import Trackward.Lib.Logs

/-!
# Ticks that overtake each other

A tick reads where its window starts before anything else and inserts its
anchor last.  Nothing keeps another tick of the scope from inserting an anchor
in between, and the tick does not look again.

The windows of a scope are disjoint in exactly those runs in which this does
not happen.  It is a matter of the order of steps alone: the log of a run tells
who has read and who has inserted, in order.
-/

namespace Trackward.Ledger.AnchorRaces

open Trackward.Ledger.Anchoring
open Trackward.Ledger.AnchorRetries
open Trackward.Ledger.AnchorWindows
open Trackward.Ledger.Chain
open Trackward.Ledger.Concurrency
open Trackward.Ledger.Models
open Trackward.Ledger.Routes
open Trackward.Lib.Admission
open Trackward.Lib.Growth
open Trackward.Lib.Logs
open Trackward.Lib.Programs
open Trackward.Lib.Runs
open Trackward.Lib.Sessions
open Trackward.Lib.Transactions
open Trackward.Lib.Windows

/-- Something that happens at the ledger. -/
abbrev LedgerEntry (Client : Type) :=
  Entry ledgerDb Client Request (Choice Fault)

/-- The log of the ledger. -/
abbrev LedgerLog (Client : Type) :=
  List (LedgerEntry Client)

/-- A run of the ledger from tables with such rows, with its log. -/
abbrev LedgerRun {Client : Type} [DecidableEq Client] (service : Service)
    (base : List Row → Prop) (log : LedgerLog Client)
    (world : LedgerWorld Client) : Prop :=
  Logged (db Client) (serve service) (Protocol.atRest base) log world

section Logs

variable {Client : Type}

/-- The row that an entry inserts in a transaction of its own. -/
def published? : LedgerEntry Client → Option Row
  | .called _ _ ⟨.publish row, .ok _⟩ => some row
  | _ => none

/-- The anchors of a scope that are inserted, in order. -/
def inserted (scope : AnchorScope) (log : LedgerLog Client) :
    List (Anchor × List ChainedRow) :=
  anchorsOf scope (log.filterMap published?)

variable [DecidableEq Client]

/--
If the entry inserts an anchor of the scope, then no other one was inserted
since its session was answered first, with the rows that tell where its window
starts.
-/
def InTime (scope : AnchorScope) (past : LedgerLog Client)
    (entry : LedgerEntry Client) : Prop :=
  ∀ client choice anchor leaves,
    entry =
        .called client choice ⟨.publish (.anchor anchor leaves), .ok ()⟩ →
      anchor.runId = scope.runFilter →
        ∀ before choice' rows between,
          past =
              before ++ .called client choice' ⟨.select, .ok rows⟩ ::
                between →
            own client before = [] →
              (∀ request, .arrived client request ∉ between) →
                inserted scope between = []

/-- No tick of the scope is overtaken by another one. -/
def NotOvertaken (scope : AnchorScope) (log : LedgerLog Client) : Prop :=
  Grows (InTime scope) log

end Logs

/-! ## What is inserted -/

section Inserted

variable {Client : Type} [DecidableEq Client]
variable {service : Service} {scope : AnchorScope}
variable {log : LedgerLog Client} {world : LedgerWorld Client}

omit [DecidableEq Client] in
theorem inserted_append (scope : AnchorScope) (first second : LedgerLog Client) :
    inserted scope (first ++ second) =
      inserted scope first ++ inserted scope second := by
  rw [inserted, List.filterMap_append, anchorsOf_append]
  rfl

omit [DecidableEq Client] in
/-- An entry inserts no anchor of the scope, or it inserts one. -/
theorem inserted_cases (scope : AnchorScope) (entry : LedgerEntry Client) :
    inserted scope [entry] = [] ∨
      ∃ client choice anchor leaves,
        entry =
            .called client choice ⟨.publish (.anchor anchor leaves), .ok ()⟩ ∧
          anchor.runId = scope.runFilter := by
  cases entry with
  | arrived | departed => exact Or.inl rfl
  | called client choice event =>
      rcases event with ⟨op, answer⟩
      cases op with
      | begin | lock | select | insert | commit | emit => exact Or.inl rfl
      | publish row =>
          cases answer with
          | error fault => exact Or.inl rfl
          | ok reply =>
              cases row with
              | run row => exact Or.inl (anchorsOf_run scope row)
              | chained row => exact Or.inl (anchorsOf_chained scope row)
              | anchor anchor leaves =>
                  by_cases same : anchor.runId = scope.runFilter
                  · exact Or.inr ⟨client, choice, anchor, leaves, rfl, same⟩
                  · exact Or.inl (anchorsOf_anchor_of_ne same)

omit [DecidableEq Client] in
theorem inserted_anchor {client : Client} {choice : Choice Fault}
    {anchor : Anchor} {leaves : List ChainedRow}
    (same : anchor.runId = scope.runFilter) :
    inserted scope
        [.called client choice ⟨.publish (.anchor anchor leaves), .ok ()⟩] =
      [(anchor, leaves)] :=
  anchorsOf_anchor_of_eq same

/-- A statement of a handler inserts no anchor into a transaction. -/
theorem anchor?_of_insert {request : Request}
    {past : List (Program.Event ledgerDb)} {row : Row}
    (suits : SessionCall service request past (.insert row)) :
    row.anchor? = none := by
  unfold SessionCall at suits
  cases isTick : request.tick? with
  | none =>
      rw [isTick] at suits
      exact suits
  | some tick =>
      rw [isTick] at suits
      exact suits.2.elim

/-- The anchors of a scope are those of the log, and none is waiting. -/
structure Recorded (scope : AnchorScope) (log : LedgerLog Client)
    (shared : Db Client) : Prop where
  anchors : anchorsOf scope shared.committed = inserted scope log
  pending :
    ∀ client, ∀ row ∈ shared.pending client, Row.anchor? row = none

theorem Recorded.call {shared after : Db Client} {client : Client}
    {choice : Choice Fault} {op : ledgerDb.Op} {answer : ledgerDb.Answer op}
    (recorded : Recorded scope log shared)
    (insertsNone : ∀ row, op = .insert row → row.anchor? = none)
    (responded :
      (db Client).respond client choice op shared = some (answer, after)) :
    Recorded scope (log ++ [.called client choice ⟨op, answer⟩]) after := by
  have quiet
      (writes : op.Writes fun row => Row.anchor? row = none)
      (nothing : published? (.called client choice ⟨op, answer⟩) = none) :
      Recorded scope (log ++ [.called client choice ⟨op, answer⟩]) after := by
    rcases batch_of_respond responded writes recorded.pending with
      ⟨⟨batch, committed, none⟩, pending⟩
    refine ⟨?_, pending⟩
    rw [committed, anchorsOf_append, anchorsOf_of_none none,
      inserted_append, recorded.anchors]
    simp [inserted, anchorsOf, nothing]
  cases op with
  | begin | lock | select | commit | emit => exact quiet trivial rfl
  | insert row => exact quiet (insertsNone row rfl) rfl
  | publish row =>
      rcases respond_cases responded with
        ⟨fault, rfl, rfl, rfl⟩ | ⟨now, reply, rfl, rfl, succeeded⟩
      · refine ⟨?_, recorded.pending⟩
        rw [inserted_append, recorded.anchors]
        exact (List.append_nil _).symm
      · cases State.succeeds_of_succeed succeeded with
        | publish row accepted =>
            refine ⟨?_, recorded.pending⟩
            rw [inserted_append, ← recorded.anchors]
            exact anchorsOf_append scope _ _

theorem recorded_of_run
    (run :
      LedgerRun service (fun rows => anchorsOf scope rows = []) log world) :
    Recorded scope log world.shared := by
  induction run with
  | start isInitial =>
      refine ⟨isInitial.1.1, fun client row member => ?_⟩
      rw [isInitial.1.2.1 client] at member
      cases member
  | arrive _ request absent recorded =>
      refine ⟨?_, recorded.pending⟩
      rw [inserted_append, recorded.anchors]
      exact (List.append_nil _).symm
  | @call log world run client request calls op next present choice answer
      shared responded recorded =>
      refine recorded.call (fun row insert => ?_) responded
      subst insert
      exact
        anchor?_of_insert
          ((run.leaves present).tracks (tracks_serve service request)).1
  | @depart log world run leaver session present recorded =>
      constructor
      · rw [inserted_append]
        exact recorded.anchors.trans (List.append_nil _).symm
      · intro client row member
        change
          row ∈ Function.update world.shared.pending leaver [] client
          at member
        by_cases same : client = leaver
        · subst same
          rw [Function.update_self] at member
          cases member
        · rw [Function.update_of_ne same] at member
          exact recorded.pending client row member

end Inserted

/-! ## Ticks that are in time -/

section Races

variable {Client : Type} [DecidableEq Client]
variable {service : Service} {scope : AnchorScope}
variable {log : LedgerLog Client} {world : LedgerWorld Client}

/-- A session reads the anchors that are inserted before. -/
theorem anchorsOf_read {before between : LedgerLog Client} {client : Client}
    {choice : Choice Fault} {rows : List Row}
    (run :
      LedgerRun service (fun rows => anchorsOf scope rows = [])
        (before ++ .called client choice ⟨.select, .ok rows⟩ :: between)
        world) :
    anchorsOf scope rows = inserted scope before := by
  rcases run.called with
    ⟨middle, request, calls, next, shared, shorter, _, responded⟩
  have recorded := recorded_of_run shorter
  rcases respond_cases responded with
    ⟨fault, _, absurdity, _⟩ | ⟨now, reply, rfl, same, succeeded⟩
  · cases absurdity
  · cases same
    cases State.succeeds_of_succeed succeeded with
    | select =>
        rw [anchorsOf_append, anchorsOf_of_none (recorded.pending client),
          List.append_nil, recorded.anchors]

/-- What a session that inserts an anchor has read first. -/
theorem insertable_of_session
    (run :
      LedgerRun service (fun rows => anchorsOf scope rows = []) log world)
    {client : Client} {request : Request} {calls : Nat} {anchor : Anchor}
    {leaves : List ChainedRow}
    {next :
      ledgerDb.Answer (.publish (.anchor anchor leaves)) →
        Handler (Option Row)}
    (present :
      world.sessions client =
        some ⟨request, calls, .call (.publish (.anchor anchor leaves)) next⟩) :
    ∃ tick, Insertable service tick (own client log) anchor leaves := by
  have suits : SessionCall service request (own client log) _ :=
    ((run.leaves present).tracks (tracks_serve service request)).1
  unfold SessionCall at suits
  cases isTick : request.tick? with
  | none =>
      rw [isTick] at suits
      cases suits
  | some tick =>
      rw [isTick] at suits
      rcases suits.2 with ⟨anchor', leaves', same, insertable⟩
      cases same
      exact ⟨tick, insertable⟩

/-- The windows are those that a statement has read and those made since. -/
theorem windowsOf_eq_append {before between : LedgerLog Client}
    {client : Client} {choice : Choice Fault} {seen : List Row}
    (run :
      LedgerRun service (fun rows => anchorsOf scope rows = [])
        (before ++ .called client choice ⟨.select, .ok seen⟩ :: between)
        world) :
    windowsOf scope world.shared.committed =
      windowsOf scope seen ++
        (inserted scope between).map fun found => windowOf found.1 := by
  unfold windowsOf
  rw [(recorded_of_run run).anchors, anchorsOf_read run, List.append_cons,
    inserted_append, inserted_append, List.map_append, List.map_append]
  exact congrArg (· ++ _) (List.append_nil _)

/--
An anchor starts where the windows of its scope end exactly if it is inserted
in time.
-/
theorem start_eq_latest_iff_inTime
    (run :
      LedgerRun service (fun rows => anchorsOf scope rows = []) log world)
    (contiguous :
      Contiguous epochMicros (windowsOf scope world.shared.committed))
    {client : Client} {choice : Choice Fault} {anchor : Anchor}
    {leaves : List ChainedRow} (same : anchor.runId = scope.runFilter)
    {tick : Tick}
    (insertable : Insertable service tick (own client log) anchor leaves) :
    (windowOf anchor).start =
        latest epochMicros (windowsOf scope world.shared.committed) ↔
      InTime scope log
        (.called client choice
          ⟨.publish (.anchor anchor leaves), .ok ()⟩) := by
  rcases insertable.minted with ⟨seen, collected, rest, first, minted⟩
  have stale : Stale epochMicros (windowsOf scope world.shared.committed) :=
    stale_windowsOf (.free _) (fun _ empty => empty)
      (history_free .events 0 run.reachable)
  have isScope : tick.scope = scope :=
    runFilter_injective (minted.scope_eq.symm.trans same)
  -- the tick has read the anchors before the first answer of its session
  have starts {before between : LedgerLog Client} {choice' : Choice Fault}
      (split :
        log =
          before ++ .called client choice' ⟨.select, .ok seen⟩ :: between) :
      (windowOf anchor).start =
          latest epochMicros (windowsOf scope seen) ∧
        windowsOf scope world.shared.committed =
          windowsOf scope seen ++
            (inserted scope between).map fun found => windowOf found.1 := by
    rw [split] at run
    have parts := windowsOf_eq_append run
    refine ⟨?_, parts⟩
    have from_eq := minted.from_eq
    rw [isScope] at from_eq
    refine micros_of_anchorWindowStart (fun window member => ?_) from_eq
    apply origin_le_finish_of_stale stale
    rw [parts]
    exact List.mem_append_left _ member
  constructor
  · rintro atLatest _ _ _ _ ⟨⟩ _ before choice' rows between split none absent
    have first' : ∃ rest', own client log = ⟨.select, .ok rows⟩ :: rest' := by
      rw [split]
      exact own_eq_cons none absent
    rcases first' with ⟨rest', first'⟩
    rw [first] at first'
    cases first'
    rcases starts split with ⟨atRead, parts⟩
    by_contra overtaken
    rw [parts] at contiguous stale atLatest
    have further :=
      contiguous.latest_lt
        (fun window member => by
          rcases Grows.of_mem stale (List.mem_append_right _ member) with
            ⟨_, _, nonempty, _⟩
          exact nonempty)
        (by simpa using overtaken)
    rw [← atLatest, ← atRead] at further
    exact lt_irrefl _ further
  · intro inTime
    have atStart :
        own client log = [] ++ ⟨.select, .ok seen⟩ :: rest := first
    rcases exists_split_of_own atStart with
      ⟨before, choice', between, split, none, absent⟩
    rcases starts split with ⟨atRead, parts⟩
    have quiet :=
      inTime client choice anchor leaves rfl same before choice' seen between
        split none absent
    rw [parts, quiet, atRead]
    exact congrArg _ (List.append_nil _).symm

/-- The windows of a scope adjoin exactly if no tick of it is overtaken. -/
theorem contiguous_iff_notOvertaken
    (run :
      LedgerRun service (fun rows => anchorsOf scope rows = []) log world) :
    Contiguous epochMicros (windowsOf scope world.shared.committed) ↔
      NotOvertaken scope log := by
  induction log using List.reverseRecOn generalizing world with
  | nil =>
      rw [windowsOf, (recorded_of_run run).anchors]
      exact ⟨fun _ => grows_nil, fun _ => grows_nil⟩
  | append_singleton log entry induction =>
      have anchors := (recorded_of_run run).anchors
      rw [inserted_append] at anchors
      rcases inserted_cases scope entry with quiet | insertion
      · rcases run.butLast with ⟨before, shorter⟩
        have inTime : InTime scope log entry := by
          rintro client choice anchor leaves rfl same
          rw [inserted_anchor same] at quiet
          cases quiet
        rw [quiet, List.append_nil, ← (recorded_of_run shorter).anchors]
          at anchors
        have windows :
            windowsOf scope world.shared.committed =
              windowsOf scope before.shared.committed := by
          unfold windowsOf
          rw [anchors]
        rw [windows, induction shorter, NotOvertaken, NotOvertaken,
          grows_concat_iff]
        exact ⟨fun earlier => ⟨earlier, inTime⟩, And.left⟩
      · rcases insertion with ⟨client, choice, anchor, leaves, rfl, same⟩
        rcases run.call_cases with
          ⟨before, request, calls, next, shorter, present, responded, _⟩
        rcases insertable_of_session shorter present with ⟨tick, insertable⟩
        rw [inserted_anchor same, ← (recorded_of_run shorter).anchors]
          at anchors
        have windows :
            windowsOf scope world.shared.committed =
              windowsOf scope before.shared.committed ++
                [windowOf anchor] := by
          unfold windowsOf
          rw [anchors, List.map_append]
          rfl
        have earlier := induction shorter
        unfold NotOvertaken Contiguous at earlier ⊢
        rw [windows, grows_concat_iff, grows_concat_iff, ← earlier]
        exact
          and_congr_right fun contiguous =>
            start_eq_latest_iff_inTime shorter contiguous same insertable

/--
In every state that a run of the ledger reaches, the windows of a scope are
disjoint exactly if, in the run so far, no anchor of the scope was inserted
between the first read of a tick and the insert of its own anchor.
-/
theorem noOverlap_iff_notOvertaken (service : Service) (scope : AnchorScope)
    (run :
      LedgerRun service (fun rows => anchorsOf scope rows = []) log world) :
    NoOverlap scope world.shared.committed ↔ NotOvertaken scope log := by
  rw [noOverlap_iff_inserted_at_latest service scope run.reachable]
  exact contiguous_iff_notOvertaken run

end Races

/-- Two ticks of the global scope, one after the other. -/
def ticksInTurn : List (Move Nat Request (Choice Fault)) :=
  .arrive 1 (anchorUntil 1 (second 7 (by decide))) :: answers 1 0 3 ++
    .arrive 2 (anchorUntil 2 (second 10 (by decide))) :: answers 2 0 3

/-- Of two ticks that run in turn none is overtaken, and the windows adjoin. -/
theorem notOvertaken_of_ticksInTurn :
    ∃ (log : LedgerLog Nat) (world : LedgerWorld Nat),
      LedgerRun plainService (fun rows => anchorsOf .global rows = []) log
          world ∧
        windowsOf .global world.shared.committed =
            [⟨epochMicros, 7000000⟩, ⟨7000000, 10000000⟩] ∧
          NoOverlap .global world.shared.committed ∧
            NotOvertaken .global log := by
  have starts :
      (ledger plainService fun rows => anchorsOf .global rows = []).initial
        (resting [runSeven, noted 1 4000000, noted 2 8000000]) :=
    initial_resting rfl
  rcases
      exists_logged_of_play starts ticksInTurn
        (fun _ =>
          globalWindows [⟨epochMicros, 7000000⟩, ⟨7000000, 10000000⟩])
        (by decide +kernel) with
    ⟨log, world, run, windows⟩
  simp only [globalWindows, decide_eq_true_eq] at windows
  have apart : NoOverlap .global world.shared.committed := by
    apply
      (noOverlap_iff_inserted_at_latest plainService .global
        run.reachable).mpr
    rw [windows]
    exact (grows_nil.concat (by decide)).concat (by decide)
  exact
    ⟨log, world, run, windows, apart,
      (noOverlap_iff_notOvertaken plainService .global run).mp apart⟩

end Trackward.Ledger.AnchorRaces
