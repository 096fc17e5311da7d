import Trackward.Ledger.Concurrency
import Trackward.Lib.LockWaits

/-!
# Locks that are taken one after the other

Every write holds one advisory lock, the one of its chain, with one exception.
An append to a run first takes a lock whose key is the folded id of the run, and
the lock of the run's events while it holds that one.  The second key is the
first one with the discriminator of `events` added to it, so it may be the fold
of another run.

Two appends can then wait for each other, and this is the only way in which
requests of the ledger do.
-/

namespace Trackward.Ledger.Deadlocks

open Trackward.ChainCore.Chrono
open Trackward.ChainCore.Encode
open Trackward.ChainCore.JsonValue
open Trackward.Ledger.Anchoring
open Trackward.Ledger.Chain
open Trackward.Ledger.Concurrency
open Trackward.Ledger.Models
open Trackward.Ledger.Routes
open Trackward.Lib.LockWaits
open Trackward.Lib.Octets
open Trackward.Lib.Programs
open Trackward.Lib.Runs
open Trackward.Lib.Sessions
open Trackward.Lib.Transactions

/-! ## The locks of a request -/

/-- The run to which a request appends an event. -/
def appendsTo : Request → Option Uuid
  | .write (.event _ _ runId _) => some runId
  | _ => none

/-- A lock is asked for while none is held, or after the one of the run. -/
inductive Permits (request : Request) : List Int64 → Int64 → Prop where
  | first (key : Int64) : Permits request [] key
  | second {runId : Uuid} (appends : appendsTo request = some runId) :
      Permits request [uuidToLockKey runId] (chainLockKey .events runId)

section Handlers

variable {permits : List Int64 → Int64 → Prop} {held : List Int64}
variable {runtime : Runtime} {signing : SigningService} {sink : AnchorSink}

theorem noLock_liftExcept {α : Type} (result : Except Exit α) :
    (liftExcept result).OnlyCalls NoLock := by
  cases result <;> trivial

theorem noLock_insertRow {wrap : Fault → Exit} {row : ChainedRow} :
    (insertRow wrap row).OnlyCalls NoLock :=
  Program.onlyCalls_bind (onlyCalls_attempt trivial) fun _ =>
    Program.onlyCalls_bind (onlyCalls_attempt trivial) fun _ => trivial

/-- A computation between two statements. -/
theorem asks_liftExcept_bind {α β : Type} {result : Except Exit α}
    {next : α → Handler β}
    (later : ∀ value, Asks permits held (next value)) :
    Asks permits held (liftExcept result >>= next) := by
  cases result with
  | ok value => exact later value
  | error exit => trivial

/-- A draft locks its chain. -/
theorem asks_insertDraft {wrap : Fault → Exit} {createdAt : Int}
    {draft : Draft}
    (permitted : permits held (chainLockKey draft.table draft.runId)) :
    Asks permits held (insertDraft runtime wrap createdAt draft) := by
  refine asks_bind_noLock ?_ fun link =>
    Program.onlyCalls_bind (noLock_liftExcept _) fun _ => noLock_insertRow
  refine asks_lock_bind permitted (asks_of_noLock ?_)
  exact Program.onlyCalls_bind (onlyCalls_attempt trivial) fun _ =>
    noLock_liftExcept _

theorem asks_createFrom {wrap : Fault → Exit} {draft : Draft}
    (permitted : permits [] (chainLockKey draft.table draft.runId)) :
    Asks permits [] (createFrom runtime wrap draft) :=
  asks_attempt_bind trivial fun _ => asks_insertDraft permitted

theorem asks_appendEvent {actor : String} {id runId : Uuid}
    {input : CreateEvent} (first : permits [] (uuidToLockKey runId))
    (second :
      permits [uuidToLockKey runId] (chainLockKey .events runId)) :
    Asks permits [] (appendEvent runtime actor id runId input) := by
  refine asks_attempt_bind trivial fun createdAt => ?_
  refine asks_lock_bind first ?_
  refine asks_attempt_bind trivial fun known => ?_
  split
  · refine asks_attempt_bind trivial fun rows => ?_
    exact asks_liftExcept_bind fun seq => asks_insertDraft second
  · trivial

theorem asks_uploadArtifact {actor : String} {id : Uuid}
    {parts : List (Except String Part)}
    (first : ∀ key, permits [] key) :
    Asks permits [] (uploadArtifact runtime actor id parts) := by
  refine asks_liftExcept_bind fun upload => ?_
  refine asks_liftExcept_bind fun runId => ?_
  refine asks_liftExcept_bind fun data => ?_
  refine asks_attempt_bind trivial fun _ => ?_
  exact asks_attempt_bind trivial fun _ => asks_insertDraft (first _)

theorem asks_createBiasSlice {actor : String} {id : Uuid}
    {input : CreateBiasSlice} (first : ∀ key, permits [] key) :
    Asks permits [] (createBiasSlice runtime actor id input) := by
  unfold createBiasSlice
  split
  · trivial
  · refine asks_attempt_bind trivial fun createdAt => ?_
    split
    · exact asks_liftExcept_bind fun scoreStr => asks_insertDraft (first _)
    · exact asks_of_noLock noLock_insertRow

theorem noLock_put {key : String} {bytes : Bytes} :
    (sink.put key bytes).OnlyCalls NoLock := by
  cases sink with
  | noop => trivial
  | s3 bucket =>
      exact Program.onlyCalls_bind (onlyCalls_attempt trivial) fun _ => trivial
  | memory =>
      exact Program.onlyCalls_bind (onlyCalls_attempt trivial) fun _ => trivial

/-- A tick takes no lock at all. -/
theorem noLock_anchorTick {tick : Tick} :
    (anchorTick runtime signing sink tick).OnlyCalls NoLock := by
  refine Program.onlyCalls_bind (onlyCalls_attempt trivial) fun seen => ?_
  dsimp only
  split
  · trivial
  · refine Program.onlyCalls_bind ?_ fun leaves => ?_
    · exact Program.onlyCalls_bind (noLock_liftExcept _) fun _ =>
        Program.onlyCalls_bind (noLock_liftExcept _) fun _ =>
          Program.onlyCalls_bind (onlyCalls_attempt trivial) fun _ =>
            Program.onlyCalls_bind (noLock_liftExcept _) fun _ => trivial
    split
    · trivial
    · refine Program.onlyCalls_bind ?_ fun _ => trivial
      exact Program.onlyCalls_bind (noLock_liftExcept _) fun _ =>
        Program.onlyCalls_bind noLock_put fun _ =>
          Program.onlyCalls_bind (noLock_liftExcept _) fun _ =>
            Program.onlyCalls_bind (onlyCalls_attempt trivial) fun _ => trivial

end Handlers

/-- Every request asks for its locks in this order. -/
theorem asks_serve {service : Service} (request : Request) :
    Asks (Permits request) [] (serve service request) := by
  cases request with
  | createRun actor id input =>
      apply asks_of_noLock
      refine Program.onlyCalls_bind ?_ fun _ => trivial
      exact Program.onlyCalls_bind (noLock_liftExcept _) fun _ =>
        Program.onlyCalls_bind (onlyCalls_attempt trivial) fun _ => trivial
  | write write =>
      refine asks_bind_noLock ?_ fun _ => trivial
      cases write with
      | event actor id runId input =>
          exact asks_appendEvent (.first _) (.second rfl)
      | artifact actor id parts => exact asks_uploadArtifact .first
      | toolInvocation actor id input => exact asks_createFrom (.first _)
      | sideEffect actor id input => exact asks_createFrom (.first _)
      | guardrail actor id input => exact asks_createFrom (.first _)
      | humanApproval actor input => exact asks_createFrom (.first _)
      | biasSlice actor id input => exact asks_createBiasSlice .first
  | trigger global runId untilTs now id anchoredAt =>
      apply asks_of_noLock
      refine Program.onlyCalls_bind ?_ fun _ => trivial
      exact Program.onlyCalls_bind (noLock_liftExcept _) fun _ =>
        noLock_anchorTick
  | loopTick now id anchoredAt =>
      apply asks_of_noLock
      exact Program.onlyCalls_bind noLock_anchorTick fun _ => trivial

/-! ## Runs whose locks cross -/

/-- The lock of the first run's events is the lock of the second run. -/
def Crosses (first second : Uuid) : Prop :=
  uuidToU64 second = uuidToU64 first ^^^ lockDiscriminator .events

theorem crosses_iff {first second : Uuid} :
    Crosses first second ↔
      uuidToLockKey second = chainLockKey .events first := by
  constructor
  · intro crosses
    exact congrArg UInt64.toInt64 crosses
  · intro same
    exact congrArg Int64.toUInt64 same

/-- What crosses one way crosses the other way. -/
theorem Crosses.symm {first second : Uuid} (crosses : Crosses first second) :
    Crosses second first := by
  unfold Crosses at crosses ⊢
  rw [crosses, UInt64.xor_assoc, UInt64.xor_self, UInt64.xor_zero]

/-- Events are appended to these runs only. -/
def appendsWithin (runs : Set Uuid) (_ : LedgerWorld Nat)
    (move : Move Nat Request (Choice Fault)) : Prop :=
  ∀ client request runId,
    move = .arrive client request → appendsTo request = some runId →
      runId ∈ runs

section Runs

variable {service : Service} {runs : Set Uuid} {world : LedgerWorld Nat}

/-- The appends in flight are to these runs. -/
theorem appends_of_reachable
    (reached :
      Reachable (ledger service fun _ => True) (appendsWithin runs) world) :
    ∀ client session, world.sessions client = some session →
      ∀ runId, appendsTo session.request = some runId → runId ∈ runs := by
  induction reached with
  | start isInitial =>
      intro client session present
      rw [isInitial.2 client] at present
      cases present
  | next _ permitted moved within =>
      rcases World.step_cases moved with arrival | answered | departure
      · rcases arrival with ⟨client, request, rfl, _, rfl⟩
        intro other session present runId appends
        by_cases same : other = client
        · simp only [same, Function.update_self, Option.some.injEq] at present
          rw [← present] at appends
          exact permitted client request runId rfl appends
        · simp only [ne_eq, same, not_false_eq_true, Function.update_of_ne]
            at present
          exact within other session present runId appends
      · rcases answered with
          ⟨client, choice, request, calls, op, next, answer, after, rfl, here,
            _, rfl⟩
        intro other session present runId appends
        by_cases same : other = client
        · simp only [same, Function.update_self, Option.some.injEq] at present
          rw [← present] at appends
          exact within client _ here runId appends
        · simp only [ne_eq, same, not_false_eq_true, Function.update_of_ne]
            at present
          exact within other session present runId appends
      · rcases departure with ⟨client, leaving, rfl, _, rfl⟩
        intro other session present runId appends
        by_cases same : other = client
        · simp [same] at present
        · simp only [ne_eq, same, not_false_eq_true, Function.update_of_ne]
            at present
          exact within other session present runId appends

/-- Where no two runs cross, no state that is reached is deadlocked. -/
theorem not_deadlocked
    (apart : ∀ first ∈ runs, ∀ second ∈ runs, ¬ Crosses first second)
    (reached :
      Reachable (ledger service fun _ => True) (appendsWithin runs) world) :
    ¬ Deadlocked world := by
  classical
  have held : Held Permits world := held_of_reachable asks_serve reached
  let rank : Int64 → Nat := fun key =>
    if ∃ runId ∈ runs, key = chainLockKey .events runId then 1 else 0
  have ranked :
      ∀ client session, world.sessions client = some session →
        ∀ locks wanted, Permits session.request locks wanted →
          ∀ key ∈ locks, rank key < rank wanted := by
    intro client session present locks wanted permitted key member
    cases permitted with
    | first wanted => cases member
    | second appends =>
        rename_i runId
        have within := appends_of_reachable reached client session present
          runId appends
        have above : rank (chainLockKey .events runId) = 1 :=
          if_pos ⟨runId, within, rfl⟩
        have below : rank (uuidToLockKey runId) = 0 := by
          apply if_neg
          rintro ⟨other, inside, same⟩
          exact apart other inside runId within (crosses_iff.mpr same)
        rw [List.mem_singleton.mp member, above, below]
        exact Nat.zero_lt_one
  exact held.not_deadlocked ranked

/-! ## Two appends that wait for each other -/

/-- A request to append an event to a run. -/
def appendTo (runId : Uuid) : Request :=
  .write
    (.event "test" 1 runId
      { kind := "note"
        body := Json.null
        occurredAt := DateTime.epoch })

/-- A run with this id. -/
def runOf (id : Uuid) : Row :=
  .run
    { id := id
      agent := "agent"
      startedAt := .zero
      metadata := Json.null
      actorId := "test" }

/-- An answered statement, and then a program served alone. -/
theorem exists_alone_answer {client : Nat} {op : ledgerDb.Op}
    {next : ledgerDb.Answer op → Handler (Option Row)}
    {choice : Choice Fault} {answer : ledgerDb.Answer op}
    {before middle last : Db Nat} {key : Int64}
    (responded :
      (db Nat).respond client choice op before = some (answer, middle))
    (rest :
      ∃ left, Alone (db Nat) client (next answer) middle left last ∧
        wants left = some key) :
    ∃ left, Alone (db Nat) client (.call op next) before left last ∧
      wants left = some key := by
  rcases rest with ⟨left, alone, asks⟩
  exact ⟨left, .answer choice responded alone, asks⟩

/-- An append that holds the lock of its run asks for the one of the chain. -/
theorem exists_alone_append (service : Service) {client : Nat}
    {runId : Uuid} {state : Db Nat}
    (free : state.holder (uuidToLockKey runId) = none)
    (quiet : state.pending client = [])
    (there : runExists state.committed runId = true)
    (counted : nextSeq state.committed runId = .ok 1) :
    ∃ last : Db Nat,
      last.committed = state.committed ∧ last.pending = state.pending ∧
        last.holder =
            Function.update state.holder (uuidToLockKey runId)
              (some client) ∧
          ∃ left,
            Alone (db Nat) client (serve service (appendTo runId)) state
                left last ∧
              wants left = some (chainLockKey .events runId) := by
  let begun : Db Nat := { state with clock := state.clock + 1 }
  let locked : Db Nat :=
    { begun with
      holder :=
        Function.update state.holder (uuidToLockKey runId) (some client) }
  have begins :
      (db Nat).respond client (.succeed (state.clock + 1)) .begin state =
        some (.ok (state.clock + 1), begun) := by
    simp [host, State.succeed]
    rfl
  have locks :
      (db Nat).respond client (.succeed 0) (.lock (uuidToLockKey runId))
          begun =
        some (.ok (), locked) := by
    simp [host, State.succeed, begun, locked, free]
  have reads :
      (db Nat).respond client (.succeed 0) .select locked =
        some (.ok state.committed, locked) := by
    simp [host, State.succeed, begun, locked, quiet]
  refine ⟨locked, rfl, rfl, rfl, ?_⟩
  refine exists_alone_answer begins (exists_alone_answer locks
    (exists_alone_answer reads ?_))
  simp only [Program.bind, there, if_true]
  refine exists_alone_answer reads ?_
  simp only [Program.bind, counted]
  exact ⟨_, .stop _ _, rfl⟩

theorem uuidToLockKey_ne_of_crosses {first second : Uuid}
    (crosses : Crosses first second) :
    uuidToLockKey second ≠ uuidToLockKey first := by
  intro same
  have equal : uuidToU64 second = uuidToU64 first :=
    congrArg Int64.toUInt64 same
  have kept := congrArg (uuidToU64 first ^^^ ·) crosses
  simp only [equal, ← UInt64.xor_assoc, UInt64.xor_self, UInt64.zero_xor]
    at kept
  exact absurd kept (by decide)

/-- A client can arrive and append until it needs the lock of the chain. -/
theorem exists_waiting (client : Nat) {runId : Uuid}
    (inside : runId ∈ runs)
    (reached :
      Reachable (ledger service fun _ => True) (appendsWithin runs) world)
    (absent : world.sessions client = none)
    (free : world.shared.holder (uuidToLockKey runId) = none)
    (quiet : world.shared.pending client = [])
    (there : runExists world.shared.committed runId = true)
    (counted : nextSeq world.shared.committed runId = .ok 1) :
    ∃ target : LedgerWorld Nat,
      Reachable (ledger service fun _ => True) (appendsWithin runs)
          target ∧
        target.shared.committed = world.shared.committed ∧
          target.shared.pending = world.shared.pending ∧
            target.shared.holder =
                Function.update world.shared.holder (uuidToLockKey runId)
                  (some client) ∧
              wantedBy target client = some (chainLockKey .events runId) ∧
                ∀ other, other ≠ client →
                  target.sessions other = world.sessions other := by
  have arrived :
      Reachable (ledger service fun _ => True) (appendsWithin runs)
        ({ world with
            sessions :=
              Function.update world.sessions client
                (some
                  ⟨appendTo runId, 0, serve service (appendTo runId)⟩) } :
          LedgerWorld Nat) := by
    have permitted :
        appendsWithin runs world (.arrive client (appendTo runId)) := by
      rintro _ _ other ⟨⟩ ⟨⟩
      exact inside
    refine .next reached permitted ?_
    simp [ledger, system, World.step, absent]
  have answers :
      ∀ (world : LedgerWorld Nat) client choice,
        appendsWithin runs world (.answer client choice) := by
    rintro _ _ _ _ _ _ ⟨⟩
  rcases exists_alone_append service free quiet there counted
    with ⟨last, rows, pending, holder, left, alone, asks⟩
  rcases
      exists_reachable_of_alone answers alone arrived rfl
        (Function.update_self client _ _) with
    ⟨target, calls, reached', shared, present, others⟩
  refine ⟨target, reached', ?_, ?_, ?_, ?_, ?_⟩
  · rw [shared, rows]
  · rw [shared, pending]
  · rw [shared, holder]
  · rw [wantedBy, present]
    exact asks
  · intro other different
    rw [others other different]
    exact Function.update_of_ne different _ _

/-- Two appends to runs that cross wait for each other in some run. -/
theorem exists_deadlocked {first second : Uuid}
    (inside : first ∈ runs) (within : second ∈ runs)
    (crosses : Crosses first second) :
    ∃ world : LedgerWorld Nat,
      Reachable (ledger service fun _ => True)
          (appendsWithin runs) world ∧
        Deadlocked world := by
  let rows := [runOf first, runOf second]
  have start :
      Reachable (ledger service fun _ => True) (appendsWithin runs)
        (resting rows) :=
    .start (initial_resting trivial)
  have thereFirst : runExists rows first = true := by
    simp [runExists, rows, Row.run?, runOf]
  have thereSecond : runExists rows second = true := by
    simp [runExists, rows, Row.run?, runOf]
  rcases
      exists_waiting 0 inside start rfl rfl rfl thereFirst rfl
    with ⟨one, reachedOne, rowsOne, pendingOne, holderOne, wantsOne, others⟩
  have free : one.shared.holder (uuidToLockKey second) = none := by
    rw [holderOne]
    exact Function.update_of_ne (uuidToLockKey_ne_of_crosses crosses) _ _
  rcases
      exists_waiting 1 within reachedOne
        (others 1 Nat.one_ne_zero) free (by rw [pendingOne]; rfl)
        (by rw [rowsOne]; exact thereSecond) (by rw [rowsOne]; rfl)
    with ⟨two, reachedTwo, _, _, holderTwo, wantsTwo, othersTwo⟩
  have holderFirst :
      two.shared.holder (uuidToLockKey first) = some 0 := by
    rw [holderTwo, holderOne,
      Function.update_of_ne (uuidToLockKey_ne_of_crosses crosses).symm,
      Function.update_self]
  have holderSecond :
      two.shared.holder (uuidToLockKey second) = some 1 := by
    rw [holderTwo, Function.update_self]
  have wantsZero :
      wantedBy two 0 = some (chainLockKey .events first) := by
    rw [wantedBy, othersTwo 0 Nat.zero_ne_one]
    exact wantsOne
  rw [← crosses_iff.mp crosses] at wantsZero
  rw [← crosses_iff.mp crosses.symm] at wantsTwo
  exact ⟨two, reachedTwo, deadlocked_of_pair
    ⟨Nat.zero_ne_one, _, wantsZero, holderSecond⟩
    ⟨Nat.one_ne_zero, _, wantsTwo, holderFirst⟩⟩

/--
Clients of the ledger never wait for each other in a circle if and only if no
event is ever appended to two runs that cross.
-/
theorem deadlockFree_iff (service : Service) (runs : Set Uuid) :
    (∀ world : LedgerWorld Nat,
        Reachable (ledger service fun _ => True) (appendsWithin runs) world →
          ¬ Deadlocked world) ↔
      ∀ first ∈ runs, ∀ second ∈ runs, ¬ Crosses first second := by
  constructor
  · intro never first inside second within crosses
    rcases exists_deadlocked inside within crosses with
      ⟨world, reached, deadlocked⟩
    exact never world reached deadlocked
  · intro apart world reached
    exact not_deadlocked apart reached

end Runs

end Trackward.Ledger.Deadlocks
