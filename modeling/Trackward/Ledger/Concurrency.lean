import Trackward.Ledger.Anchoring

/-!
# The ledger as a system of concurrent requests

Any number of clients are served at once: each creates a run, writes to a
chained table, or runs an anchor tick.  All of them share one database.

The protocol of this module is what every handler keeps.  A row that is chained
in a table and run links to the tail of that chain at the moment it commits,
because the chain's lock is held from before the tail is read.  An anchor is
computed from two earlier states of the database, the one its window start was
read in and the one its leaves were read in.
-/

namespace Trackward.Ledger.Concurrency

open Trackward.ChainCore.Chrono
open Trackward.ChainCore.Encode
open Trackward.ChainCore.JsonValue
open Trackward.Ledger.Anchoring
open Trackward.Ledger.Chain
open Trackward.Ledger.Models
open Trackward.Ledger.Routes
open Trackward.Ledger.Timestamps
open Trackward.Lib.Octets
open Trackward.Lib.Programs
open Trackward.Lib.Runs
open Trackward.Lib.Sessions
open Trackward.Lib.Transactions

/-! ## Requests -/

/-- What a client asks of the ledger. -/
inductive Request where
  | createRun (actor : String) (id : Uuid) (input : CreateRun)
  | write (request : WriteRequest)
  | trigger (global : Bool) (runId : Option Uuid)
      (untilTs : Option DateTime) (now : DateTime) (id : Uuid)
      (anchoredAt : DateTime)
  | loopTick (now : DateTime) (id : Uuid) (anchoredAt : DateTime)

/-- The tick a request runs. -/
def Request.tick? : Request → Option Tick
  | .trigger global runId untilTs now id anchoredAt =>
      match triggerScope global runId with
      | .ok scope =>
          some
            { scope := scope
              untilTs := untilTs.getD now
              id := id
              anchoredAt := anchoredAt }
      | .error _ => none
  | .loopTick now id anchoredAt =>
      some
        { scope := .global
          untilTs := now
          id := id
          anchoredAt := anchoredAt }
  | _ => none

/-- The parts of the ledger that do not change while it runs. -/
structure Service where
  runtime : Runtime
  signing : SigningService
  sink : AnchorSink

/-- The handler of a request; the row it answers with, if any. -/
def serve (service : Service) : Request → Handler (Option Row)
  | .createRun actor id input => do
      let run ← createRun service.runtime actor id input
      return some (.run run)
  | .write request => do
      let row ← write service.runtime request
      return some (.chained row)
  | .trigger global runId untilTs now id anchoredAt => do
      let _ ←
        trigger service.runtime service.signing service.sink global runId
          untilTs now id anchoredAt
      return none
  | .loopTick now id anchoredAt => do
      let _ ←
        anchorTick service.runtime service.signing service.sink
          { scope := .global
            untilTs := now
            id := id
            anchoredAt := anchoredAt }
      return none

section Runs

variable {Client : Type} [DecidableEq Client]

/-- The state of the database. -/
abbrev Db (Client : Type) := State Client Int64 Row Effect

/-- The database, with the constraints of the migrations. -/
abbrev db (Client : Type) [DecidableEq Client] :
    Host ledgerDb Client (Choice Fault) (Db Client) :=
  host schema

/-- The ledger with all requests in flight. -/
abbrev LedgerWorld (Client : Type) :=
  World ledgerDb Client Request (Db Client) Exit (Option Row)

/-- All runs of the ledger from a database at rest. -/
def ledger (service : Service) (base : List Row → Prop) :
    System (LedgerWorld Client) (Move Client Request (Choice Fault)) :=
  system (db Client) (serve service) (Protocol.atRest base)

end Runs

/-! ## The protocol -/

/--
The histories and the runs a result is about: the rows at the start, the
batches that may be committed, and what may be committed beside a tick that has
collected its leaves.
-/
structure Setting where
  base : List Row → Prop
  alone : List Row → List Row → Prop
  late : Tick → List Row → List Row → Prop
  late_refl : ∀ tick rows, late tick rows rows
  late_trans :
    ∀ tick first second third,
      late tick first second → late tick second third →
        late tick first third

/-- All runs from a database with these rows at the start. -/
def Setting.free (base : List Row → Prop) : Setting where
  base := base
  alone := fun _ _ => True
  late := fun _ _ _ => True
  late_refl := fun _ _ => trivial
  late_trans := fun _ _ _ _ _ _ => trivial

/-- The receipt and the leaves of a tick that read `seen`, then `collected`. -/
structure Minted
    (service : Service) (tick : Tick) (seen collected : List Row)
    (anchor : Anchor) (leaves : List ChainedRow) : Prop where
  from_eq :
    toTimestamptz (anchorWindowStart tick.scope seen) =
      some anchor.anchoredFrom
  to_eq : toTimestamptz tick.untilTs = some anchor.anchoredTo
  leaves_eq :
    leaves =
      collectRows tick.scope anchor.anchoredFrom anchor.anchoredTo collected
  nonempty : leaves ≠ []
  scope_eq : anchor.runId = tick.scope.runFilter
  root_eq :
    ∃ digests root,
      leafDigests leaves = .ok digests ∧
        rootOf service.runtime digests = .ok root ∧
          anchor.rootHash = root.bytes ∧
            anchor.leafCount = Int64.ofNat digests.length

/-- What a request may add to the committed rows. -/
def Admissible
    (service : Service) (setting : Setting) (table : ChainTable)
    (runId : Uuid) (request : Request) (past : List Row) : Row → Prop
  | .run _ => True
  | .chained row =>
      inChain table runId row = true →
        row.columns.prevHash = tail table runId past
  | .anchor anchor leaves =>
      ∃ tick seen collected,
        request.tick? = some tick ∧ seen <+: collected ∧
          collected <+: past ∧ setting.late tick collected past ∧
            Minted service tick seen collected anchor leaves

/-- The protocol all handlers keep, seen from the chain of one table and run. -/
def protocol
    (service : Service) (setting : Setting) (table : ChainTable)
    (runId : Uuid) : Protocol Request Int64 Row (List ChainedRow) where
  key := chainLockKey table runId
  view := chainOf table runId
  base := setting.base
  admissible := fun request past rows =>
    ∃ row, rows = [row] ∧
      Admissible service setting table runId request past row
  alone := setting.alone
  steady := fun request calls first second =>
    2 ≤ calls → ∀ tick, request.tick? = some tick →
      setting.late tick first second
  steady_refl := fun _ _ rows _ tick _ => setting.late_refl tick rows
  steady_trans := by
    intro request calls first second third one two scanned tick isTick
    exact
      setting.late_trans tick first second third (one scanned tick isTick)
        (two scanned tick isTick)

/-! ## Every handler keeps the protocol -/

section Verified

variable {Client : Type} [DecidableEq Client]
variable {service : Service} {setting : Setting}
variable {table : ChainTable} {runId : Uuid}
variable {client : Client} {request : Request} {calls : Nat}
variable {state : Db Client}

/-- The weakest precondition under the protocol. -/
abbrev wp {α : Type}
    (service : Service) (setting : Setting) (table : ChainTable)
    (runId : Uuid) (client : Client) (request : Request)
    (handler : Handler α) (post : α → Nat → Db Client → Prop)
    (calls : Nat) (state : Db Client) : Prop :=
  (protocol service setting table runId).contract.wp (db Client) client
    request handler post calls state

/-- What a client knows of a later state under the protocol. -/
abbrev Since
    (service : Service) (setting : Setting) (table : ChainTable)
    (runId : Uuid) (client : Client) (request : Request) (calls : Nat)
    (before after : Db Client) : Prop :=
  (protocol service setting table runId).Since client request calls before
    after

theorem wp_liftExcept {α : Type} {result : Except Exit α}
    {post : α → Nat → Db Client → Prop}
    (continues : ∀ value, result = .ok value → post value calls state) :
    wp service setting table runId client request (liftExcept result) post
      calls state := by
  cases result with
  | ok value => exact continues value rfl
  | error exit => trivial

/-- The lock of the chain is held, and its rows are those of `rows`. -/
def Holding (table : ChainTable) (runId : Uuid) (client : Client)
    (rows : List Row) (state : Db Client) : Prop :=
  state.holder (chainLockKey table runId) = some client ∧
    chainOf table runId state.committed = chainOf table runId rows

omit [DecidableEq Client] in
/-- Others cannot touch a chain whose lock is held. -/
theorem Holding.since {rows : List Row} {later : Db Client}
    (holding : Holding table runId client rows state)
    (since :
      Since service setting table runId client request calls state later) :
    Holding table runId client rows later :=
  ⟨since.locks _ holding.1, (since.view holding.1).trans holding.2⟩

/--
A row is inserted and committed: either it is in no relevant chain, or the lock
is held and it links to the tail of the rows that were read.
-/
theorem wp_insertRow {wrap : Fault → Exit} {row : ChainedRow}
    (quiet : state.pending client = [])
    (linked :
      inChain table runId row = true →
        ∃ rows,
          Holding table runId client rows state ∧
            row.columns.prevHash = tail table runId rows) :
    wp service setting table runId client request (insertRow wrap row)
      (fun _ _ _ => True) calls state := by
  refine Contract.wp_bind.mpr (Protocol.wp_insert ?_)
  intro inserted pending sinceInserted
  rw [quiet, List.nil_append] at pending
  refine Contract.wp_bind.mpr
    (Protocol.wp_commit ?_ fun _ => trivial)
  intro before _ sinceBefore _
  rw [pending]
  cases member : inChain table runId row with
  | true =>
      rcases linked member with ⟨rows, holding, link⟩
      have held := (holding.since sinceInserted).since sinceBefore
      refine ⟨⟨_, rfl, fun _ => ?_⟩, Or.inl held.1⟩
      rw [link, tail, tail, held.2]
  | false =>
      refine ⟨⟨_, rfl, fun absurdity => ?_⟩, Or.inr ?_⟩
      · rw [member] at absurdity
        cases absurdity
      · apply chainOf_concat_of_not_inChain
        rintro chained ⟨⟩
        exact member

/-- A draft is linked, inserted and committed. -/
theorem wp_insertDraft {wrap : Fault → Exit} {createdAt : Int}
    {draft : Draft} (quiet : state.pending client = []) :
    wp service setting table runId client request
      (insertDraft service.runtime wrap createdAt draft)
      (fun _ _ _ => True) calls state := by
  refine Contract.wp_bind.mpr (Contract.wp_bind.mpr (Protocol.wp_lock ?_))
  intro locked pendingLocked _ held
  refine Contract.wp_bind.mpr (Protocol.wp_select ?_)
  intro read pendingRead sinceRead
  have quietRead : read.pending client = [] := by
    rw [pendingRead, pendingLocked, quiet]
  rw [quietRead, List.append_nil]
  refine wp_liftExcept fun link linkedAfter => ?_
  refine Contract.wp_bind.mpr (wp_liftExcept fun row built => ?_)
  apply wp_insertRow quietRead
  intro member
  -- the row is in the chain, so its draft locked it
  rcases draft.placed _ _ built with ⟨tableEq, runEq, columnsEq⟩
  simp only [inChain, Bool.and_eq_true, decide_eq_true_eq] at member
  have draftTable : draft.table = table := by rw [← tableEq, member.1.1]
  have draftRun : draft.runId = runId := by
    rw [runEq, Option.some.injEq] at member
    exact member.1.2
  rw [draftTable, draftRun] at held linkedAfter
  refine ⟨read.committed, ⟨sinceRead.locks _ held, rfl⟩, ?_⟩
  rcases linkAfter_eq_ok_iff.mp linkedAfter with ⟨_, _, _, _, rfl⟩
  rw [columnsEq]

theorem wp_createFrom {wrap : Fault → Exit} {draft : Draft}
    (quiet : state.pending client = []) :
    wp service setting table runId client request
      (createFrom service.runtime wrap draft) (fun _ _ _ => True) calls
      state := by
  refine Contract.wp_bind.mpr (Protocol.wp_begin ?_)
  intro createdAt begun pending _
  exact wp_insertDraft (pending.trans quiet)

theorem wp_appendEvent {actor : String} {id eventRun : Uuid}
    {input : CreateEvent} (quiet : state.pending client = []) :
    wp service setting table runId client request
      (appendEvent service.runtime actor id eventRun input)
      (fun _ _ _ => True) calls state := by
  refine Contract.wp_bind.mpr (Protocol.wp_begin ?_)
  intro createdAt begun pendingBegun _
  refine Contract.wp_bind.mpr (Protocol.wp_lock ?_)
  intro locked pendingLocked _ _
  refine Contract.wp_bind.mpr (Protocol.wp_select ?_)
  intro known pendingKnown _
  split
  · refine Contract.wp_bind.mpr (Protocol.wp_select ?_)
    intro read pendingRead _
    refine Contract.wp_bind.mpr (wp_liftExcept fun seq _ => ?_)
    apply wp_insertDraft
    rw [pendingRead, pendingKnown, pendingLocked, pendingBegun, quiet]
  · trivial

theorem wp_uploadArtifact {actor : String} {id : Uuid}
    {parts : List (Except String Part)}
    (quiet : state.pending client = []) :
    wp service setting table runId client request
      (uploadArtifact service.runtime actor id parts)
      (fun _ _ _ => True) calls state := by
  refine Contract.wp_bind.mpr (wp_liftExcept fun upload _ => ?_)
  refine Contract.wp_bind.mpr (wp_liftExcept fun artifactRun _ => ?_)
  refine Contract.wp_bind.mpr (wp_liftExcept fun data _ => ?_)
  refine Contract.wp_bind.mpr (Protocol.wp_emit ?_)
  intro stored pendingStored _
  refine Contract.wp_bind.mpr (Protocol.wp_begin ?_)
  intro createdAt begun pendingBegun _
  apply wp_insertDraft
  rw [pendingBegun, pendingStored, quiet]

theorem wp_createBiasSlice {actor : String} {id : Uuid}
    {input : CreateBiasSlice} (quiet : state.pending client = []) :
    wp service setting table runId client request
      (createBiasSlice service.runtime actor id input)
      (fun _ _ _ => True) calls state := by
  unfold createBiasSlice
  split
  · trivial
  · refine Contract.wp_bind.mpr (Protocol.wp_begin ?_)
    intro createdAt begun pendingBegun _
    split
    · refine Contract.wp_bind.mpr (wp_liftExcept fun scoreStr _ => ?_)
      exact wp_insertDraft (pendingBegun.trans quiet)
    · apply wp_insertRow (pendingBegun.trans quiet)
      -- the zero hash is in no chain
      intro member
      simp [inChain, ChainedRow.isChained, biasSliceRow,
        ChainedRow.columns] at member

theorem wp_write {write : WriteRequest}
    (quiet : state.pending client = []) :
    wp service setting table runId client request
      (Routes.write service.runtime write) (fun _ _ _ => True) calls
      state := by
  cases write with
  | event actor id eventRun input => exact wp_appendEvent quiet
  | artifact actor id parts => exact wp_uploadArtifact quiet
  | toolInvocation actor id input => exact wp_createFrom quiet
  | sideEffect actor id input => exact wp_createFrom quiet
  | guardrail actor id input => exact wp_createFrom quiet
  | humanApproval actor input => exact wp_createFrom quiet
  | biasSlice actor id input => exact wp_createBiasSlice quiet

theorem wp_createRun {actor : String} {id : Uuid} {input : CreateRun} :
    wp service setting table runId client request
      (createRun service.runtime actor id input) (fun _ _ _ => True) calls
      state := by
  refine Contract.wp_bind.mpr (wp_liftExcept fun startedAt _ => ?_)
  refine Contract.wp_bind.mpr
    (Protocol.wp_publish ?_ fun _ => trivial)
  intro before _
  refine ⟨⟨_, rfl, trivial⟩, Or.inr ?_⟩
  apply chainOf_concat_of_not_inChain
  rintro chained ⟨⟩

/-! ### Ticks -/

/-- The leaves of a tick were collected from `collected`. -/
def Collected (setting : Setting) (tick : Tick) (collected : List Row)
    (state : Db Client) : Prop :=
  collected <+: state.committed ∧
    setting.late tick collected state.committed

omit [DecidableEq Client] in
/-- What is committed after the scan is late for the tick. -/
theorem Collected.since {tick : Tick} {collected : List Row}
    {later : Db Client}
    (ready : Collected setting tick collected state)
    (isTick : request.tick? = some tick) (scanned : 2 ≤ calls)
    (since :
      Since service setting table runId client request calls state later) :
    Collected setting tick collected later :=
  ⟨ready.1.trans since.grown,
    setting.late_trans _ _ _ _ ready.2
      (since.steady scanned tick isTick)⟩

/-- Whatever the sink, uploading the document leaves the leaves collected. -/
theorem wp_put {sink : AnchorSink} {key : String} {bytes : Bytes}
    {tick : Tick} {collected : List Row}
    {post : String → Nat → Db Client → Prop}
    (ready : Collected setting tick collected state)
    (isTick : request.tick? = some tick) (scanned : 2 ≤ calls)
    (continues :
      ∀ target later after,
        2 ≤ later → Collected setting tick collected after →
          post target later after) :
    wp service setting table runId client request (sink.put key bytes) post
      calls state := by
  cases sink with
  | noop => exact continues _ _ _ scanned ready
  | s3 bucket =>
      refine Contract.wp_bind.mpr (Protocol.wp_emit ?_)
      intro after _ since
      exact continues _ _ _ (by omega) (ready.since isTick scanned since)
  | memory =>
      refine Contract.wp_bind.mpr (Protocol.wp_emit ?_)
      intro after _ since
      exact continues _ _ _ (by omega) (ready.since isTick scanned since)

theorem receipt_eq_ok
    {signing : SigningService} {tick : Tick} {manifest : AnchorManifest}
    {signature : Block 64} {target : String} {anchor : Anchor}
    (made : receipt signing tick manifest signature target = .ok anchor) :
    toTimestamptz manifest.anchoredFrom = some anchor.anchoredFrom ∧
      toTimestamptz manifest.anchoredTo = some anchor.anchoredTo ∧
        anchor.runId = tick.scope.runFilter ∧
          anchor.rootHash = manifest.rootHash.bytes ∧
            anchor.leafCount = manifest.leafCount := by
  rcases bind_eq_ok_iff.mp made with ⟨anchoredFrom, fromBound, rest⟩
  rcases bind_eq_ok_iff.mp rest with ⟨anchoredTo, toBound, rest⟩
  rcases bind_eq_ok_iff.mp rest with ⟨anchoredAt, _, ⟨⟩⟩
  rw [bindTimestamp_eq_ok_iff] at fromBound toBound
  exact ⟨fromBound, toBound, rfl, rfl, rfl⟩

theorem leafDigests_nil_iff {rows : List ChainedRow} {digests : List Digest}
    (digested : leafDigests rows = .ok digests) :
    digests = [] ↔ rows = [] := by
  cases rows with
  | nil =>
      cases digested
      simp
  | cons row rows =>
      simp only [leafDigests] at digested
      split at digested
      · rcases bind_eq_ok_iff.mp digested with ⟨rest, _, ⟨⟩⟩
        simp
      · cases digested

/-- The receipt of a tick that has read `seen`, then `collected`. -/
theorem minted_of_receipt
    {tick : Tick} {seen collected : List Row} {lower upper : Timestamptz}
    {digests : List Digest} {root : Digest} {manifest : AnchorManifest}
    {signature : Block 64} {target : String} {anchor : Anchor}
    (lowerBound :
      toTimestamptz (anchorWindowStart tick.scope seen) = some lower)
    (upperBound : toTimestamptz tick.untilTs = some upper)
    (digested :
      leafDigests (collectRows tick.scope lower upper collected) =
        .ok digests)
    (nonempty : digests ≠ [])
    (computed : rootOf service.runtime digests = .ok root)
    (described :
      manifest.anchoredFrom = anchorWindowStart tick.scope seen ∧
        manifest.anchoredTo = tick.untilTs ∧ manifest.rootHash = root ∧
          manifest.leafCount = Int64.ofNat digests.length)
    (made :
      receipt service.signing tick manifest signature target = .ok anchor) :
    Minted service tick seen collected anchor
      (collectRows tick.scope lower upper collected) := by
  rcases described with ⟨starts, finishes, isRoot, counts⟩
  have bounds := receipt_eq_ok made
  rw [starts, finishes, isRoot, counts] at bounds
  have fromEq : anchor.anchoredFrom = lower := by
    rw [← Option.some.injEq, ← bounds.1, lowerBound]
  have toEq : anchor.anchoredTo = upper := by
    rw [← Option.some.injEq, ← bounds.2.1, upperBound]
  refine ⟨bounds.1, bounds.2.1, ?_, ?_, bounds.2.2.1, ?_⟩
  · rw [fromEq, toEq]
  · exact fun empty => nonempty ((leafDigests_nil_iff digested).mpr empty)
  · exact ⟨digests, root, digested, computed, bounds.2.2.2⟩

/-- An anchor over the collected leaves may be published. -/
theorem wp_mintAnchor
    {sink : AnchorSink} {tick : Tick} {seen collected : List Row}
    {lower upper : Timestamptz} {digests : List Digest}
    (isTick : request.tick? = some tick) (scanned : 2 ≤ calls)
    (grown : seen <+: collected)
    (ready : Collected setting tick collected state)
    (lowerBound :
      toTimestamptz (anchorWindowStart tick.scope seen) = some lower)
    (upperBound : toTimestamptz tick.untilTs = some upper)
    (digested :
      leafDigests (collectRows tick.scope lower upper collected) =
        .ok digests)
    (nonempty : digests ≠ []) :
    wp service setting table runId client request
      (mintAnchor service.runtime service.signing sink tick
        (anchorWindowStart tick.scope seen)
        (collectRows tick.scope lower upper collected, digests))
      (fun _ _ _ => True) calls state := by
  refine Contract.wp_bind.mpr (wp_liftExcept fun root computed => ?_)
  refine Contract.wp_bind.mpr (wp_put ready isTick scanned ?_)
  intro target later after scannedLater readyLater
  refine Contract.wp_bind.mpr (wp_liftExcept fun anchor made => ?_)
  refine Contract.wp_bind.mpr
    (Protocol.wp_publish ?_ fun _ => trivial)
  intro before since
  have readyBefore := readyLater.since isTick scannedLater since
  refine ⟨⟨_, rfl, ?_⟩, Or.inr ?_⟩
  · refine ⟨tick, seen, collected, isTick, grown, readyBefore.1,
      readyBefore.2, ?_⟩
    exact
      minted_of_receipt lowerBound upperBound digested nonempty computed
        ⟨rfl, rfl, rfl, rfl⟩ made
  · apply chainOf_concat_of_not_inChain
    rintro chained ⟨⟩

theorem wp_anchorTick {sink : AnchorSink} {tick : Tick}
    (isTick : request.tick? = some tick)
    (quiet : state.pending client = []) :
    wp service setting table runId client request
      (anchorTick service.runtime service.signing sink tick)
      (fun _ _ _ => True) calls state := by
  refine Contract.wp_bind.mpr (Protocol.wp_select ?_)
  intro seen pendingSeen _
  rw [pendingSeen, quiet, List.append_nil]
  dsimp only
  split
  · trivial
  · refine Contract.wp_bind.mpr (Contract.wp_bind.mpr
      (wp_liftExcept fun lower lowerBound => ?_))
    refine Contract.wp_bind.mpr (wp_liftExcept fun upper upperBound => ?_)
    refine Contract.wp_bind.mpr (Protocol.wp_select ?_)
    intro read pendingRead sinceSeen
    rw [pendingRead, pendingSeen, quiet, List.append_nil]
    refine Contract.wp_bind.mpr (wp_liftExcept fun digests digested => ?_)
    rw [bindTimestamp_eq_ok_iff] at lowerBound upperBound
    simp only [Program.pure_eq, Contract.wp_done]
    split
    · trivial
    · rename_i nonempty
      apply Contract.wp_bind.mpr
      apply Contract.wp_weaken fun _ _ _ _ => trivial
      apply wp_mintAnchor isTick (by omega) sinceSeen.grown
        ⟨List.prefix_rfl, setting.late_refl _ _⟩ lowerBound upperBound
        digested
      simpa using nonempty

/-- Every request keeps the protocol in isolation. -/
theorem wp_serve (quiet : state.pending client = []) :
    wp service setting table runId client request (serve service request)
      (fun _ _ _ => True) 0 state := by
  cases request with
  | createRun actor id input =>
      apply Contract.wp_bind.mpr
      exact Contract.wp_weaken (fun _ _ _ _ => trivial) wp_createRun
  | write write =>
      apply Contract.wp_bind.mpr
      exact Contract.wp_weaken (fun _ _ _ _ => trivial) (wp_write quiet)
  | trigger global scopeRun untilTs now id anchoredAt =>
      refine Contract.wp_bind.mpr (Contract.wp_bind.mpr
        (wp_liftExcept fun scope resolved => ?_))
      apply Contract.wp_weaken fun _ _ _ _ => trivial
      apply wp_anchorTick _ quiet
      simp [Request.tick?, resolved]
  | loopTick now id anchoredAt =>
      apply Contract.wp_bind.mpr
      exact Contract.wp_weaken (fun _ _ _ _ => trivial)
        (wp_anchorTick rfl quiet)

end Verified

/-! ## What is committed -/

/-- The committed rows of a disciplined run grow by admissible batches. -/
theorem history
    {Client : Type} [DecidableEq Client] {service : Service}
    (setting : Setting) (table : ChainTable) (runId : Uuid)
    {world : LedgerWorld Client}
    (reached :
      Reachable (ledger service setting.base)
        ((protocol service setting table runId).discipline.permits
          (db Client)) world) :
    History setting.base (protocol service setting table runId).admits
      world.shared.committed :=
  (protocol service setting table runId).history
    (fun _ _ _ quiet => wp_serve quiet) reached

/-- The committed rows of any run grow by admissible batches. -/
theorem history_free
    {Client : Type} [DecidableEq Client] {service : Service}
    {base : List Row → Prop} (table : ChainTable) (runId : Uuid)
    {world : LedgerWorld Client}
    (reached : Reachable (ledger service base) unrestricted world) :
    History base
      (protocol service (Setting.free base) table runId).admits
      world.shared.committed := by
  apply history (Setting.free base)
  apply reached.weaken
  intro state move _
  exact Protocol.discipline_permits _ (fun _ _ => trivial)
    (fun _ _ _ _ _ _ _ => trivial) _ _ _

/-! ## A ledger to run -/

/-- A ledger that ships its anchors nowhere. -/
def plainService : Service where
  runtime := .plain
  signing :=
    { sign := fun _ => .replicate 64 0
      keyId := "key"
      publicKeyHex := "00" }
  sink := .noop

/-- A database at rest with these rows. -/
def resting (rows : List Row) : LedgerWorld Nat where
  shared :=
    { committed := rows
      pending := fun _ => []
      holder := fun _ => none
      clock := 0
      emitted := [] }
  sessions := fun _ => none

theorem initial_resting {service : Service} {base : List Row → Prop}
    {rows : List Row} (isBase : base rows) :
    (ledger service base).initial (resting rows) :=
  ⟨⟨isBase, fun _ => rfl, fun _ => rfl⟩, fun _ => rfl⟩

/-- The run 7. -/
def runSeven : Row :=
  .run
    { id := 7
      agent := "agent"
      startedAt := .zero
      metadata := Json.null
      actorId := "test" }

/-- A request to append an event with this id to the run 7. -/
def append (id : Uuid) : Request :=
  .write
    (.event "test" id 7
      { kind := "note"
        body := Json.null
        occurredAt := DateTime.epoch })

/-- The answers of the database to the calls of a client, from a moment on. -/
def answers (client : Nat) (now : Int) (count : Nat) :
    List (Move Nat Request (Choice Fault)) :=
  List.replicate count (.answer client (.succeed now))

end Trackward.Ledger.Concurrency
