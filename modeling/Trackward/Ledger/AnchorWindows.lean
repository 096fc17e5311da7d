import Trackward.Ledger.Concurrency
import Trackward.Lib.Progress
import Trackward.Lib.Windows

/-!
# Windows of anchors

A tick reads where its window starts and inserts its receipt later, and it
collects its leaves in between.  Every window of a scope therefore starts at
the latest end of some earlier moment.

Two consequences are drawn.  Windows of a scope are disjoint exactly if every
receipt is inserted while its start is still the latest end.  And if every
chained row commits with a `created_at` past all windows that are inserted or
already collected, no row escapes the anchors.
-/

namespace Trackward.Ledger.AnchorWindows

open Trackward.ChainCore.Chrono
open Trackward.ChainCore.Encode
open Trackward.ChainCore.JsonValue
open Trackward.Ledger.Anchoring
open Trackward.Ledger.Chain
open Trackward.Ledger.Concurrency
open Trackward.Ledger.Models
open Trackward.Ledger.Timestamps
open Trackward.Lib.Growth
open Trackward.Lib.KeyedLists
open Trackward.Lib.Programs
open Trackward.Lib.Runs
open Trackward.Lib.Sessions
open Trackward.Lib.Transactions
open Trackward.Lib.Windows

/-! ## Windows of a scope -/

/-- The start of 1970 on the clock of the database. -/
def epochMicros : Int :=
  -postgresEpoch * 10 ^ 6

/-- The window of an anchor. -/
def windowOf (anchor : Anchor) : Window Int :=
  ⟨anchor.anchoredFrom.micros, anchor.anchoredTo.micros⟩

/-- The windows of a scope, in the order of their receipts. -/
def windowsOf (scope : AnchorScope) (rows : List Row) : List (Window Int) :=
  (anchorsOf scope rows).map fun anchor => windowOf anchor.1

/-- The receipts of a scope change only when one of the scope is inserted. -/
theorem anchorsOf_append (scope : AnchorScope) (rows rows' : List Row) :
    anchorsOf scope (rows ++ rows') =
      anchorsOf scope rows ++ anchorsOf scope rows' := by
  simp [anchorsOf]

theorem anchorsOf_chained (scope : AnchorScope) (row : ChainedRow) :
    anchorsOf scope [.chained row] = [] := rfl

theorem anchorsOf_run (scope : AnchorScope) (row : Run) :
    anchorsOf scope [.run row] = [] := rfl

theorem anchorsOf_anchor_of_eq
    {scope : AnchorScope} {anchor : Anchor} {leaves : List ChainedRow}
    (same : anchor.runId = scope.runFilter) :
    anchorsOf scope [.anchor anchor leaves] = [(anchor, leaves)] := by
  simp [anchorsOf, Row.anchor?, same]

theorem anchorsOf_anchor_of_ne
    {scope : AnchorScope} {anchor : Anchor} {leaves : List ChainedRow}
    (different : anchor.runId ≠ scope.runFilter) :
    anchorsOf scope [.anchor anchor leaves] = [] := by
  simp [anchorsOf, Row.anchor?, different]

theorem anchorsOf_grown (scope : AnchorScope) {rows rows' : List Row}
    (grown : rows <+: rows') :
    anchorsOf scope rows <+: anchorsOf scope rows' := by
  rcases grown with ⟨rest, rfl⟩
  rw [anchorsOf_append]
  exact List.prefix_append _ _

theorem windowsOf_prefix (scope : AnchorScope) {rows rows' : List Row}
    (grown : rows <+: rows') :
    windowsOf scope rows <+: windowsOf scope rows' :=
  (anchorsOf_grown scope grown).map _

theorem runFilter_injective : Function.Injective AnchorScope.runFilter := by
  intro first second same
  cases first <;> cases second <;> cases same <;> rfl

/-! ## Where windows start -/

/-- The window start that is read is the latest end of the scope. -/
theorem micros_of_anchorWindowStart
    {scope : AnchorScope} {rows : List Row} {start : Timestamptz}
    (later :
      ∀ window ∈ windowsOf scope rows, epochMicros ≤ window.finish)
    (bound : toTimestamptz (anchorWindowStart scope rows) = some start) :
    start.micros = latest epochMicros (windowsOf scope rows) := by
  have ends :
      ∀ stored : Timestamptz,
        stored ∈ (anchorsOf scope rows).map (fun anchor =>
            anchor.1.anchoredTo) ↔
          ∃ anchor ∈ anchorsOf scope rows,
            anchor.1.anchoredTo = stored := by
    intro stored
    exact List.mem_map
  unfold anchorWindowStart at bound
  cases read : lastAnchoredTo scope rows with
  | none =>
      rw [read, toTimestamptz_eq_some_iff] at bound
      have empty : anchorsOf scope rows = [] := by
        simpa [lastAnchoredTo] using read
      rw [bound, windowsOf, empty]
      decide
  | some last =>
      rw [read] at bound
      dsimp only at bound
      rw [toTimestamptz_toDateTime, Option.some.injEq] at bound
      subst bound
      rcases (ends last).mp (List.argmax_mem read) with
        ⟨anchor, member, rfl⟩
      have window : windowOf anchor.1 ∈ windowsOf scope rows :=
        List.mem_map_of_mem member
      apply le_antisymm
      · exact finish_le_latest epochMicros window
      · rw [latest_le_iff]
        refine ⟨later _ window, ?_⟩
        intro other present
        rcases List.mem_map.mp present with ⟨other, listed, rfl⟩
        exact
          List.le_of_mem_argmax
            ((ends other.1.anchoredTo).mpr ⟨other, listed, rfl⟩) read

/-- The ends of windows with stale starts are not before the origin. -/
theorem origin_le_finish_of_stale
    {windows : List (Window Int)} (stale : Stale epochMicros windows) :
    ∀ window ∈ windows, epochMicros ≤ window.finish := by
  intro window member
  rcases Grows.of_mem stale member with
    ⟨before, _, nonempty, seen, _, starts⟩
  have early := origin_le_latest epochMicros seen
  omega

/-- A leaf of an anchor lies in its window. -/
theorem createdAt_mem_points
    {service : Service} {tick : Tick} {seen collected : List Row}
    {anchor : Anchor} {leaves : List ChainedRow}
    (minted : Minted service tick seen collected anchor leaves) :
    ∀ row ∈ leaves, row.columns.createdAt ∈ (windowOf anchor).points := by
  intro row member
  rw [minted.leaves_eq, collectRows, mem_sortByKey, List.mem_filter]
    at member
  simp only [Bool.and_eq_true, decide_eq_true_eq] at member
  exact ⟨member.2.1.1.1, member.2.1.1.2⟩

theorem start_lt_finish
    {service : Service} {tick : Tick} {seen collected : List Row}
    {anchor : Anchor} {leaves : List ChainedRow}
    (minted : Minted service tick seen collected anchor leaves) :
    (windowOf anchor).start < (windowOf anchor).finish := by
  rcases List.exists_mem_of_ne_nil _ minted.nonempty with ⟨row, member⟩
  have inside := createdAt_mem_points minted row member
  exact inside.1.trans_le inside.2

section Histories

variable {service : Service} {setting : Setting} {table : ChainTable}
variable {runId : Uuid} {scope : AnchorScope} {rows : List Row}

/-- The committed rows of the ledger. -/
abbrev Committed (service : Service) (setting : Setting)
    (table : ChainTable) (runId : Uuid) (rows : List Row) : Prop :=
  History setting.base (protocol service setting table runId).admits rows

/-- What a committed batch does to the receipts of a scope. -/
theorem anchorsOf_admitted
    (scope : AnchorScope) {past batch : List Row}
    (admitted :
      (protocol service setting table runId).admits past batch) :
    anchorsOf scope (past ++ batch) = anchorsOf scope past ∨
      ∃ tick seen collected anchor leaves,
        batch = [.anchor anchor leaves] ∧ tick.scope = scope ∧
          seen <+: collected ∧ collected <+: past ∧
            setting.late tick collected past ∧
              Minted service tick seen collected anchor leaves ∧
                anchorsOf scope (past ++ batch) =
                  anchorsOf scope past ++ [(anchor, leaves)] := by
  rcases admitted with ⟨⟨request, row, rfl, admissible⟩, _⟩
  rw [anchorsOf_append]
  cases row with
  | run row => exact Or.inl (by simp [anchorsOf_run])
  | chained row => exact Or.inl (by simp [anchorsOf_chained])
  | anchor anchor leaves =>
      by_cases same : anchor.runId = scope.runFilter
      · rcases admissible with
          ⟨tick, seen, collected, _, grown, past, late, minted⟩
        have scopeEq : tick.scope = scope :=
          runFilter_injective (minted.scope_eq.symm.trans same)
        exact Or.inr ⟨tick, seen, collected, anchor, leaves, rfl, scopeEq,
          grown, past, late, minted, by rw [anchorsOf_anchor_of_eq same]⟩
      · rw [anchorsOf_anchor_of_ne same, List.append_nil]
        exact Or.inl rfl

/-- Every window starts at the latest end of some earlier moment. -/
theorem stale_windowsOf
    (setting : Setting)
    (fresh : ∀ rows, setting.base rows → anchorsOf scope rows = [])
    (committed : Committed service setting table runId rows) :
    Stale epochMicros (windowsOf scope rows) := by
  induction committed with
  | base isBase =>
      rw [windowsOf, fresh _ isBase]
      exact grows_nil
  | append _ admitted induction =>
      rename_i past batch _
      have appended := anchorsOf_admitted scope admitted
      rcases appended with unchanged | minted
      · rw [windowsOf, unchanged]
        exact induction
      · rcases minted with ⟨tick, seen, collected, anchor, leaves, _,
          scopeEq, grown, past', _, minted, receipts⟩
        have earlier := windowsOf_prefix scope (grown.trans past')
        rw [windowsOf, receipts, List.map_append]
        refine grows_concat_iff.mpr ⟨induction, start_lt_finish minted,
          windowsOf scope seen, earlier, ?_⟩
        rw [← scopeEq] at earlier ⊢
        apply micros_of_anchorWindowStart _ minted.from_eq
        intro window member
        rw [scopeEq] at earlier member
        exact origin_le_finish_of_stale induction window
          (earlier.subset member)

/-- Leaves of receipts of a scope lie in their windows. -/
theorem leaves_mem_window
    (setting : Setting)
    (fresh : ∀ rows, setting.base rows → anchorsOf scope rows = [])
    (committed : Committed service setting table runId rows) :
    ∀ anchor ∈ anchorsOf scope rows, ∀ row ∈ anchor.2,
      row.columns.createdAt ∈ (windowOf anchor.1).points := by
  induction committed with
  | base isBase =>
      rw [fresh _ isBase]
      intro anchor absurdity
      cases absurdity
  | append _ admitted induction =>
      have appended := anchorsOf_admitted scope admitted
      rcases appended with unchanged | minted
      · rw [unchanged]
        exact induction
      · rcases minted with ⟨tick, seen, collected, anchor, leaves, _, _, _,
          _, _, minted, receipts⟩
        rw [receipts]
        intro other member
        rcases List.mem_append.mp member with old | new
        · exact induction other old
        · cases List.mem_singleton.mp new
          exact createdAt_mem_points minted

end Histories

/-! ## Overlapping windows -/

/--
The windows of a scope are disjoint, and no row is a leaf of two anchors of
the scope.
-/
structure NoOverlap (scope : AnchorScope) (rows : List Row) : Prop where
  windows : Apart (windowsOf scope rows)
  leaves :
    (anchorsOf scope rows).Pairwise fun first second =>
      ∀ row ∈ first.2, row ∉ second.2

/-- Leaves lie in windows, so disjoint windows share no leaf. -/
theorem noOverlap_iff_apart {scope : AnchorScope} {rows : List Row}
    (inside :
      ∀ anchor ∈ anchorsOf scope rows, ∀ row ∈ anchor.2,
        row.columns.createdAt ∈ (windowOf anchor.1).points) :
    NoOverlap scope rows ↔ Apart (windowsOf scope rows) := by
  refine ⟨NoOverlap.windows, fun apart => ⟨apart, ?_⟩⟩
  rw [windowsOf, Apart, List.pairwise_map] at apart
  refine List.Pairwise.imp_of_mem ?_ apart
  intro first second member member' disjoint row leaf leaf'
  exact Set.disjoint_left.mp disjoint (inside first member row leaf)
    (inside second member' row leaf')

/--
In every state the ledger reaches, the windows of a scope are disjoint exactly
if every receipt was inserted while its `anchored_from` was still the latest
`anchored_to` of the scope.
-/
theorem noOverlap_iff_inserted_at_latest
    {Client : Type} [DecidableEq Client] (service : Service)
    (scope : AnchorScope) {world : LedgerWorld Client}
    (reached :
      Reachable (ledger service fun rows => anchorsOf scope rows = [])
        unrestricted world) :
    NoOverlap scope world.shared.committed ↔
      Grows
        (fun before window => window.start = latest epochMicros before)
        (windowsOf scope world.shared.committed) := by
  have committed := history_free .events 0 reached
  have stale : Stale epochMicros (windowsOf scope _) :=
    stale_windowsOf (.free _) (fun _ empty => empty) committed
  have inside :=
    leaves_mem_window (.free _) (fun _ empty => empty) committed
  rw [noOverlap_iff_apart inside]
  exact apart_iff_contiguous stale

/-- An event of run 7 that was chained at a moment. -/
def noted (id : Uuid) (createdAt : Int) : Row :=
  .chained
    (.event
      { id := id
        prevHash := none
        rowHash := List.replicate 32 (UInt8.ofNat id.toNat)
        createdAt := createdAt
        runId := 7
        seq := 1
        kind := "note"
        body := Json.null
        occurredAt := .zero
        actorId := "test" })

/-- The second after the start of 2000 with this number. -/
def second (count : Nat) (early : count < 60) : DateTime where
  seconds := postgresEpoch + count
  nanos := 0
  nanos_lt := DateTime.epoch.nanos_lt
  leap := by omega
  low := by
    simp only [postgresEpoch]
    omega
  high := by
    simp only [postgresEpoch]
    omega

/-- A request to anchor the whole ledger up to a moment. -/
def anchorUntil (id : Uuid) (untilTs : DateTime) : Request :=
  .trigger true none (some untilTs) untilTs id untilTs

/-- The windows of the global scope. -/
def globalWindows (windows : List (Window Int)) (world : LedgerWorld Nat) :
    Bool :=
  windowsOf .global world.shared.committed = windows

/-- Two ticks of the global scope that both read before either inserts. -/
def ticksInParallel : List (Move Nat Request (Choice Fault)) :=
  .arrive 1 (anchorUntil 1 (second 5 (by decide))) :: answers 1 0 2 ++
    .arrive 2 (anchorUntil 2 (second 5 (by decide))) :: answers 2 0 3 ++
      answers 1 0 1

/-- Ticks that run at once may anchor the same rows twice. -/
theorem not_noOverlap_of_ticksInParallel :
    ¬ ∀ (service : Service) (scope : AnchorScope) (world : LedgerWorld Nat),
      Reachable (ledger service fun rows => anchorsOf scope rows = [])
          unrestricted world →
        NoOverlap scope world.shared.committed := by
  intro always
  have starts :
      (ledger plainService fun rows => anchorsOf .global rows = []).initial
        (resting [runSeven, noted 1 4000000]) :=
    initial_resting rfl
  rcases
      Reachable.exists_of_replay unrestricted_of_anyMove starts
        ticksInParallel
        (globalWindows [⟨epochMicros, 5000000⟩, ⟨epochMicros, 5000000⟩])
        (by decide +kernel) with
    ⟨world, reached, windows⟩
  simp only [globalWindows, decide_eq_true_eq] at windows
  have apart := (always plainService .global world reached).windows
  rw [windows, Apart, List.pairwise_pair, Window.points,
    Set.Ioc_disjoint_Ioc] at apart
  exact absurd apart (by decide)

/-! ## Rows that escape -/

/-- A chained row of the scope from after the epoch. -/
def Anchorable (scope : AnchorScope) (row : ChainedRow) : Prop :=
  row.isChained = true ∧ scope.covers row = true ∧
    epochMicros < row.columns.createdAt

/--
Every chained row of the scope whose `created_at` is not past the latest
`anchored_to` of the scope is a leaf of one of its anchors.
-/
def NoEscape (scope : AnchorScope) (rows : List Row) : Prop :=
  ∀ row, .chained row ∈ rows → Anchorable scope row →
    ∀ anchor ∈ anchorsOf scope rows,
      row.columns.createdAt ≤ anchor.1.anchoredTo.micros →
        ∃ covering ∈ anchorsOf scope rows, row ∈ covering.2

/-- The chained rows of the scope that are in `after` but not in `before`. -/
def NewRow (scope : AnchorScope) (before after : List Row)
    (row : ChainedRow) : Prop :=
  .chained row ∈ after ∧ .chained row ∉ before ∧ Anchorable scope row

/--
The runs in which a chained row of the scope commits only with a `created_at`
past every `anchored_to` of the scope, and past the `until` of every tick of the
scope that has collected its leaves and is still running.
-/
def punctual {Client : Type} (scope : AnchorScope) :
    Discipline Request (Db Client) where
  alone := fun before after =>
    ∀ row, NewRow scope before.committed after.committed row →
      ∀ window ∈ windowsOf scope before.committed,
        window.finish < row.columns.createdAt
  beside := fun request calls before after =>
    2 ≤ calls → ∀ tick, request.tick? = some tick → tick.scope = scope →
      ∀ row, NewRow scope before.committed after.committed row →
        ∀ upper, toTimestamptz tick.untilTs = some upper →
          upper.micros < row.columns.createdAt

/-- The punctual runs of a scope, as a setting of the protocol. -/
def punctualSetting (scope : AnchorScope) : Setting where
  base := fun rows => anchorsOf scope rows = []
  alone := fun past batch =>
    ∀ row, NewRow scope past (past ++ batch) row →
      ∀ window ∈ windowsOf scope past,
        window.finish < row.columns.createdAt
  late := fun tick first second =>
    tick.scope = scope → ∀ row, NewRow scope first second row →
      ∀ upper, toTimestamptz tick.untilTs = some upper →
        upper.micros < row.columns.createdAt
  late_refl := by
    rintro tick rows _ row ⟨present, absent, _⟩
    exact absurd present absent
  late_trans := by
    rintro tick first second third one two scopeEq row
      ⟨present, absent, anchorable⟩
    by_cases between : .chained row ∈ second
    · exact one scopeEq row ⟨between, absent, anchorable⟩
    · exact two scopeEq row ⟨present, between, anchorable⟩

/-- A row of the window that the scan of its leaves saw is a leaf. -/
theorem mem_leaves
    {service : Service} {tick : Tick} {seen collected : List Row}
    {anchor : Anchor} {leaves : List ChainedRow}
    (minted : Minted service tick seen collected anchor leaves)
    {row : ChainedRow} (present : .chained row ∈ collected)
    (anchorable : Anchorable tick.scope row)
    (inside : row.columns.createdAt ∈ (windowOf anchor).points) :
    row ∈ leaves := by
  rw [minted.leaves_eq, collectRows, mem_sortByKey, List.mem_filter]
  refine ⟨List.mem_filterMap.mpr ⟨_, present, rfl⟩, ?_⟩
  simp only [Bool.and_eq_true, decide_eq_true_eq]
  exact ⟨⟨⟨inside.1, inside.2⟩, anchorable.1⟩, anchorable.2.1⟩

/-- No row escapes as long as rows and receipts commit punctually. -/
theorem noEscape_of_committed
    {service : Service} {table : ChainTable} {runId : Uuid}
    {scope : AnchorScope} {rows : List Row}
    (committed :
      Committed service (punctualSetting scope) table runId rows) :
    NoEscape scope rows := by
  induction committed with
  | base isBase =>
      intro row _ _ anchor member
      rw [show anchorsOf scope _ = [] from isBase] at member
      cases member
  | append committed admitted induction =>
      rename_i past batch
      have stale : Stale epochMicros (windowsOf scope past) :=
        stale_windowsOf (punctualSetting scope) (fun _ empty => empty)
          committed
      have appended := anchorsOf_admitted scope admitted
      intro row present anchorable anchor member early
      rcases appended with unchanged | minted
      · rw [unchanged] at member ⊢
        by_cases old : .chained row ∈ past
        · exact induction row old anchorable anchor member early
        · have beyond :=
            admitted.2 row ⟨present, old, anchorable⟩ (windowOf anchor.1)
              (List.mem_map_of_mem member)
          exact absurd early (not_le_of_gt beyond)
      · rcases minted with ⟨tick, seen, collected, minted, leaves, rfl,
          rfl, grown, past', late, facts, receipts⟩
        have old : .chained row ∈ past := by
          simpa using present
        rw [receipts] at member ⊢
        rcases le_or_gt row.columns.createdAt
            (latest epochMicros (windowsOf tick.scope past)) with
          reached | beyond
        · -- an earlier window reaches the row
          rcases exists_le_finish anchorable.2.2 reached with
            ⟨window, listed, reaches⟩
          rcases List.mem_map.mp listed with ⟨earlier, known, rfl⟩
          rcases induction row old anchorable earlier known reaches with
            ⟨covering, covers, leaf⟩
          exact ⟨covering, List.mem_append_left _ covers, leaf⟩
        · -- only the new window does, and its scan saw the row
          have newest : anchor = (minted, leaves) := by
            rcases List.mem_append.mp member with known | new
            · have reaches :=
                finish_le_latest epochMicros
                  (List.mem_map_of_mem known :
                    windowOf anchor.1 ∈ windowsOf tick.scope past)
              exact absurd (early.trans reaches) (not_le_of_gt beyond)
            · exact List.mem_singleton.mp new
          subst newest
          have earlier := windowsOf_prefix tick.scope (grown.trans past')
          have starts :
              minted.anchoredFrom.micros =
                latest epochMicros (windowsOf tick.scope seen) :=
            micros_of_anchorWindowStart
              (fun window listed =>
                origin_le_finish_of_stale stale window
                  (earlier.subset listed))
              facts.from_eq
          have after : minted.anchoredFrom.micros < row.columns.createdAt := by
            rw [starts]
            exact (latest_mono epochMicros earlier).trans_lt beyond
          have scanned : .chained row ∈ collected := by
            by_contra missed
            have tooLate :=
              late rfl row ⟨old, missed, anchorable⟩ _ facts.to_eq
            exact absurd early (not_le_of_gt tooLate)
          exact ⟨(minted, leaves), by simp,
            mem_leaves facts scanned anchorable ⟨after, early⟩⟩

/--
In every punctual run of the ledger, no row escapes the anchors of the scope in
any state that is reached.
-/
theorem noEscape_of_punctual
    {Client : Type} [DecidableEq Client] (service : Service)
    (scope : AnchorScope) {world : LedgerWorld Client}
    (reached :
      Reachable (ledger service fun rows => anchorsOf scope rows = [])
        ((punctual scope).permits (db Client)) world) :
    NoEscape scope world.shared.committed := by
  have committed :
      Committed service (punctualSetting scope) .events 0
        world.shared.committed := by
    apply history (punctualSetting scope)
    apply reached.weaken
    intro state move permitted
    cases move with
    | arrive client request => trivial
    | depart client => trivial
    | answer client choice =>
        intro session session' shared' present advanced
        rcases permitted session session' shared' present advanced with
          ⟨alone, beside⟩
        constructor
        · intro batch _ same row new
          rw [← same] at new
          exact alone row new
        · intro other otherSession different otherPresent running
          exact
            beside other otherSession different otherPresent running
  exact noEscape_of_committed committed

/-- Two clients, of whom one is served, and new rows are past all windows. -/
def inTurn (scope : AnchorScope) (world : LedgerWorld Bool) :
    Move Bool Request (Choice Fault) → Bool
  | .answer client choice =>
      (world.sessions (!client)).all
          (fun session => session.program.ended.isSome) &&
        (world.step (db Bool) (serve plainService)
          (.answer client choice)).all fun target =>
            ((chainedRows target.shared.committed).drop
              (chainedRows world.shared.committed).length).all fun row =>
                (windowsOf scope world.shared.committed).all fun window =>
                  window.finish < row.columns.createdAt
  | _ => true

/-- Such a move is punctual. -/
theorem permits_of_inTurn
    (scope : AnchorScope) (world : LedgerWorld Bool)
    (move : Move Bool Request (Choice Fault))
    (turn : inTurn scope world move = true) :
    (punctual scope).permits (db Bool) world move := by
  cases move with
  | arrive client request => trivial
  | depart client => trivial
  | answer client choice =>
      intro session session' shared' present advanced
      rcases Session.advance_cases advanced with ⟨_, _, _, _, responded, _⟩
      rcases committed_grows responded with ⟨rest, grown⟩
      simp only [inTurn, World.step, present, advanced, ← grown, chainedRows,
        List.filterMap_append, List.drop_left, Option.all_some,
        Bool.and_eq_true, List.all_eq_true, decide_eq_true_eq] at turn
      constructor
      · rintro row ⟨isNew, isOld, _⟩
        rw [← grown] at isNew
        rcases List.mem_append.mp isNew with old | new
        · exact absurd old isOld
        · exact turn.2 row (List.mem_filterMap.mpr ⟨_, new, rfl⟩)
      · intro other otherSession different otherPresent running
        have isOther : other = !client := Bool.eq_not.mpr different
        rcases running with ⟨op, next, waiting⟩
        simp [← isOther, otherPresent, waiting, Program.ended] at turn

/-- One row, and two clients who are to come. -/
def restingPair : LedgerWorld Bool where
  shared :=
    { committed := [runSeven, noted 1 4000000]
      pending := fun _ => []
      holder := fun _ => none
      clock := 0
      emitted := [] }
  sessions := fun _ => none

/-- Two ticks, and between them a writer that commits after the first one. -/
def writerBetweenTicks : List (Move Bool Request (Choice Fault)) :=
  .arrive false (anchorUntil 3 (second 5 (by decide))) ::
      List.replicate 3 (.answer false (.succeed 0)) ++
    .arrive true (append 2) ::
      List.replicate 8 (.answer true (.succeed 6000000)) ++
    .depart false :: .arrive false (anchorUntil 4 (second 9 (by decide))) ::
      List.replicate 3 (.answer false (.succeed 0))

/-- The row of a writer that commits after a tick is a leaf of the next one. -/
theorem noEscape_of_writerBetweenTicks :
    ∃ world : LedgerWorld Bool,
      Reachable
          (ledger plainService fun rows => anchorsOf .global rows = [])
          ((punctual .global).permits (db Bool)) world ∧
        (anchorsOf .global world.shared.committed).map
            (fun anchor => anchor.2.map fun row => row.columns.id) =
          [[1], [2]] ∧
          NoEscape .global world.shared.committed := by
  have starts :
      (ledger plainService fun rows => anchorsOf .global rows = []).initial
        restingPair :=
    ⟨⟨rfl, fun _ => rfl, fun _ => rfl⟩, fun _ => rfl⟩
  rcases
      Reachable.exists_of_replay (permits_of_inTurn .global) starts
        writerBetweenTicks
        (fun world =>
          (anchorsOf .global world.shared.committed).map
              (fun anchor => anchor.2.map fun row => row.columns.id) =
            [[1], [2]])
        (by decide +kernel) with
    ⟨world, reached, leaves⟩
  exact ⟨world, reached, of_decide_eq_true leaves,
    noEscape_of_punctual plainService .global reached⟩

/-- Some chained row before the end of a window has no leaf with its id. -/
def escapes (scope : AnchorScope) (rows : List Row) : Bool :=
  (chainedRows rows).any fun row =>
    row.isChained && scope.covers row &&
      epochMicros < row.columns.createdAt &&
        (anchorsOf scope rows).any (fun anchor =>
          row.columns.createdAt ≤ anchor.1.anchoredTo.micros) &&
          (anchorsOf scope rows).all fun anchor =>
            anchor.2.all fun leaf => leaf.columns.id ≠ row.columns.id

theorem not_noEscape_of_escapes {scope : AnchorScope} {rows : List Row}
    (escaped : escapes scope rows = true) : ¬ NoEscape scope rows := by
  intro never
  simp only [escapes, List.any_eq_true, List.all_eq_true, Bool.and_eq_true,
    decide_eq_true_eq, chainedRows, List.mem_filterMap] at escaped
  rcases escaped with
    ⟨row, ⟨stored, present, isRow⟩, ⟨⟨facts, after⟩, anchor, member, early⟩,
      missing⟩
  have kept : stored = .chained row := by
    cases stored <;> cases isRow
    rfl
  rw [kept] at present
  rcases never row present ⟨facts.1, facts.2, after⟩ anchor member early with
    ⟨covering, covers, leaf⟩
  exact missing covering covers row leaf rfl

/-- A writer that begins before a tick and commits after it. -/
def slowWriter : List (Move Nat Request (Choice Fault)) :=
  .arrive 1 (append 2) :: answers 1 4000001 1 ++
    .arrive 2 (anchorUntil 3 (second 5 (by decide))) :: answers 2 0 3 ++
      answers 1 0 7

/-- The row of a slow writer is in no anchor. -/
theorem not_noEscape_of_slowWriter :
    ¬ ∀ (service : Service) (scope : AnchorScope) (world : LedgerWorld Nat),
      Reachable (ledger service fun rows => anchorsOf scope rows = [])
          unrestricted world →
        NoEscape scope world.shared.committed := by
  intro always
  have starts :
      (ledger plainService fun rows => anchorsOf .global rows = []).initial
        (resting [runSeven, noted 1 4000000]) :=
    initial_resting rfl
  rcases
      Reachable.exists_of_replay unrestricted_of_anyMove starts slowWriter
        (fun world => escapes .global world.shared.committed)
        (by decide +kernel) with
    ⟨world, reached, escaped⟩
  exact not_noEscape_of_escapes escaped
    (always plainService .global world reached)

end Trackward.Ledger.AnchorWindows
