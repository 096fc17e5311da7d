import Trackward.Ledger.AnchorWindows
import Trackward.Lib.Admission
import Mathlib.Data.List.Pairwise

/-!
# What the anchors of a scope cover

The receipts of a scope are minted one at a time, each over its own window.  An
auditor may also scan the tables once, from the epoch to the last `anchored_to`
of the scope.

When the windows do not overlap, the leaves of the receipts, one receipt after
the other, are the rows of that scan exactly if no row escapes.
-/

namespace Trackward.Ledger.AnchorCover

open Trackward.ChainCore.Encode
open Trackward.Ledger.Anchoring
open Trackward.Ledger.AnchorWindows
open Trackward.Ledger.Chain
open Trackward.Ledger.Concurrency
open Trackward.Ledger.Models
open Trackward.Ledger.Timestamps
open Trackward.Lib.Admission
open Trackward.Lib.Growth
open Trackward.Lib.KeyedLists
open Trackward.Lib.Runs
open Trackward.Lib.Sessions
open Trackward.Lib.Transactions
open Trackward.Lib.Windows

/-! ## Scans -/

/-- The start of 1970, where the first window of a scope starts. -/
def epoch : Timestamptz :=
  ⟨epochMicros, by decide, by decide⟩

/-- The leaves of the anchors of a scope, in the order of their receipts. -/
def anchoredLeaves (scope : AnchorScope) (rows : List Row) :
    List ChainedRow :=
  (anchorsOf scope rows).flatMap Prod.snd

/-- The rows of a scope from the epoch to its last `anchored_to`. -/
def rescan (scope : AnchorScope) (rows : List Row) : List ChainedRow :=
  match lastAnchoredTo scope rows with
  | some last => collectRows scope epoch last rows
  | none => []

/-- The chained rows of a scope after a moment and up to another one. -/
def between (scope : AnchorScope) (rows : List Row) (lower upper : Int) :
    List ChainedRow :=
  sortByKey stamp
    ((chainedRows rows).filter fun row =>
      lower < row.columns.createdAt && row.columns.createdAt ≤ upper &&
        row.isChained && scope.covers row)

section Scans

variable {scope : AnchorScope} {rows : List Row}

theorem collectRows_eq_between (lower upper : Timestamptz) :
    collectRows scope lower upper rows =
      between scope rows lower.micros upper.micros := rfl

theorem mem_chainedRows {row : ChainedRow} :
    row ∈ chainedRows rows ↔ .chained row ∈ rows := by
  rw [chainedRows, List.mem_filterMap]
  constructor
  · rintro ⟨stored, member, isRow⟩
    cases stored <;> cases isRow
    exact member
  · intro member
    exact ⟨.chained row, member, rfl⟩

theorem mem_between {lower upper : Int} {row : ChainedRow} :
    row ∈ between scope rows lower upper ↔
      .chained row ∈ rows ∧
        (lower < row.columns.createdAt ∧ row.columns.createdAt ≤ upper) ∧
          row.isChained = true ∧ scope.covers row = true := by
  simp only [between, mem_sortByKey, List.mem_filter, Bool.and_eq_true,
    decide_eq_true_eq, and_assoc, mem_chainedRows]

theorem between_self (point : Int) : between scope rows point point = [] := by
  rw [List.eq_nil_iff_forall_not_mem]
  intro row member
  have inside := (mem_between.mp member).2.1
  exact absurd inside.1 (not_lt_of_ge inside.2)

/-- A scan may be interrupted at any moment between its ends. -/
theorem between_append (first second third : Int) (early : first ≤ second)
    (late : second ≤ third) :
    between scope rows first second ++ between scope rows second third =
      between scope rows first third := by
  let below : ChainedRow → Bool := fun row =>
    row.columns.createdAt ≤ second
  have separated :
      ∀ one other, below one = true → below other = false →
        stamp one < stamp other := by
    intro one other isBelow isAbove
    simp only [below, decide_eq_true_eq, decide_eq_false_iff_not, not_le]
      at isBelow isAbove
    rw [stamp, stamp, Prod.Lex.toLex_lt_toLex]
    exact Or.inl (isBelow.trans_lt isAbove)
  have cut :=
    sortByKey_eq_append separated
      ((chainedRows rows).filter fun row =>
        first < row.columns.createdAt && row.columns.createdAt ≤ third &&
          row.isChained && scope.covers row)
  rw [List.filter_filter, List.filter_filter] at cut
  rw [between, between, between, cut]
  congr 2
  · apply List.filter_congr
    intro row _
    simp only [below]
    grind
  · apply List.filter_congr
    intro row _
    simp only [below]
    grind

/-- The scan ends at the latest end of the windows. -/
theorem rescan_eq_between
    (later : ∀ window ∈ windowsOf scope rows, epochMicros ≤ window.finish) :
    rescan scope rows =
      between scope rows epochMicros
        (latest epochMicros (windowsOf scope rows)) := by
  unfold rescan
  cases read : lastAnchoredTo scope rows with
  | none =>
      have empty : anchorsOf scope rows = [] := by
        simpa [lastAnchoredTo] using read
      rw [windowsOf, empty]
      exact (between_self epochMicros).symm
  | some last =>
      have bound :
          toTimestamptz (anchorWindowStart scope rows) = some last := by
        rw [anchorWindowStart, read]
        exact toTimestamptz_toDateTime last
      have ends := micros_of_anchorWindowStart later bound
      dsimp only
      rw [collectRows_eq_between, ends]
      rfl

end Scans

/-! ## The leaves of one receipt -/

/-- A chained row is not inserted where there is one with its id. -/
theorem not_mem_of_accepted {past rest : List Row} {row : ChainedRow}
    (accepted : Accepted schema (past ++ rest))
    (present : .chained row ∈ past) : .chained row ∉ rest := by
  have fresh :
      (past ++ rest).Pairwise fun earlier later =>
        later = .chained row → earlier ≠ .chained row := by
    apply accepted.pairwise
    rintro before _ passed earlier member rfl rfl
    simp only [schema, primaryKey, Bool.and_eq_true, List.all_eq_true]
      at passed
    have other := passed.1.1.1 row (mem_chainedRows.mpr member)
    simp at other
  intro again
  exact (List.pairwise_append.mp fresh).2.2 _ present _ again rfl rfl

section Histories

variable {service : Service} {setting : Setting} {table : ChainTable}
variable {runId : Uuid} {scope : AnchorScope} {rows : List Row}

/-- The leaves of a receipt are those of its window, at an earlier moment. -/
theorem exists_collected
    (setting : Setting)
    (fresh : ∀ rows, setting.base rows → anchorsOf scope rows = [])
    (committed : Committed service setting table runId rows) :
    ∀ anchor ∈ anchorsOf scope rows,
      ∃ collected, collected <+: rows ∧
        anchor.2 =
          between scope collected anchor.1.anchoredFrom.micros
            anchor.1.anchoredTo.micros := by
  induction committed with
  | base isBase =>
      rw [fresh _ isBase]
      intro anchor absurdity
      cases absurdity
  | append _ admitted induction =>
      rename_i past batch _
      intro anchor member
      have appended := anchorsOf_admitted scope admitted
      have kept : past <+: past ++ batch := List.prefix_append past batch
      rcases appended with unchanged | minted
      · rw [unchanged] at member
        rcases induction anchor member with ⟨collected, earlier, leaves⟩
        exact ⟨collected, earlier.trans kept, leaves⟩
      · rcases minted with ⟨tick, seen, collected, newest, leaves, _, rfl, _,
          earlier, _, minted, receipts⟩
        rw [receipts] at member
        rcases List.mem_append.mp member with old | new
        · rcases induction anchor old with ⟨collected, earlier, leaves⟩
          exact ⟨collected, earlier.trans kept, leaves⟩
        · cases List.mem_singleton.mp new
          exact ⟨collected, earlier.trans kept, minted.leaves_eq⟩

/-- Windows that do not overlap are those of one receipt at most. -/
theorem eq_of_mem_points (apart : NoOverlap scope rows)
    {first second : Anchor × List ChainedRow}
    (member : first ∈ anchorsOf scope rows)
    (member' : second ∈ anchorsOf scope rows) {moment : Int}
    (inside : moment ∈ (windowOf first.1).points)
    (inside' : moment ∈ (windowOf second.1).points) : first = second := by
  by_contra different
  have disjoint :
      (anchorsOf scope rows).Pairwise fun first second =>
        Disjoint (windowOf first.1).points (windowOf second.1).points := by
    have windows := apart.windows
    rwa [windowsOf, Apart, List.pairwise_map] at windows
  have symmetric :
      Std.Symm fun first second : Anchor × List ChainedRow =>
        Disjoint (windowOf first.1).points (windowOf second.1).points :=
    ⟨fun _ _ separate => separate.symm⟩
  exact Set.disjoint_left.mp (disjoint.forall member member' different)
    inside inside'

/-- If no row escapes, the rows of a window are the leaves of its receipt. -/
theorem leaves_eq_between
    (setting : Setting)
    (fresh : ∀ rows, setting.base rows → anchorsOf scope rows = [])
    (committed : Committed service setting table runId rows)
    (accepted : Accepted schema rows) (apart : NoOverlap scope rows)
    (never : NoEscape scope rows) :
    ∀ anchor ∈ anchorsOf scope rows,
      anchor.2 =
        between scope rows anchor.1.anchoredFrom.micros
          anchor.1.anchoredTo.micros := by
  intro anchor member
  have stale : Stale epochMicros (windowsOf scope rows) :=
    stale_windowsOf setting fresh committed
  have inside := leaves_mem_window setting fresh committed
  rcases exists_collected setting fresh committed anchor member with
    ⟨collected, ⟨rest, rfl⟩, leaves⟩
  have early : epochMicros ≤ anchor.1.anchoredFrom.micros := by
    have window : windowOf anchor.1 ∈ windowsOf scope (collected ++ rest) :=
      List.mem_map_of_mem member
    rcases Grows.of_mem stale window with ⟨_, _, _, seen, _, starts⟩
    rw [show anchor.1.anchoredFrom.micros = latest epochMicros seen from
      starts]
    exact origin_le_latest epochMicros seen
  have none_late :
      ∀ row, .chained row ∈ rest →
        row ∉
          between scope (collected ++ rest) anchor.1.anchoredFrom.micros
            anchor.1.anchoredTo.micros := by
    intro row late listed
    rcases mem_between.mp listed with ⟨present, within, chained, covered⟩
    have anchorable : Anchorable scope row :=
      ⟨chained, covered, early.trans_lt within.1⟩
    rcases never row present anchorable anchor member within.2 with
      ⟨covering, covers, leaf⟩
    have same : covering = anchor :=
      eq_of_mem_points apart covers member (inside covering covers row leaf)
        within
    rw [same, leaves, mem_between] at leaf
    exact not_mem_of_accepted accepted leaf.1 late
  have nothing :
      (chainedRows rest).filter (fun row =>
          anchor.1.anchoredFrom.micros < row.columns.createdAt &&
            row.columns.createdAt ≤ anchor.1.anchoredTo.micros &&
              row.isChained && scope.covers row) = [] := by
    rw [List.filter_eq_nil_iff]
    intro row late passes
    have stored := mem_chainedRows.mp late
    refine none_late row stored ?_
    rw [between, mem_sortByKey, List.mem_filter, mem_chainedRows]
    exact ⟨List.mem_append_right _ stored, passes⟩
  have split :
      chainedRows (collected ++ rest) =
        chainedRows collected ++ chainedRows rest :=
    List.filterMap_append
  rw [leaves, between, between, split, List.filter_append, nothing,
    List.append_nil]

/-- The rows of the windows of all receipts are those of one scan. -/
theorem flatMap_windows
    (setting : Setting)
    (fresh : ∀ rows, setting.base rows → anchorsOf scope rows = [])
    (committed : Committed service setting table runId rows)
    (apart : NoOverlap scope rows) :
    ((anchorsOf scope rows).flatMap fun anchor =>
        between scope rows anchor.1.anchoredFrom.micros
          anchor.1.anchoredTo.micros) =
      rescan scope rows := by
  have stale : Stale epochMicros (windowsOf scope rows) :=
    stale_windowsOf setting fresh committed
  have contiguous : Contiguous epochMicros (windowsOf scope rows) :=
    (apart_iff_contiguous stale).mp apart.windows
  have forward :
      ∀ window ∈ windowsOf scope rows, window.start ≤ window.finish := by
    intro window member
    rcases stale.of_mem member with ⟨_, _, nonempty, _⟩
    exact nonempty.le
  have gathered :=
    contiguous.flatMap_gather (between scope rows) between_self
      between_append forward
  rw [rescan_eq_between (origin_le_finish_of_stale stale), ← gathered,
    windowsOf, List.flatMap_map]
  rfl

end Histories

/--
In every state the ledger reaches, if the windows of a scope do not overlap,
the leaves of its receipts in their order are the rows that a scan from the
epoch to the last `anchored_to` finds exactly if no row escapes.
-/
theorem anchoredLeaves_eq_rescan_iff
    {Client : Type} [DecidableEq Client] (service : Service)
    (scope : AnchorScope) {world : LedgerWorld Client}
    (reached :
      Reachable
        (ledger service fun rows =>
          Accepted schema rows ∧ anchorsOf scope rows = [])
        unrestricted world)
    (apart : NoOverlap scope world.shared.committed) :
    anchoredLeaves scope world.shared.committed =
        rescan scope world.shared.committed ↔
      NoEscape scope world.shared.committed := by
  have committed := history_free .events 0 reached
  have accepted : Accepted schema world.shared.committed :=
    accepted_of_reachable (fun _ starts => starts.1.1) reached
  have stale : Stale epochMicros (windowsOf scope world.shared.committed) :=
    stale_windowsOf (.free _) (fun _ starts => starts.2) committed
  constructor
  · intro same row present anchorable anchor member early
    have listed : row ∈ rescan scope world.shared.committed := by
      rw [rescan_eq_between (origin_le_finish_of_stale stale), mem_between]
      refine ⟨present, ⟨anchorable.2.2, early.trans ?_⟩, anchorable.1,
        anchorable.2.1⟩
      exact finish_le_latest epochMicros
        (List.mem_map_of_mem member :
          windowOf anchor.1 ∈ windowsOf scope world.shared.committed)
    rw [← same, anchoredLeaves, List.mem_flatMap] at listed
    exact listed
  · intro never
    rw [← flatMap_windows (.free _) (fun _ starts => starts.2) committed
      apart, anchoredLeaves]
    apply List.flatMap_congr
    exact leaves_eq_between (.free _) (fun _ starts => starts.2) committed
      accepted apart never

/-- One window was anchored, and a row escaped it. -/
def missed (world : LedgerWorld Nat) : Bool :=
  globalWindows [⟨epochMicros, 5000000⟩] world &&
    escapes .global world.shared.committed

/-- The row of a slow writer is found by a scan, and is no leaf. -/
theorem anchoredLeaves_ne_rescan_of_slowWriter :
    ∃ world : LedgerWorld Nat,
      Reachable
          (ledger plainService fun rows =>
            Accepted schema rows ∧ anchorsOf .global rows = [])
          unrestricted world ∧
        NoOverlap .global world.shared.committed ∧
          anchoredLeaves .global world.shared.committed ≠
            rescan .global world.shared.committed := by
  have starts :
      (ledger plainService fun rows =>
          Accepted schema rows ∧ anchorsOf .global rows = []).initial
        (resting [runSeven, noted 1 4000000]) :=
    initial_resting ⟨by unfold Accepted; decide, rfl⟩
  rcases
      Reachable.exists_of_replay unrestricted_of_anyMove starts slowWriter
        missed (by decide +kernel) with
    ⟨world, reached, outcome⟩
  simp only [missed, globalWindows, Bool.and_eq_true, decide_eq_true_eq]
    at outcome
  have inside :=
    leaves_mem_window (.free _) (fun _ starts => starts.2)
      (history_free .events 0 reached)
  have apart : NoOverlap .global world.shared.committed := by
    rw [noOverlap_iff_apart inside, outcome.1]
    exact List.pairwise_singleton _ _
  refine ⟨world, reached, apart, ?_⟩
  intro same
  exact not_noEscape_of_escapes outcome.2
    ((anchoredLeaves_eq_rescan_iff plainService .global reached apart).mp
      same)

end Trackward.Ledger.AnchorCover
