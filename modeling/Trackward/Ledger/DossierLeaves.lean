import Trackward.Ledger.ChainOrder
import Trackward.Ledger.Dossiers
import Mathlib.Data.List.Flatten

/-!
# The leaves of a dossier

An auditor concatenates the row hashes of the sections of a dossier and hands
them to the verifier of an anchor of the run.  The ledger has listed the leaves
of the anchor by `created_at` and id, while the sections follow each other and
each is sorted by the time its rows are about.

Both lists agree for every way to carry out the sections exactly if the rows
were created in an order the dossier can list them in.
-/

namespace Trackward.Ledger.DossierLeaves

open Trackward.ChainCore.Chrono
open Trackward.ChainCore.Encode
open Trackward.ChainCore.JsonValue
open Trackward.Ledger.Anchoring
open Trackward.Ledger.Chain
open Trackward.Ledger.ChainOrder
open Trackward.Ledger.Concurrency
open Trackward.Ledger.Dossiers
open Trackward.Ledger.Models
open Trackward.Ledger.Records
open Trackward.Ledger.Routes
open Trackward.Ledger.Timestamps
open Trackward.Lib.KeyedLists
open Trackward.Lib.Octets
open Trackward.Lib.Programs
open Trackward.Lib.Runs
open Trackward.Lib.Sessions
open Trackward.Lib.Transactions

/-! ## What an auditor does -/

/-- The rows of the tables of the handlers. -/
def rowsOf (entries : List Entry) : List Row :=
  entries.filterMap Entry.row?

/-- The dossier of a run in which nothing is committed meanwhile. -/
def Takes (order : RowOrder) (runId : Uuid) (entries : List Entry)
    (found : Dossier) : Prop :=
  ∃ events,
    (dossier order runId).Executes events (.ok found) ∧
      ∀ event ∈ events, event = selected entries

/-- The leaves the ledger collects. -/
def Collects (scope : AnchorScope) (lower upper : DateTime)
    (rows : List Row) (leaves : List Digest) : Prop :=
  ∃ collected events,
    (collectLeaves scope lower upper).Executes events
        (.ok (collected, leaves)) ∧
      ∀ event ∈ events, event = ⟨.select, .ok rows⟩

/-- The row hashes of the sections, without those of rows not chained. -/
def concatenated (tables : List ChainTable) (found : Dossier) :
    List Bytes :=
  ((tables.flatMap found.rows).map rowHash).filter fun hash =>
    hash ≠ ChainedRow.legacyRowHash

/--
However the database carries out the sections, their row hashes are the leaves
of an anchor of the run from the epoch on.
-/
def FeedsVerifier (tables : List ChainTable) (runId : Uuid)
    (untilTs : DateTime) (entries : List Entry) : Prop :=
  ∀ order found,
    Takes order runId entries found →
      ∃ leaves,
        Collects (.run runId) DateTime.epoch untilTs (rowsOf entries)
            leaves ∧
          leaves.map Block.bytes = concatenated tables found

/-! ## The rows of a run -/

/-- The chained rows of a run, in commit order. -/
def runRows (runId : Uuid) (entries : List Entry) : List ChainedRow :=
  (chainedEntries entries).filter fun row =>
    row.runId = some runId && row.isChained

/-- A dossier can list the first row before the second. -/
abbrev Precedes (tables : List ChainTable) :
    ChainedRow → ChainedRow → Prop :=
  ListedBefore tables ChainedRow.table sectionKey

/-- The start of 1970 in the database. -/
def epochTz : Timestamptz :=
  ⟨-946684800000000, by decide, by decide⟩

theorem toTimestamptz_epoch :
    toTimestamptz DateTime.epoch = some epochTz := by
  decide +kernel

/-- The chained rows of a dossier were created in the order it lists them. -/
structure CreatedInOrder (tables : List ChainTable) (runId : Uuid)
    (entries : List Entry) : Prop where
  sinceEpoch :
    ∀ row ∈ runRows runId entries,
      epochTz.micros < row.columns.createdAt
  inOrder :
    (runRows runId entries).Pairwise fun first second =>
      (Precedes tables first second → stamp first < stamp second) ∧
        (Precedes tables second first → stamp second < stamp first)

/-! ## Collected leaves -/

/-- Row hashes of 32 bytes are the leaves. -/
theorem leafDigests_eq_ok_iff {rows : List ChainedRow}
    {digests : List Digest} :
    leafDigests rows = .ok digests ↔
      digests.map Block.bytes = rows.map rowHash := by
  induction rows generalizing digests with
  | nil =>
      rw [leafDigests, Except.ok.injEq, List.map_nil, List.map_eq_nil_iff]
      exact eq_comm
  | cons row rows induction =>
      unfold leafDigests
      cases converted : Block.ofBytes? 32 row.columns.rowHash with
      | none =>
          constructor
          · intro absurdity
            cases absurdity
          · intro same
            rcases List.map_eq_cons_iff.mp same with
              ⟨digest, _, _, here, _⟩
            have found : Block.ofBytes? 32 row.columns.rowHash = some digest :=
              Block.ofBytes?_eq_some_iff.mpr here.symm
            rw [converted] at found
            cases found
      | some digest =>
          have here : row.columns.rowHash = digest.bytes :=
            Block.ofBytes?_eq_some_iff.mp converted
          constructor
          · intro digested
            rcases bind_eq_ok_iff.mp digested with ⟨rest, later, ⟨⟩⟩
            rw [List.map_cons, List.map_cons, induction.mp later, rowHash,
              here]
          · intro same
            rcases List.map_eq_cons_iff.mp same with
              ⟨digest', rest, rfl, here', later⟩
            have sameDigest : digest' = digest :=
              Block.ext (here'.trans here)
            rw [sameDigest]
            exact bind_eq_ok_iff.mpr ⟨rest, induction.mpr later, rfl⟩

/-- The rows a tick over the whole history of a run collects. -/
theorem collectRows_run {runId : Uuid} {lower upper : Timestamptz}
    {entries : List Entry}
    (covered :
      ∀ row ∈ runRows runId entries,
        row.columns.createdAt ≤ upper.micros) :
    collectRows (.run runId) lower upper (rowsOf entries) =
      sortByKey stamp
        ((runRows runId entries).filter fun row =>
          lower.micros < row.columns.createdAt) := by
  unfold collectRows
  congr 1
  rw [runRows, List.filter_filter]
  apply List.filter_congr
  intro row member
  have ofScope :
      AnchorScope.covers (.run runId) row =
        decide (row.runId = some runId) :=
    rfl
  rw [ofScope]
  by_cases isRunRow : row.runId = some runId ∧ row.isChained = true
  · have early : row.columns.createdAt ≤ upper.micros := by
      apply covered
      rw [runRows, List.mem_filter]
      exact ⟨member, by simp [isRunRow.1, isRunRow.2]⟩
    simp [early, isRunRow.1, isRunRow.2]
  · rw [Bool.eq_iff_iff]
    simp only [Bool.and_eq_true, decide_eq_true_eq]
    constructor
    · rintro ⟨⟨⟨_, _⟩, chained⟩, ofRun⟩
      exact absurd ⟨ofRun, chained⟩ isRunRow
    · rintro ⟨_, ofRun, chained⟩
      exact absurd ⟨ofRun, chained⟩ isRunRow

theorem collects_iff {scope : AnchorScope} {lower upper : DateTime}
    {lowerTz upperTz : Timestamptz} {rows : List Row}
    {leaves : List Digest}
    (lowerBound : toTimestamptz lower = some lowerTz)
    (upperBound : toTimestamptz upper = some upperTz) :
    Collects scope lower upper rows leaves ↔
      leaves.map Block.bytes =
        (collectRows scope lowerTz upperTz rows).map rowHash := by
  rw [← leafDigests_eq_ok_iff]
  unfold Collects collectLeaves
  rw [bindTimestamp_eq_ok_iff.mpr lowerBound,
    bindTimestamp_eq_ok_iff.mpr upperBound]
  constructor
  · rintro ⟨collected, events, ran, quiet⟩
    rcases Program.executes_call_iff.mp ran with
      ⟨answer, rest, rfl, continued⟩
    have same := quiet _ List.mem_cons_self
    cases same
    change
      (Chain.liftExcept
          (leafDigests (collectRows scope lowerTz upperTz rows)) >>= fun
            digests =>
          pure (collectRows scope lowerTz upperTz rows, digests)).Executes
        rest (.ok (collected, leaves)) at continued
    cases digested :
        leafDigests (collectRows scope lowerTz upperTz rows) with
    | error exit =>
        rw [digested] at continued
        cases continued
    | ok digests =>
        rw [digested] at continued
        have outcome := (Program.executes_done_iff.mp continued).2
        rw [Except.ok.injEq, Prod.mk.injEq] at outcome
        rw [outcome.2]
  · intro digested
    refine ⟨collectRows scope lowerTz upperTz rows, [⟨.select, .ok rows⟩],
      Program.executes_call_iff.mpr ⟨.ok rows, [], rfl, ?_⟩, by simp⟩
    change
      (Chain.liftExcept
          (leafDigests (collectRows scope lowerTz upperTz rows)) >>= fun
            digests =>
          pure (collectRows scope lowerTz upperTz rows, digests)).Executes
        [] (.ok (collectRows scope lowerTz upperTz rows, leaves))
    rw [digested]
    exact .done _

/-! ## Undisturbed dossiers -/

theorem selected_injective : Function.Injective selected := by
  rintro entries entries' ⟨⟩
  rfl

/-- All sections of an undisturbed dossier are read from the same rows. -/
theorem rows_of_takes {order : RowOrder} {runId : Uuid}
    {entries : List Entry} {found : Dossier}
    (taken : Takes order runId entries found) (table : ChainTable) :
    found.rows table = sectionRows order runId table entries := by
  rcases taken with ⟨events, ran, quiet⟩
  rcases executes_dossier ran with ⟨first, read, last, rfl, _, rows, _⟩
  have member :
      selected (read table) ∈
        (first :: sections.map read ++ [last]).map selected := by
    apply List.mem_map_of_mem
    exact
      List.mem_append_left _
        (List.mem_cons_of_mem _
          (List.mem_map_of_mem (mem_sections table)))
  have same := selected_injective (quiet _ member)
  rw [rows table, same]

/-- A dossier of a run that exists can be taken undisturbed. -/
theorem exists_takes (order : RowOrder) {runId : Uuid}
    {entries : List Entry}
    (present : runExists (rowsOf entries) runId = true) :
    ∃ found, Takes order runId entries found := by
  rcases List.any_eq_true.mp present with ⟨run, member, isRun⟩
  have found : (findRun runId entries).isSome = true :=
    List.find?_isSome.mpr ⟨run, member, isRun⟩
  rcases Option.isSome_iff_exists.mp found with ⟨run, here⟩
  refine ⟨snapshot order runId run entries,
    List.replicate 9 (selected entries),
    Program.executes_call_iff.mpr
      ⟨.ok entries, List.replicate 8 (selected entries), rfl, ?_⟩,
    fun event member => List.eq_of_mem_replicate member⟩
  simp only [Program.bind, here]
  iterate 8
    refine Program.Executes.call
      (show wholeDb.Answer Op.select from .ok entries) ?_
  exact .done _

/-! ## The order of a dossier -/

/-- The chained rows of the sections, one section after the other. -/
def listed (order : RowOrder) (tables : List ChainTable) (runId : Uuid)
    (entries : List Entry) : List ChainedRow :=
  (tables.flatMap fun table =>
    sectionRows order runId table entries).filter ChainedRow.isChained

theorem concatenated_of_takes {order : RowOrder}
    {tables : List ChainTable} {runId : Uuid} {entries : List Entry}
    {found : Dossier} (taken : Takes order runId entries found) :
    concatenated tables found =
      (listed order tables runId entries).map rowHash := by
  have rows :
      found.rows = fun table => sectionRows order runId table entries :=
    funext (rows_of_takes taken)
  rw [concatenated, rows, List.filter_map, listed]
  congr 1
  apply List.filter_congr
  intro row _
  by_cases zero : row.columns.rowHash = ChainedRow.legacyRowHash <;>
    simp [rowHash, ChainedRow.isChained, zero]

/-- The chained rows of one section. -/
theorem filter_isChained_perm (order : RowOrder) (runId : Uuid)
    (table : ChainTable) (entries : List Entry) :
    ((sectionRows order runId table entries).filter
        ChainedRow.isChained).Perm
      ((runRows runId entries).filter fun row => row.table = table) := by
  refine ((order.perm _ _).filter _).trans ?_
  rw [runRows, List.filter_filter, List.filter_filter]
  refine List.Perm.of_eq (List.filter_congr fun row _ => ?_)
  rw [inSection, Bool.and_comm, Bool.and_assoc]

/-- A dossier lists all chained rows of the run. -/
theorem listed_perm (order : RowOrder) {tables : List ChainTable}
    (complete : tables.Perm sections) (runId : Uuid)
    (entries : List Entry) :
    (listed order tables runId entries).Perm (runRows runId entries) := by
  rw [listed, List.filter_flatMap]
  refine (List.Perm.flatMap_left _ fun table _ =>
    filter_isChained_perm order runId table entries).trans ?_
  apply flatMap_filter_perm ChainedRow.table
  · exact complete.nodup_iff.mpr nodup_sections
  · intro row _
    exact complete.mem_iff.mpr (mem_sections row.table)

theorem table_of_mem_sectionRows {order : RowOrder} {runId : Uuid}
    {table : ChainTable} {entries : List Entry} {row : ChainedRow}
    (member : row ∈ sectionRows order runId table entries) :
    row.table = table := by
  have inside := (List.mem_filter.mp ((order.perm _ _).mem_iff.mp member)).2
  simp only [inSection, Bool.and_eq_true, decide_eq_true_eq] at inside
  exact inside.1

theorem listed_pairwise_precedes (order : RowOrder)
    (tables : List ChainTable) (runId : Uuid) (entries : List Entry) :
    (listed order tables runId entries).Pairwise (Precedes tables) := by
  apply List.Pairwise.filter
  apply flatMap_pairwise_listedBefore
  · intro table row member
    exact table_of_mem_sectionRows member
  · intro table
    exact order.sorted _ _

/-- Rows with equal values are listed by this choice first. -/
def RowOrder.preferring (first : ChainedRow → Bool) : RowOrder where
  sort := fun key rows =>
    sortByKey key (rows.filter first ++ rows.filter fun row => !first row)
  perm := fun key rows =>
    (sortByKey_perm key _).trans (List.filter_append_perm first rows)
  sorted := fun key _ => sortByKey_pairwise key _

/-- Every chained row of the run is in the section of its table. -/
theorem mem_sectionRows (order : RowOrder) {runId : Uuid}
    {entries : List Entry} {row : ChainedRow}
    (member : row ∈ runRows runId entries) :
    row ∈ sectionRows order runId row.table entries := by
  rw [sectionRows, (order.perm _ _).mem_iff]
  have both := (List.mem_filter.mp member).2
  simp only [Bool.and_eq_true, decide_eq_true_eq] at both
  refine List.mem_filter.mpr ⟨(List.mem_filter.mp member).1, ?_⟩
  simp [inSection, both.1]

theorem isChained_of_mem_runRows {runId : Uuid} {entries : List Entry}
    {row : ChainedRow} (member : row ∈ runRows runId entries) :
    row.isChained = true := by
  have both := (List.mem_filter.mp member).2
  rw [Bool.and_eq_true] at both
  exact both.2

/-- What a dossier can list first, some way to carry it out lists first. -/
theorem exists_listed_before {tables : List ChainTable} {runId : Uuid}
    {entries : List Entry} {first second : ChainedRow}
    (complete : tables.Perm sections)
    (member : first ∈ runRows runId entries)
    (member' : second ∈ runRows runId entries)
    (different : rowHash first ≠ rowHash second)
    (precedes : Precedes tables first second) :
    ∃ order,
      [first, second].Sublist (listed order tables runId entries) := by
  let chosen : ChainedRow → Bool := fun row => rowHash row = rowHash first
  let order := RowOrder.preferring chosen
  have inside := mem_sectionRows order member
  have inside' := mem_sectionRows order member'
  have pair :
      [first, second].Sublist
        (tables.flatMap fun table =>
          sectionRows order runId table entries) := by
    rcases precedes with apart | ⟨together, ordered⟩
    · refine List.Sublist.trans ?_ (apart.flatMap _)
      rw [List.flatMap_cons, List.flatMap_cons, List.flatMap_nil,
        List.append_nil]
      exact
        (List.singleton_sublist.mpr inside).append
          (List.singleton_sublist.mpr inside')
    · have listedTable : [first.table].Sublist tables :=
        List.singleton_sublist.mpr
          (complete.mem_iff.mpr (mem_sections first.table))
      refine List.Sublist.trans ?_ (listedTable.flatMap _)
      rw [List.flatMap_cons, List.flatMap_nil, List.append_nil]
      apply pair_sublist_sortByKey ordered
      -- the first row is among the preferred ones, the second is not
      rw [← together] at inside'
      have stored := (order.perm _ _).mem_iff.mp inside
      have stored' := (order.perm _ _).mem_iff.mp inside'
      refine
        (List.singleton_sublist.mpr (List.mem_filter.mpr ⟨stored, ?_⟩)).append
          (List.singleton_sublist.mpr (List.mem_filter.mpr ⟨stored', ?_⟩))
      · simp [chosen]
      · simpa [chosen] using different.symm
  refine ⟨order, ?_⟩
  have chained := pair.filter ChainedRow.isChained
  rwa [List.filter_cons_of_pos (isChained_of_mem_runRows member),
    List.filter_cons_of_pos (isChained_of_mem_runRows member'),
    List.filter_nil] at chained

/-! ## Leaves and sections -/

/-- Row hashes that pass the constraints of the database are digests. -/
theorem exists_digests {rows : List ChainedRow}
    (constrained : ∀ row ∈ rows, hashLengths row = true) :
    ∃ digests : List Digest,
      digests.map Block.bytes = rows.map rowHash := by
  induction rows with
  | nil => exact ⟨[], rfl⟩
  | cons row rows induction =>
      have lengths := constrained row List.mem_cons_self
      simp only [hashLengths, Bool.and_eq_true, decide_eq_true_eq] at lengths
      rcases induction fun other member =>
          constrained other (List.mem_cons_of_mem _ member) with
        ⟨digests, same⟩
      refine ⟨⟨row.columns.rowHash, lengths.2⟩ :: digests, ?_⟩
      rw [List.map_cons, same, List.map_cons, rowHash]

/-- The leaves are the sections iff they are the same row hashes. -/
theorem feedsVerifier_iff {tables : List ChainTable} {runId : Uuid}
    {untilTs : DateTime} {upper : Timestamptz} {entries : List Entry}
    (present : runExists (rowsOf entries) runId = true)
    (constrained : ∀ row ∈ runRows runId entries, hashLengths row = true)
    (bound : toTimestamptz untilTs = some upper)
    (covered :
      ∀ row ∈ runRows runId entries,
        row.columns.createdAt ≤ upper.micros) :
    FeedsVerifier tables runId untilTs entries ↔
      ∀ order,
        (sortByKey stamp
            ((runRows runId entries).filter fun row =>
              epochTz.micros < row.columns.createdAt)).map rowHash =
          (listed order tables runId entries).map rowHash := by
  have collected (leaves : List Digest) :
      Collects (.run runId) DateTime.epoch untilTs (rowsOf entries) leaves ↔
        leaves.map Block.bytes =
          (sortByKey stamp
            ((runRows runId entries).filter fun row =>
              epochTz.micros < row.columns.createdAt)).map rowHash := by
    rw [collects_iff toTimestamptz_epoch bound, collectRows_run covered]
  constructor
  · intro feeds order
    rcases exists_takes order present with ⟨found, taken⟩
    rcases feeds order found taken with ⟨leaves, gathered, same⟩
    rw [← (collected leaves).mp gathered, same,
      concatenated_of_takes taken]
  · intro same order found taken
    have inWindow :
        ∀ row ∈
            sortByKey stamp
              ((runRows runId entries).filter fun row =>
                epochTz.micros < row.columns.createdAt),
          hashLengths row = true := fun row member =>
      constrained row (List.mem_filter.mp (mem_sortByKey.mp member)).1
    rcases exists_digests inWindow with ⟨leaves, digests⟩
    refine ⟨leaves, (collected leaves).mpr digests, ?_⟩
    rw [digests, same order, concatenated_of_takes taken]

/-- Lists with the same row hashes are the same if row hashes are distinct. -/
theorem eq_of_map_rowHash_eq {rows first second : List ChainedRow}
    (distinct : (rows.map rowHash).Nodup)
    (inside : first ⊆ rows) (inside' : second ⊆ rows)
    (same : first.map rowHash = second.map rowHash) :
    first = second := by
  induction first generalizing second with
  | nil => exact (List.map_eq_nil_iff.mp same.symm).symm
  | cons row first induction =>
      rcases List.map_eq_cons_iff.mp same.symm with
        ⟨row', rest, rfl, here, later⟩
      have sameRow : row' = row :=
        List.inj_on_of_nodup_map distinct (inside' List.mem_cons_self)
          (inside List.mem_cons_self) here
      rw [sameRow,
        induction (fun _ member => inside (List.mem_cons_of_mem _ member))
          (fun _ member => inside' (List.mem_cons_of_mem _ member))
          later.symm]

/-- Rows created in order are listed in the order of their stamps. -/
theorem listed_pairwise_stamp {tables : List ChainTable}
    (complete : tables.Perm sections) {runId : Uuid} {entries : List Entry}
    (created : CreatedInOrder tables runId entries) (order : RowOrder) :
    (listed order tables runId entries).Pairwise fun first second =>
      stamp first < stamp second := by
  have symmetric :
      (listed order tables runId entries).Pairwise fun first second =>
        (Precedes tables first second → stamp first < stamp second) ∧
          (Precedes tables second first → stamp second < stamp first) :=
    ((listed_perm order complete runId entries).pairwise_iff
      fun both => ⟨both.2, both.1⟩).mpr created.inOrder
  exact
    symmetric.imp₂ (fun _ _ both precedes => both.1 precedes)
      (listed_pairwise_precedes order tables runId entries)

section Feeding

variable {tables : List ChainTable} {runId : Uuid} {untilTs : DateTime}
variable {upper : Timestamptz} {entries : List Entry}

/-- With distinct row hashes, equal lists of leaves are equal lists of rows. -/
theorem sorted_eq_listed
    (complete : tables.Perm sections)
    (present : runExists (rowsOf entries) runId = true)
    (constrained : ∀ row ∈ runRows runId entries, hashLengths row = true)
    (bound : toTimestamptz untilTs = some upper)
    (covered :
      ∀ row ∈ runRows runId entries,
        row.columns.createdAt ≤ upper.micros)
    (distinct : ((runRows runId entries).map rowHash).Nodup)
    (feeds : FeedsVerifier tables runId untilTs entries)
    (order : RowOrder) :
    sortByKey stamp
        ((runRows runId entries).filter fun row =>
          epochTz.micros < row.columns.createdAt) =
      listed order tables runId entries := by
  rw [feedsVerifier_iff present constrained bound covered] at feeds
  apply eq_of_map_rowHash_eq distinct _ _ (feeds order)
  · intro row member
    exact (List.mem_filter.mp (mem_sortByKey.mp member)).1
  · exact (listed_perm order complete runId entries).subset

/-- Rows a dossier can list in one order were not created in the other. -/
theorem stamp_le_of_precedes
    (complete : tables.Perm sections)
    (present : runExists (rowsOf entries) runId = true)
    (constrained : ∀ row ∈ runRows runId entries, hashLengths row = true)
    (bound : toTimestamptz untilTs = some upper)
    (covered :
      ∀ row ∈ runRows runId entries,
        row.columns.createdAt ≤ upper.micros)
    (distinct : ((runRows runId entries).map rowHash).Nodup)
    (feeds : FeedsVerifier tables runId untilTs entries)
    {first second : ChainedRow}
    (member : first ∈ runRows runId entries)
    (member' : second ∈ runRows runId entries)
    (different : rowHash first ≠ rowHash second)
    (precedes : Precedes tables first second) :
    stamp first ≤ stamp second := by
  rcases exists_listed_before complete member member' different precedes with
    ⟨order, inThisOrder⟩
  rw [← sorted_eq_listed complete present constrained bound covered distinct
    feeds order] at inThisOrder
  exact
    List.pairwise_iff_forall_sublist.mp (sortByKey_pairwise stamp _)
      inThisOrder

/--
If the chained rows of a run were created in the order a dossier can list them
in, the sections are the leaves of an anchor of the run.  As long as no two row
hashes and no two stamps of the run agree, they are only then.
-/
theorem feedsVerifier_iff_createdInOrder
    (complete : tables.Perm sections)
    (present : runExists (rowsOf entries) runId = true)
    (constrained : ∀ row ∈ runRows runId entries, hashLengths row = true)
    (bound : toTimestamptz untilTs = some upper)
    (covered :
      ∀ row ∈ runRows runId entries,
        row.columns.createdAt ≤ upper.micros) :
    (CreatedInOrder tables runId entries →
        FeedsVerifier tables runId untilTs entries) ∧
      (((runRows runId entries).map rowHash).Nodup →
        ((runRows runId entries).map stamp).Nodup →
          FeedsVerifier tables runId untilTs entries →
            CreatedInOrder tables runId entries) := by
  constructor
  · intro created
    rw [feedsVerifier_iff present constrained bound covered]
    intro order
    have all :
        ((runRows runId entries).filter fun row =>
            epochTz.micros < row.columns.createdAt) =
          runRows runId entries :=
      List.filter_eq_self.mpr fun row member => by
        simpa using created.sinceEpoch row member
    rw [all,
      sortByKey_eq_of_strict (listed_perm order complete runId entries).symm
        (listed_pairwise_stamp complete created order)]
  · intro distinct distinctStamps feeds
    constructor
    · intro row member
      rw [← (listed_perm .stable complete runId entries).mem_iff,
        ← sorted_eq_listed complete present constrained bound covered distinct
          feeds] at member
      simpa using (List.mem_filter.mp (mem_sortByKey.mp member)).2
    · have ordered {first second : ChainedRow} :=
        @stamp_le_of_precedes tables runId untilTs upper entries complete
          present constrained bound covered distinct feeds first second
      have apart :
          (runRows runId entries).Pairwise fun first second =>
            rowHash first ≠ rowHash second ∧ stamp first ≠ stamp second :=
        (List.pairwise_map.mp distinct).and
          (List.pairwise_map.mp distinctStamps)
      apply apart.imp_of_mem
      intro first second member member' different
      constructor
      · intro precedes
        exact
          lt_of_le_of_ne (ordered member member' different.1 precedes)
            different.2
      · intro precedes
        exact
          lt_of_le_of_ne
            (ordered member' member different.1.symm precedes)
            different.2.symm

end Feeding

/-! ## Two tool invocations -/

/-- A request to record a tool invocation of the run 7. -/
def invoke (id : Uuid) (startedAt : DateTime) : Request :=
  .write
    (.toolInvocation "test" id
      { runId := 7
        tool := "bash"
        input := Json.null
        output := Json.null
        status := "ok"
        statusCode := none
        startedAt := startedAt
        finishedAt := startedAt
        metadata := Json.null })

/-- The end of 2000. -/
def endOf2000 : DateTime where
  seconds := 978307200
  nanos := 0
  nanos_lt := DateTime.epoch.nanos_lt
  leap := by decide
  low := by decide
  high := by decide

/-- The end of 2000 in the database. -/
def endOf2000Tz : Timestamptz :=
  ⟨31622400000000, by decide, by decide⟩

theorem toTimestamptz_endOf2000 :
    toTimestamptz endOf2000 = some endOf2000Tz := by
  decide +kernel

/-- Two invocations are recorded one after the other. -/
def invocations (first second : DateTime) :
    List (Move Nat Request (Choice Fault)) :=
  .arrive 1 (invoke 1 first) :: answers 1 1 5 ++
    .arrive 2 (invoke 2 second) :: answers 2 2 5

/-- The database of a ledger. -/
def entriesOf (world : LedgerWorld Nat) : List Entry :=
  world.shared.committed.map Entry.ofRow

/-- The run 7 has two rows that a tick until the end of 2000 collects. -/
def twoRows (world : LedgerWorld Nat) : Bool :=
  runExists (rowsOf (entriesOf world)) 7 ∧
    (runRows 7 (entriesOf world)).length = 2 ∧
      ∀ row ∈ runRows 7 (entriesOf world),
        hashLengths row = true ∧
          row.columns.createdAt ≤ endOf2000Tz.micros

/-- The two rows were created in the order a dossier lists them in. -/
def twoRowsInOrder (world : LedgerWorld Nat) : Bool :=
  twoRows world ∧
    (∀ row ∈ runRows 7 (entriesOf world),
      epochTz.micros < row.columns.createdAt) ∧
      (runRows 7 (entriesOf world)).Pairwise fun first second =>
        (Precedes sections first second → stamp first < stamp second) ∧
          (Precedes sections second first → stamp second < stamp first)

/-- The row listed first was created last. -/
def twoRowsReversed (world : LedgerWorld Nat) : Bool :=
  twoRows world ∧ ((runRows 7 (entriesOf world)).map rowHash).Nodup ∧
    ∃ first ∈ runRows 7 (entriesOf world),
      ∃ second ∈ runRows 7 (entriesOf world),
        rowHash first ≠ rowHash second ∧
          first.table = second.table ∧
            sectionKey first ≤ sectionKey second ∧
              stamp second < stamp first

/-- Recorded in the order they started, the invocations are the leaves. -/
theorem feedsVerifier_of_invocations :
    ∃ world : LedgerWorld Nat,
      Reachable (ledger plainService fun rows => chainedRows rows = [])
          unrestricted world ∧
        (runRows 7 (entriesOf world)).length = 2 ∧
          FeedsVerifier sections 7 endOf2000 (entriesOf world) := by
  have starts :
      (ledger plainService fun rows => chainedRows rows = []).initial
        (resting [runSeven]) :=
    initial_resting rfl
  rcases
      Reachable.exists_of_replay unrestricted_of_anyMove starts
        (invocations DateTime.epoch endOf2000) twoRowsInOrder
        (by decide +kernel) with
    ⟨world, reached, check⟩
  simp only [twoRowsInOrder, twoRows, decide_eq_true_eq] at check
  rcases check with ⟨⟨present, two, rows⟩, sinceEpoch, inOrder⟩
  exact ⟨world, reached, two,
    (feedsVerifier_iff_createdInOrder (.refl sections) present
      (fun row member => (rows row member).1) toTimestamptz_endOf2000
      fun row member => (rows row member).2).1 ⟨sinceEpoch, inOrder⟩⟩

/--
Whatever the order of its sections, a dossier with two invocations that were
recorded in the opposite order does not list the leaves.
-/
theorem not_feedsVerifier_of_reversed_invocations :
    ∃ world : LedgerWorld Nat,
      Reachable (ledger plainService fun rows => chainedRows rows = [])
          unrestricted world ∧
        (∀ row ∈ runRows 7 (entriesOf world),
          row.columns.createdAt ≤ endOf2000Tz.micros) ∧
          ∀ tables, tables.Perm sections →
            ¬ FeedsVerifier tables 7 endOf2000 (entriesOf world) := by
  have starts :
      (ledger plainService fun rows => chainedRows rows = []).initial
        (resting [runSeven]) :=
    initial_resting rfl
  rcases
      Reachable.exists_of_replay unrestricted_of_anyMove starts
        (invocations endOf2000 DateTime.epoch) twoRowsReversed
        (by decide +kernel) with
    ⟨world, reached, check⟩
  simp only [twoRowsReversed, twoRows, decide_eq_true_eq] at check
  rcases check with
    ⟨⟨present, _, rows⟩, distinct, first, member, second, member',
      different, together, earlier, created⟩
  refine ⟨world, reached, fun row inside => (rows row inside).2, ?_⟩
  intro tables complete feeds
  have ordered :=
    stamp_le_of_precedes complete present
      (fun row inside => (rows row inside).1) toTimestamptz_endOf2000
      (fun row inside => (rows row inside).2) distinct feeds member member'
      different (Or.inr ⟨together, earlier⟩)
  exact absurd created (not_lt_of_ge ordered)

end Trackward.Ledger.DossierLeaves
