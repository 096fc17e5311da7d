import Trackward.Ledger.AnchorCover
import Trackward.Ledger.AnchorDocuments
import Trackward.Ledger.AnchorRetries
import Trackward.Ledger.Artifacts
import Trackward.Ledger.DossierLeaves

/-!
# Receipts without their ledger

A receipt is inserted after its document is shipped, so whatever goes on beside
a tick, the sink has the document of every receipt that is in the database.

An auditor who is given the document and the rows of the window, as they were
when the tick collected them, accepts it and is told what the receipt says.
-/

namespace Trackward.Ledger.AuditableAnchors

open Trackward.ChainCore.Chrono
open Trackward.ChainCore.Encode
open Trackward.ChainCore.Merkle
open Trackward.Ledger.AnchorCover
open Trackward.Ledger.AnchorDocuments
open Trackward.Ledger.AnchorRetries
open Trackward.Ledger.AnchorWindows
open Trackward.Ledger.Anchoring
open Trackward.Ledger.Artifacts
open Trackward.Ledger.Chain
open Trackward.Ledger.Concurrency
open Trackward.Ledger.DossierLeaves
open Trackward.Ledger.Models
open Trackward.Ledger.Routes
open Trackward.Ledger.Writes
open Trackward.Lib.Admission
open Trackward.Lib.Octets
open Trackward.Lib.Programs
open Trackward.Lib.Runs
open Trackward.Lib.Sessions
open Trackward.Lib.Transactions
open Trackward.Verifier.Anchor
open Trackward.Verifier.Bundle

/-- Where the document of a receipt is put. -/
def documentKey (anchor : Anchor) : String :=
  (scopeOf anchor.runId).keySegment ++ "/" ++ uuidText anchor.id ++ ".json"

/--
The receipt says where its document is, the document is there, and the verifier
accepts it with these leaves and reports what the receipt says.
-/
def Auditable (crates : Crates) (sink : AnchorSink) (emitted : List Effect)
    (anchor : Anchor) (leaves : List ChainedRow) : Prop :=
  anchor.anchorTarget = target sink (documentKey anchor) ∧
    ∃ docJson digests verified,
      .document (documentKey anchor) (utf8 docJson) ∈ emitted ∧
        leafDigests leaves = .ok digests ∧
          verifyAnchor crates docJson digests = .ok verified ∧
            Reports verified anchor

/-- Only auditable receipts pass. -/
def documentsFirst (crates : Crates) (sink : AnchorSink) :
    Gate Row Effect where
  row := fun emitted row =>
    ∀ anchor leaves, row = .anchor anchor leaves →
      leaves.length < 2 ^ 63 → Auditable crates sink emitted anchor leaves
  effect := fun _ => True
  monotone := by
    intro fewer more included row holds anchor leaves isAnchor few
    rcases holds anchor leaves isAnchor few with
      ⟨named, docJson, digests, verified, put, rest⟩
    exact ⟨named, docJson, digests, verified, included put, rest⟩

/-! ## A tick -/

section Ticks

variable {runtime : Runtime} {crates : Crates} {signingKey : SigningKey}
variable {sink : AnchorSink} {emitted : List Effect} {tick : Tick}

theorem length_of_leafDigests {rows : List ChainedRow}
    {digests : List Digest} (digested : leafDigests rows = .ok digests) :
    digests.length = rows.length := by
  have lengths := congrArg List.length (leafDigests_eq_ok_iff.mp digested)
  rwa [List.length_map, List.length_map] at lengths

/-- Leaves are collected with their digests, or not at all. -/
theorem gated_collectLeaves_bind {gate : Gate Row Effect} {α : Type}
    {scope : AnchorScope} {lower upper : DateTime}
    {next : List ChainedRow × List Digest → Handler α}
    (later :
      ∀ rows digests, leafDigests rows = .ok digests →
        Gated gate emitted (next (rows, digests))) :
    Gated gate emitted (collectLeaves scope lower upper >>= next) := by
  unfold collectLeaves
  rw [Program.bind_assoc]
  refine gated_liftExcept_bind fun first _ => ?_
  rw [Program.bind_assoc]
  refine gated_liftExcept_bind fun last _ => ?_
  rw [Program.bind_assoc]
  refine gated_attempt_bind trivial fun rows => ?_
  rw [Program.bind_assoc]
  refine gated_liftExcept_bind fun digests digested => ?_
  rw [show emitted ++ made Op.select (Except.ok rows) = emitted from
    List.append_nil emitted]
  exact later _ _ digested

/-- A sink that keeps documents, and then a program that counts on it. -/
theorem gated_put_bind {gate : Gate Row Effect} {α : Type} {key : String}
    {bytes : Bytes} {next : String → Handler α} (keeps : sink ≠ .noop)
    (harmless : gate.effect (.document key bytes))
    (later :
      Gated gate (emitted ++ [.document key bytes]) (next (target sink key))) :
    Gated gate emitted (sink.put key bytes >>= next) := by
  cases sink with
  | noop => exact absurd rfl keeps
  | s3 bucket | memory =>
      refine ⟨harmless, fun answer => ?_⟩
      cases answer with
      | ok reply => exact later
      | error fault => trivial

/-- The receipt of a tick is named after it. -/
theorem names_of_receipt {signing : SigningService}
    {manifest : AnchorManifest} {signature : Block 64} {put : String}
    {anchor : Anchor}
    (made : receipt signing tick manifest signature put = .ok anchor) :
    anchor.anchorTarget = put ∧ documentKey anchor = keyOf tick := by
  rcases bind_eq_ok_iff.mp made with ⟨_, _, rest⟩
  rcases bind_eq_ok_iff.mp rest with ⟨_, _, rest⟩
  rcases bind_eq_ok_iff.mp rest with ⟨_, _, ⟨⟩⟩
  refine ⟨rfl, ?_⟩
  rw [documentKey, scopeOf_runFilter, keyOf]

/-- What is minted over collected leaves is auditable. -/
theorem gated_mintAnchor {lower : DateTime} {rows : List ChainedRow}
    {digests : List Digest} (same : SameCrates runtime crates)
    (accepts : Accepts crates signingKey) (keeps : sink ≠ .noop)
    (digested : leafDigests rows = .ok digests) (nonempty : digests ≠ []) :
    Gated (documentsFirst crates sink) emitted
      (mintAnchor runtime (load runtime signingKey) sink tick lower
        (rows, digests)) := by
  refine gated_liftExcept_bind fun root rooted => ?_
  have computed : computeRoot runtime.sha256 digests = .ok root := by
    rw [rootOf] at rooted
    split at rooted
    · rename_i computed
      cases rooted
      exact computed
    · cases rooted
  refine gated_put_bind keeps trivial ?_
  refine gated_liftExcept_bind fun anchor made => ?_
  refine gated_attempt_bind ?_ fun _ => trivial
  rintro _ _ ⟨⟩ few
  have counted : digests.length < 2 ^ 63 := by
    rwa [length_of_leafDigests digested]
  rcases
      verifyAnchor_anchorDoc same accepts tick lower nonempty counted
        computed with
    ⟨docJson, written, accepted⟩
  rcases names_of_receipt made with ⟨put, key⟩
  rcases receipt_eq_ok made with ⟨_, _, runId, rootHash, leafCount⟩
  refine ⟨by rw [put, key]; rfl, docJson, digests, _, ?_, digested,
    accepted, ?_⟩
  · rw [key, written]
    exact List.mem_append_right _ List.mem_cons_self
  · refine ⟨?_, ?_, ?_, ?_⟩
    · rw [runId, scopeOf_runFilter]
    · rw [leafCount, Int64.toInt_ofNat_of_lt counted]
    · rw [rootHash]
    · exact (keyId_of_receipt made).symm

theorem gated_anchorTick (same : SameCrates runtime crates)
    (accepts : Accepts crates signingKey) (keeps : sink ≠ .noop) :
    Gated (documentsFirst crates sink) emitted
      (anchorTick runtime (load runtime signingKey) sink tick) := by
  refine gated_attempt_bind trivial fun seen => ?_
  dsimp only
  split
  · trivial
  · refine gated_collectLeaves_bind fun rows digests digested => ?_
    split
    · trivial
    · rename_i found
      apply gated_bind
      · apply gated_mintAnchor same accepts keeps digested
        rintro rfl
        exact found rfl
      · intro anchor after _
        trivial

/-- Every request inserts auditable receipts only. -/
theorem gated_serve (same : SameCrates runtime crates)
    (accepts : Accepts crates signingKey) (keeps : sink ≠ .noop)
    (request : Request) :
    Gated (documentsFirst crates sink) []
      (serve ⟨runtime, load runtime signingKey, sink⟩ request) := by
  cases request with
  | createRun actor id input =>
      apply gated_of_onlyCalls
      refine Program.onlyCalls_bind (does_createRun ?_) fun _ => trivial
      rintro run _ anchor leaves ⟨⟩
  | write write =>
      apply gated_of_onlyCalls
      refine Program.onlyCalls_bind (does_write ?_ fun _ _ => trivial)
        fun _ => trivial
      rintro row _ anchor leaves ⟨⟩
  | trigger global runId untilTs now id anchoredAt =>
      refine gated_bind ?_ fun _ _ _ => trivial
      exact gated_liftExcept_bind fun scope _ =>
        gated_anchorTick same accepts keeps
  | loopTick now id anchoredAt =>
      exact gated_bind (gated_anchorTick same accepts keeps)
        fun _ _ _ => trivial

end Ticks

/-- A receipt is one of its scope. -/
theorem mem_anchorsOf {rows : List Row} {anchor : Anchor}
    {leaves : List ChainedRow} (inserted : .anchor anchor leaves ∈ rows) :
    (anchor, leaves) ∈ anchorsOf (scopeOf anchor.runId) rows := by
  rw [anchorsOf, List.mem_filter, List.mem_filterMap]
  refine ⟨⟨_, inserted, rfl⟩, ?_⟩
  cases anchor.runId <;> simp [scopeOf, AnchorScope.runFilter]

/--
In every state the ledger reaches, the document of every receipt is where the
receipt says, and is accepted with the rows of the window as they were at some
earlier moment.
-/
theorem auditable_of_reachable
    {Client : Type} [DecidableEq Client] {runtime : Runtime}
    {crates : Crates} {signingKey : SigningKey} {sink : AnchorSink}
    (same : SameCrates runtime crates) (accepts : Accepts crates signingKey)
    (keeps : sink ≠ .noop) {world : LedgerWorld Client}
    (reached :
      Reachable
        (ledger ⟨runtime, load runtime signingKey, sink⟩ fun rows =>
          ∀ scope, anchorsOf scope rows = [])
        unrestricted world)
    {anchor : Anchor} {leaves : List ChainedRow}
    (inserted : .anchor anchor leaves ∈ world.shared.committed)
    (few : leaves.length < 2 ^ 63) :
    Auditable crates sink world.shared.emitted anchor leaves ∧
      ∃ collected, collected <+: world.shared.committed ∧
        leaves =
          collectRows (scopeOf anchor.runId) anchor.anchoredFrom
            anchor.anchoredTo collected := by
  have kept :
      Kept (documentsFirst crates sink) world := by
    refine kept_of_permitted ?_ (fun _ _ request _ =>
      gated_serve same accepts keeps request) reached
    rintro state ⟨isBase, quiet, _⟩
    refine ⟨?_, quiet, fun _ _ => trivial⟩
    rintro _ member anchor leaves rfl
    have listed := mem_anchorsOf member
    rw [isBase] at listed
    cases listed
  refine ⟨kept.committed _ inserted anchor leaves rfl few, ?_⟩
  rcases
      exists_collected
        (.free fun rows => ∀ scope, anchorsOf scope rows = [])
        (fun _ isBase => isBase (scopeOf anchor.runId))
        (history_free .events 0 reached) _ (mem_anchorsOf inserted) with
    ⟨collected, earlier, isWindow⟩
  exact ⟨collected, earlier, isWindow⟩

/-- A ledger with the flat crates, which keeps its documents in memory. -/
def flatService : Service :=
  ⟨flatRuntime, load flatRuntime stampKey, .memory⟩

/-- A receipt over this many leaves. -/
def isReceipt (count : Nat) : Row → Bool
  | .anchor _ leaves => leaves.length = count
  | _ => false

/-- The receipt of a tick over three rows is auditable. -/
theorem auditable_of_oneTick :
    ∃ (world : LedgerWorld Nat) (anchor : Anchor)
        (leaves : List ChainedRow),
      .anchor anchor leaves ∈ world.shared.committed ∧
        leaves.length = 3 ∧
          Auditable flatCrates .memory world.shared.emitted anchor
            leaves := by
  have starts :
      (ledger flatService fun rows =>
          ∀ scope, anchorsOf scope rows = []).initial
        (resting [runSeven, noted 1 1, noted 2 2, noted 3 3]) :=
    initial_resting fun _ => rfl
  rcases
      Reachable.exists_of_replay unrestricted_of_anyMove starts
        (.arrive 1
            (.trigger true none (some earlyTick.untilTs) earlyTick.untilTs
              earlyTick.id earlyTick.anchoredAt) ::
          answers 1 0 4)
        (fun world => world.shared.committed.any (isReceipt 3))
        (by decide +kernel) with
    ⟨world, reached, found⟩
  rcases List.any_eq_true.mp found with ⟨row, inserted, isAnchor⟩
  cases row with
  | run run => cases isAnchor
  | chained row => cases isAnchor
  | anchor anchor leaves =>
      have three : leaves.length = 3 := of_decide_eq_true isAnchor
      have few : leaves.length < 2 ^ 63 := by
        rw [three]
        decide
      exact ⟨world, anchor, leaves, inserted, three,
        (auditable_of_reachable sameCrates_flat accepts_stampKey
          (by rintro ⟨⟩) reached inserted few).1⟩

end Trackward.Ledger.AuditableAnchors
