import Trackward.Ledger.AnchorDocuments

/-!
# Signed manifests of anchors

The ledger signs the text a template gives for an anchor, and keeps no copy of
it.  The text is the canonical text of its members, in whatever order they are
listed.

A verifier that only has the row of an anchor builds the manifest again from
its columns.  It gets the signed text exactly when the columns keep the two
timestamps the tick did not read from the database: the end of its window and
the time of the receipt.
-/

namespace Trackward.Ledger.AnchorManifests

open Trackward.ChainCore.CanonicalJson
open Trackward.ChainCore.Chrono
open Trackward.ChainCore.Encode
open Trackward.ChainCore.JsonValue
open Trackward.ChainCore.Merkle
open Trackward.ChainCore.PlainTexts
open Trackward.Ledger.AnchorDocuments
open Trackward.Ledger.AnchorWindows
open Trackward.Ledger.Anchoring
open Trackward.Ledger.Chain
open Trackward.Ledger.Concurrency
open Trackward.Ledger.Models
open Trackward.Ledger.Routes
open Trackward.Ledger.Timestamps
open Trackward.Lib
open Trackward.Lib.KeyedLists
open Trackward.Lib.Octets
open Trackward.Lib.Programs
open Trackward.Lib.Transactions
open Trackward.Verifier.Bundle
open Trackward.Verifier.Reports

/-! ## Two encoders -/

/-- A manifest of one run. -/
def runManifest : AnchorManifest where
  version := "trackward-anchor-v1"
  scope := (AnchorScope.run 7).scopeStr
  anchoredFrom := .epoch
  anchoredTo := earlyTick.untilTs
  leafCount := 1
  rootHash := .replicate 32 1
  anchoredAt := earlyTick.anchoredAt

/--
The template of a manifest a tick builds gives the canonical text of the object
with the same members, in any order.
-/
theorem toCanonicalString_eq_canonicalJson
    {chrono : Formatter} {manifest : AnchorManifest} {scope : AnchorScope}
    {members : List Member}
    (timestamps : ∀ time, Plain (chrono.toRfc3339Micros time))
    (ofScope : manifest.scope = scope.scopeStr)
    (fixed : manifest.version = "trackward-anchor-v1")
    (listed : members.Perm (manifestMembers chrono manifest)) :
    toCanonicalString (.object members) =
      .ok (manifest.canonicalJson chrono) := by
  have plainScope : Plain manifest.scope := by
    rw [ofScope]
    exact plain_scopeStr scope
  have plainVersion : Plain manifest.version := by
    rw [fixed]
    decide
  have distinct :
      ((manifestMembers chrono manifest).map Prod.fst).Nodup := by
    simp [manifestMembers]
  have sorted :
      sortByKey Prod.fst members =
        sortByKey Prod.fst (manifestMembers chrono manifest) :=
    sortByKey_eq_of_perm ((listed.map Prod.fst).nodup_iff.mpr distinct) listed
  have template :=
    toCanonicalString_manifestMembers timestamps plainScope plainVersion
  rw [toCanonicalString, writeValue_object] at template ⊢
  rw [sorted]
  exact template

/-- The order in which the members are listed does not matter. -/
theorem toCanonicalString_runManifest :
    toCanonicalString
        (.object (manifestMembers rfc3339 runManifest).reverse) =
      .ok (runManifest.canonicalJson rfc3339) :=
  @toCanonicalString_eq_canonicalJson rfc3339 runManifest (.run 7) _
    plain_rfc3339 rfl rfl (List.reverse_perm _)

/-! ## From a row to its manifest -/

/-- The manifest a verifier builds from the row of an anchor. -/
def rebuild (anchor : Anchor) : Option AnchorManifest :=
  (Block.ofBytes? 32 anchor.rootHash).map fun root =>
    { version := "trackward-anchor-v1"
      scope := (scopeOf anchor.runId).scopeStr
      anchoredFrom := anchor.anchoredFrom.toDateTime
      anchoredTo := anchor.anchoredTo.toDateTime
      leafCount := anchor.leafCount
      rootHash := root
      anchoredAt := anchor.anchoredAt.toDateTime }

/-- The manifest a tick with these calls and answers signs. -/
def Signs (runtime : Runtime) (tick : Tick)
    (events : List (Program.Event ledgerDb)) (manifest : AnchorManifest) :
    Prop :=
  ∃ seen leaves root,
    events.head? = some ⟨.select, Except.ok seen⟩ ∧
      CollectedBy tick events leaves ∧
        computeRoot runtime.sha256 leaves.2 = .ok root ∧
          manifest =
            manifestOf tick (anchorWindowStart tick.scope seen) leaves.2 root

/--
The signed text is what a verifier builds from the row, and the signature of
the row passes over it.
-/
def Rebuilds (runtime : Runtime) (crates : Crates) (tick : Tick)
    (events : List (Program.Event ledgerDb)) (anchor : Anchor) : Prop :=
  ∃ manifest rebuilt,
    Signs runtime tick events manifest ∧ rebuild anchor = some rebuilt ∧
      rebuilt.canonicalJson runtime.chrono =
          manifest.canonicalJson runtime.chrono ∧
        checkSignature crates (rebuilt.canonicalJson runtime.chrono)
            (Hexadecimal.encode anchor.signature) anchor.publicKeyHex =
          .ok ()

/-- A tick signs one manifest. -/
theorem Signs.unique {runtime : Runtime} {tick : Tick}
    {events : List (Program.Event ledgerDb)}
    {manifest manifest' : AnchorManifest}
    (signs : Signs runtime tick events manifest)
    (signs' : Signs runtime tick events manifest') : manifest = manifest' := by
  rcases signs with ⟨seen, leaves, root, first, collected, computed, rfl⟩
  rcases signs' with ⟨seen', leaves', root', first', collected', computed', rfl⟩
  rw [first, Option.some.injEq] at first'
  cases first'
  rw [collected.unique collected', computed', Except.ok.injEq] at computed
  rw [collected.unique collected', computed]

/-! ## What the text keeps -/

/-- A text among the members of a manifest is read off its canonical text. -/
theorem string_eq_of_same {chrono : Formatter}
    {first second : AnchorManifest} {text text' : String} (key : String)
    (same :
      (Value.object (manifestMembers chrono first)).Same
        (.object (manifestMembers chrono second)))
    (first? :
      (Value.object (manifestMembers chrono first)).get key =
        some (.string text))
    (listed : (key, .string text') ∈ manifestMembers chrono second) :
    text = text' := by
  have formed :=
    wellFormed_of_flat (flat_manifestMembers chrono first)
      (by simp [manifestMembers])
  rcases Value.exists_get_of_same formed same listed with
    ⟨found, lookup, agrees⟩
  rw [first?, Option.some.injEq] at lookup
  subst lookup
  cases agrees
  rfl

/-- The text of a manifest shows which microseconds its timestamps lie in. -/
theorem sameMicros_of_canonicalJson {chrono : Formatter}
    (timestamps : ∀ time, Plain (chrono.toRfc3339Micros time))
    {first second : AnchorManifest}
    (scope : Plain first.scope) (version : Plain first.version)
    (scope' : Plain second.scope) (version' : Plain second.version)
    (texts : first.canonicalJson chrono = second.canonicalJson chrono) :
    first.anchoredTo.SameMicros second.anchoredTo ∧
      first.anchoredAt.SameMicros second.anchoredAt := by
  have written := toCanonicalString_manifestMembers timestamps scope version
  have written' :=
    toCanonicalString_manifestMembers timestamps scope' version'
  rw [← texts] at written'
  have same := same_of_toCanonicalString written written'
  rw [← chrono.text_eq_iff, ← chrono.text_eq_iff]
  constructor
  · exact
      string_eq_of_same "anchored_to" same rfl (by simp [manifestMembers])
  · exact
      string_eq_of_same "anchored_at" same rfl (by simp [manifestMembers])

/-- Other timestamps give the same text if they keep the microseconds. -/
theorem canonicalJson_update_eq_iff {chrono : Formatter}
    (timestamps : ∀ time, Plain (chrono.toRfc3339Micros time))
    {manifest : AnchorManifest} (scope : Plain manifest.scope)
    (version : Plain manifest.version) (upper minted : DateTime) :
    AnchorManifest.canonicalJson chrono
        { manifest with anchoredTo := upper, anchoredAt := minted } =
      manifest.canonicalJson chrono ↔
        upper.SameMicros manifest.anchoredTo ∧
          minted.SameMicros manifest.anchoredAt := by
  constructor
  · exact
      sameMicros_of_canonicalJson timestamps scope version scope version
  · rw [← chrono.text_eq_iff, ← chrono.text_eq_iff]
    rintro ⟨uppers, minteds⟩
    unfold AnchorManifest.canonicalJson
    dsimp only
    rw [uppers, minteds]

/-! ## What the columns keep -/

theorem sameMicros_comm {first second : DateTime} :
    first.SameMicros second ↔ second.SameMicros first := by
  rw [DateTime.SameMicros, DateTime.SameMicros, eq_comm (a := first.seconds),
    eq_comm (a := first.nanos / 1000)]

/-- The start of a window was read from the database, or is the epoch. -/
theorem toDateTime_windowStart {scope : AnchorScope} {seen : List Row}
    {stored : Timestamptz}
    (bound : toTimestamptz (anchorWindowStart scope seen) = some stored) :
    stored.toDateTime = anchorWindowStart scope seen := by
  rw [anchorWindowStart] at bound ⊢
  split at bound
  · rename_i last found
    rw [toTimestamptz_toDateTime, Option.some.injEq] at bound
    rw [bound]
  · rw [toTimestamptz_eq_some_iff] at bound
    have micros : stored.micros = -946684800 * 10 ^ 6 := bound
    apply DateTime.ext
    · show postgresEpoch + stored.micros / 10 ^ 6 = 0
      rw [micros]
      decide
    · show (stored.micros % 10 ^ 6).toNat * 1000 = 0
      rw [micros]
      decide

/-- What a verifier builds from the receipt of a tick. -/
theorem rebuild_receipt
    {signing : SigningService} {tick : Tick} {seen : List Row}
    {leaves : List Digest} {root : Digest} {signature : Block 64}
    {target : String} {anchor : Anchor}
    (made :
      receipt signing tick
          (manifestOf tick (anchorWindowStart tick.scope seen) leaves root)
          signature target =
        .ok anchor) :
    rebuild anchor =
        some
          { manifestOf tick (anchorWindowStart tick.scope seen) leaves root with
            anchoredTo := anchor.anchoredTo.toDateTime
            anchoredAt := anchor.anchoredAt.toDateTime } ∧
      toTimestamptz tick.untilTs = some anchor.anchoredTo ∧
        toTimestamptz tick.anchoredAt = some anchor.anchoredAt ∧
          anchor.signature = signature.bytes ∧
            anchor.publicKeyHex = signing.publicKeyHex := by
  rcases bind_eq_ok_iff.mp made with ⟨anchoredFrom, fromBound, rest⟩
  rcases bind_eq_ok_iff.mp rest with ⟨anchoredTo, toBound, rest⟩
  rcases bind_eq_ok_iff.mp rest with ⟨anchoredAt, atBound, ⟨⟩⟩
  rw [bindTimestamp_eq_ok_iff] at fromBound toBound atBound
  refine ⟨?_, toBound, atBound, rfl, rfl⟩
  have lower := toDateTime_windowStart fromBound
  have bytes : Block.ofBytes? 32 root.bytes = some root :=
    Block.ofBytes?_eq_some_iff.mpr rfl
  simp only [rebuild, manifestOf, bytes, lower, scopeOf_runFilter,
    Option.map_some]

/-- The row gives back the signed text iff its columns keep both timestamps. -/
theorem canonicalJson_rebuilt_iff {chrono : Formatter}
    (timestamps : ∀ time, Plain (chrono.toRfc3339Micros time))
    (tick : Tick) (lower : DateTime) (leaves : List Digest) (root : Digest)
    {anchoredTo anchoredAt : Timestamptz}
    (toBound : toTimestamptz tick.untilTs = some anchoredTo)
    (atBound : toTimestamptz tick.anchoredAt = some anchoredAt) :
    AnchorManifest.canonicalJson chrono
        { manifestOf tick lower leaves root with
          anchoredTo := anchoredTo.toDateTime
          anchoredAt := anchoredAt.toDateTime } =
      (manifestOf tick lower leaves root).canonicalJson chrono ↔
        Storable tick.untilTs ∧ Storable tick.anchoredAt := by
  have version : Plain (manifestOf tick lower leaves root).version := by
    show Plain "trackward-anchor-v1"
    decide
  rw [← sameMicros_toDateTime_iff toBound,
    ← sameMicros_toDateTime_iff atBound, sameMicros_comm,
    @sameMicros_comm tick.anchoredAt]
  exact
    canonicalJson_update_eq_iff timestamps (plain_scopeStr tick.scope)
      version _ _

/-! ## What a tick commits -/

/-- The receipt a tick inserts is that of the manifest it signs. -/
theorem signs_of_published
    {runtime : Runtime} {signing : SigningService} {sink : AnchorSink}
    {tick : Tick} {events : List (Program.Event ledgerDb)}
    {outcome : Except Exit (Option Anchor)} {anchor : Anchor}
    {rows : List ChainedRow}
    (ran : (anchorTick runtime signing sink tick).Executes events outcome)
    (published : ∃ event ∈ events, event.op = .publish (.anchor anchor rows)) :
    ∃ seen leaves root target,
      Signs runtime tick events
          (manifestOf tick (anchorWindowStart tick.scope seen) leaves root) ∧
        receipt signing tick
            (manifestOf tick (anchorWindowStart tick.scope seen) leaves root)
            (signing.sign
              (utf8
                ((manifestOf tick (anchorWindowStart tick.scope seen) leaves
                    root).canonicalJson runtime.chrono)))
            target =
          .ok anchor := by
  rcases published with ⟨event, member, publishes⟩
  have other : ¬ IsSelect event.op := by
    rw [publishes]
    rintro ⟨⟩
  rcases executes_anchorTick ran ⟨event, member, other⟩ with
    ⟨seen, read, minted, leaves, minting, rfl, reading, nonempty, made⟩
  have exists_root :
      ∃ root, computeRoot runtime.sha256 leaves.2 = .ok root :=
    (computeRoot_isOk_iff leaves.2).mpr nonempty
  rcases exists_root with ⟨root, computed⟩
  have inMinted : event ∈ minted := by
    rcases List.mem_cons.mp member with rfl | member
    · exact absurd rfl other
    · rcases List.mem_append.mp member with inRead | inMinted
      · exact
          absurd ⟨event, inRead, other⟩ (isSelect_of_collectLeaves reading)
      · exact inMinted
  have mints :=
    Program.allowed_of_executes (onlyCalls_mintAnchor computed) made event
      inMinted
  rw [publishes] at mints
  rcases mints with ⟨anchor', target, ⟨⟩, received⟩
  exact
    ⟨seen, leaves.2, root, target,
      ⟨seen, leaves, root, rfl, ⟨seen, read, minted, rfl, reading⟩, computed,
        rfl⟩,
      received⟩

/-- With both timestamps kept, the row gives back what was signed. -/
theorem rebuilds_of_storable
    {runtime : Runtime} {crates : Crates} {signingKey : SigningKey}
    {sink : AnchorSink} {tick : Tick}
    {events : List (Program.Event ledgerDb)}
    {outcome : Except Exit (Option Anchor)} {anchor : Anchor}
    {rows : List ChainedRow}
    (timestamps : ∀ time, Plain (runtime.chrono.toRfc3339Micros time))
    (same : SameDigests runtime crates) (accepts : Accepts crates signingKey)
    (ran :
      (anchorTick runtime (load runtime signingKey) sink tick).Executes events
        outcome)
    (published : ∃ event ∈ events, event.op = .publish (.anchor anchor rows))
    (kept : Storable tick.untilTs ∧ Storable tick.anchoredAt) :
    Rebuilds runtime crates tick events anchor := by
  rcases signs_of_published ran published with
    ⟨seen, leaves, root, target, signs, received⟩
  rcases rebuild_receipt received with
    ⟨rebuilt, toBound, atBound, signature, publicKey⟩
  have texts :=
    (canonicalJson_rebuilt_iff timestamps tick
      (anchorWindowStart tick.scope seen) leaves root toBound atBound).mpr kept
  refine ⟨_, _, signs, rebuilt, texts, ?_⟩
  rw [texts, signature, publicKey]
  exact checkSignature_of_accepts same accepts _

/-- A row that gives back what was signed has kept both timestamps. -/
theorem storable_of_rebuilds
    {runtime : Runtime} {crates : Crates} {signing : SigningService}
    {sink : AnchorSink} {tick : Tick}
    {events : List (Program.Event ledgerDb)}
    {outcome : Except Exit (Option Anchor)} {anchor : Anchor}
    {rows : List ChainedRow}
    (timestamps : ∀ time, Plain (runtime.chrono.toRfc3339Micros time))
    (ran : (anchorTick runtime signing sink tick).Executes events outcome)
    (published : ∃ event ∈ events, event.op = .publish (.anchor anchor rows))
    (rebuilds : Rebuilds runtime crates tick events anchor) :
    Storable tick.untilTs ∧ Storable tick.anchoredAt := by
  rcases signs_of_published ran published with
    ⟨seen, leaves, root, target, signs, received⟩
  rcases rebuild_receipt received with ⟨rebuilt, toBound, atBound, _, _⟩
  rcases rebuilds with ⟨manifest, rebuilt', signs', found, texts, _⟩
  rw [rebuilt, Option.some.injEq] at found
  rw [signs'.unique signs, ← found] at texts
  exact
    (canonicalJson_rebuilt_iff timestamps tick
      (anchorWindowStart tick.scope seen) leaves root toBound atBound).mp texts

/-- A tick of the global scope over a window that ends in a leap second. -/
def leapTick : Tick :=
  { earlyTick with
    untilTs :=
      { seconds := 1924991999
        nanos := 10 ^ 9
        nanos_lt := by decide
        leap := by decide
        low := by decide
        high := by decide } }

/-- A tick that starts over with one row commits an anchor. -/
theorem exists_published {tick : Tick} {upper minted : Timestamptz}
    (scope : tick.scope = .global)
    (later : ¬ tick.untilTs ≤ DateTime.epoch)
    (upperBound : bindTimestamp tick.untilTs = .ok upper)
    (mintedBound : bindTimestamp tick.anchoredAt = .ok minted)
    (inside : 1 ≤ upper.micros) :
    ∃ events anchor rows,
      (anchorTick flatRuntime (load flatRuntime stampKey) .memory
          tick).Executes events (.ok (some anchor)) ∧
        ∃ event ∈ events, event.op = .publish (.anchor anchor rows) := by
  have digested :
      leafDigests
          (collectRows tick.scope ⟨-946684800000000, by decide, by decide⟩
            upper [noted 1 1]) =
        .ok [.replicate 32 1] := by
    have inWindow :
        collectRows tick.scope ⟨-946684800000000, by decide, by decide⟩
            upper [noted 1 1] =
          chainedRows [noted 1 1] := by
      rw [collectRows, scope, List.filter_eq_self.mpr]
      · rfl
      · intro row member
        cases List.mem_singleton.mp member
        simp only [Bool.and_eq_true, decide_eq_true_eq]
        exact ⟨⟨⟨by decide, inside⟩, by decide⟩, rfl⟩
    rw [inWindow]
    rfl
  rcases
    @exists_shipped flatRuntime (load flatRuntime stampKey) tick [] [noted 1 1]
      _ _ _ _ (by rw [scope]; exact later) (by rw [scope]; rfl) upperBound
      mintedBound digested (by simp) with
    ⟨events, anchor, _, _, ran, _, ⟨event, member, rows, published⟩, _⟩
  exact ⟨events, anchor, rows, ran, event, member, published⟩

/--
The manifest built from the row of a committed anchor is the signed one, and
the signature of the row passes over it, exactly when the end of the window and
the time of the receipt are both outside a leap second and, before 2000, whole
microseconds.
-/
theorem rebuilds_iff_storable
    {runtime : Runtime} {crates : Crates} {signingKey : SigningKey}
    {sink : AnchorSink} {tick : Tick}
    {events : List (Program.Event ledgerDb)}
    {outcome : Except Exit (Option Anchor)} {anchor : Anchor}
    {rows : List ChainedRow}
    (timestamps : ∀ time, Plain (runtime.chrono.toRfc3339Micros time))
    (same : SameDigests runtime crates) (accepts : Accepts crates signingKey)
    (ran :
      (anchorTick runtime (load runtime signingKey) sink tick).Executes events
        outcome)
    (published :
      ∃ event ∈ events, event.op = .publish (.anchor anchor rows)) :
    Rebuilds runtime crates tick events anchor ↔
      Storable tick.untilTs ∧ Storable tick.anchoredAt := by
  constructor
  · exact storable_of_rebuilds timestamps ran published
  · exact rebuilds_of_storable timestamps same accepts ran published

/-- The row of an early tick gives back what was signed. -/
theorem rebuilds_earlyTick :
    ∃ events anchor,
      (anchorTick flatRuntime (load flatRuntime stampKey) .memory
          earlyTick).Executes events (.ok (some anchor)) ∧
        Rebuilds flatRuntime flatCrates earlyTick events anchor := by
  rcases
    @exists_published earlyTick ⟨2000000, by decide, by decide⟩
      ⟨3000000, by decide, by decide⟩ rfl (by decide) rfl rfl (by decide) with
    ⟨events, anchor, rows, ran, published⟩
  exact
    ⟨events, anchor, ran,
      (rebuilds_iff_storable sameCrates_flat.timestamps
          sameCrates_flat.digests
          accepts_stampKey ran published).mpr
        (by decide)⟩

/-- A window that ends in a leap second is signed as it is not stored. -/
theorem not_rebuilds_leapTick :
    ∃ events anchor,
      (anchorTick flatRuntime (load flatRuntime stampKey) .memory
          leapTick).Executes events (.ok (some anchor)) ∧
        ¬ Rebuilds flatRuntime flatCrates leapTick events anchor := by
  rcases
    @exists_published leapTick ⟨978307200000000, by decide, by decide⟩
      ⟨3000000, by decide, by decide⟩ rfl (by decide) rfl rfl (by decide) with
    ⟨events, anchor, rows, ran, published⟩
  refine ⟨events, anchor, ran, ?_⟩
  intro rebuilds
  have kept := storable_of_rebuilds sameCrates_flat.timestamps ran published rebuilds
  exact absurd kept.1 (by decide)

end Trackward.Ledger.AnchorManifests
