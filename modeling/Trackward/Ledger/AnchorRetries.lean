import Trackward.ChainCore.UuidTexts
import Trackward.Ledger.AnchorWindows
import Trackward.Ledger.Writes
import Trackward.Lib.Admission
import Trackward.Lib.Progress

/-!
# Ticks that fail and are tried again

A tick ships its document and then inserts its receipt, in two systems and in
no transaction.  Any of its statements may fail, and its client may be gone at
any time.

A tick that fails has inserted nothing, so the next one starts where it had
started; what it has shipped stays behind under its own key.  When the ticks of
a scope run one at a time, each one reads the windows that are there when it
inserts its own.
-/

namespace Trackward.Ledger.AnchorRetries

open Trackward.ChainCore.Chrono
open Trackward.ChainCore.Encode
open Trackward.ChainCore.JsonValue
open Trackward.ChainCore.UuidTexts
open Trackward.Ledger.Anchoring
open Trackward.Ledger.AnchorWindows
open Trackward.Ledger.Chain
open Trackward.Ledger.Concurrency
open Trackward.Ledger.Models
open Trackward.Ledger.Routes
open Trackward.Ledger.Timestamps
open Trackward.Ledger.Writes
open Trackward.Lib
open Trackward.Lib.Admission
open Trackward.Lib.Octets
open Trackward.Lib.Programs
open Trackward.Lib.Runs
open Trackward.Lib.Sessions
open Trackward.Lib.Transactions
open Trackward.Lib.Windows

/-! ## Documents -/

/-- The key a tick ships its document under. -/
def keyOf (tick : Tick) : String :=
  tick.scope.keySegment ++ "/" ++ uuidText tick.id ++ ".json"

/-- Where a sink says that it put a document. -/
def target (sink : AnchorSink) (key : String) : String :=
  match sink with
  | .s3 bucket => "s3://" ++ bucket ++ "/" ++ key
  | .memory => "memory://" ++ key
  | .noop => "noop://" ++ key

/-- The document of a manifest. -/
def documentOf (service : Service) (manifest : AnchorManifest) : Bytes :=
  service.runtime.jsonToVec
    (anchorDoc service.runtime service.signing
      (manifest.canonicalJson service.runtime.chrono))

/-- What was put under a key, in order. -/
def putUnder (key : String) (emitted : List Effect) : List Bytes :=
  emitted.filterMap fun effect =>
    match effect with
    | .document other bytes => if other = key then some bytes else none
    | .blob _ _ => none

/-- The root, the count and the signature of a row are those of a manifest. -/
structure Receipts (service : Service) (manifest : AnchorManifest)
    (anchor : Anchor) : Prop where
  rootHash : anchor.rootHash = manifest.rootHash.bytes
  leafCount : anchor.leafCount = manifest.leafCount
  signature :
    anchor.signature =
      (service.signing.sign
        (utf8 (manifest.canonicalJson service.runtime.chrono))).bytes

/--
The row names what was put under a key: one document, whose manifest and
signature are those of the row.
-/
def DocumentedUnder (service : Service) (emitted : List Effect)
    (key : String) (anchor : Anchor) : Prop :=
  ∃ manifest,
    anchor.anchorTarget = target service.sink key ∧
      putUnder key emitted = [documentOf service manifest] ∧
        Receipts service manifest anchor

/-- The row names a document that has been put there, once and for all. -/
def Documented (service : Service) (emitted : List Effect)
    (anchor : Anchor) : Prop :=
  ∃ key, DocumentedUnder service emitted key anchor

theorem putUnder_append (key : String) (first second : List Effect) :
    putUnder key (first ++ second) =
      putUnder key first ++ putUnder key second := by
  simp [putUnder]

theorem putUnder_of_ne {key other : String} (different : other ≠ key)
    (bytes : Bytes) : putUnder key [.document other bytes] = [] := by
  simp [putUnder, different]

/-- The key of a tick says which one it is. -/
theorem id_eq_of_keyOf_eq {first second : Tick}
    (same : keyOf first = keyOf second) : first.id = second.id := by
  have texts := congrArg String.toList same
  simp only [keyOf, String.toList_append, List.append_assoc] at texts
  have sizes :
      ((uuidText first.id).toList ++ ".json".toList).length =
        ((uuidText second.id).toList ++ ".json".toList).length := by
    rw [List.length_append, List.length_append, length_uuidText,
      length_uuidText]
  rw [← List.append_assoc,
    ← List.append_assoc (AnchorScope.keySegment _).toList] at texts
  have ends := (List.append_inj' texts sizes).2
  apply uuidText_injective
  exact String.toList_injective (List.append_cancel_right ends)

/-! ## What a tick does -/

/-- The effects of these calls. -/
def shipped (past : List (Program.Event ledgerDb)) : List Effect :=
  past.flatMap fun event => made event.op event.answer

/-- A tick may insert this receipt after these calls. -/
structure Insertable (service : Service) (tick : Tick)
    (past : List (Program.Event ledgerDb)) (anchor : Anchor)
    (leaves : List ChainedRow) : Prop where
  minted :
    ∃ seen collected rest,
      past = ⟨.select, Except.ok seen⟩ :: rest ∧
        Minted service tick seen collected anchor leaves
  documented :
    service.sink ≠ .noop →
      DocumentedUnder service (shipped past) (keyOf tick) anchor

/-- A call of a tick suits the calls before it. -/
def TickCall (service : Service) (tick : Tick)
    (past : List (Program.Event ledgerDb)) :
    Op Int64 Row Effect → Prop
  | .select => True
  | .emit effect =>
      shipped past = [] ∧ ∃ bytes, effect = .document (keyOf tick) bytes
  | .publish row =>
      ∃ anchor leaves,
        row = .anchor anchor leaves ∧
          Insertable service tick past anchor leaves
  | .begin | .lock _ | .insert _ | .commit => False

/-- A call for a request suits the calls before it. -/
def SessionCall (service : Service) (request : Request)
    (past : List (Program.Event ledgerDb)) (op : ledgerDb.Op) : Prop :=
  match request.tick? with
  | some tick => written past = [] ∧ TickCall service tick past op
  | none =>
      Op.Does (fun row => Row.anchor? row = none)
        (fun effect => ∀ key, putUnder key [effect] = []) op

/-- A tick that has failed has inserted nothing. -/
def SessionEnd {α : Type} (request : Request)
    (past : List (Program.Event ledgerDb)) (outcome : Except Exit α) :
    Prop :=
  ∀ tick exit, request.tick? = some tick → outcome = .error exit →
    written past = []

section Tracks

variable {each : List (Program.Event ledgerDb) → ledgerDb.Op → Prop}
variable {past : List (Program.Event ledgerDb)}

theorem tracks_attempt_bind {α : Type}
    {ends : List (Program.Event ledgerDb) → Except Exit α → Prop}
    {op : Op Int64 Row Effect} {wrap : Fault → Exit}
    {next : Reply op → Handler α}
    (suits : each past op)
    (failed :
      ∀ fault, ends (past ++ [⟨op, Except.error fault⟩]) (.error (wrap fault)))
    (later :
      ∀ reply,
        (next reply).Tracks each ends (past ++ [⟨op, Except.ok reply⟩])) :
    (attempt op wrap >>= next : Handler α).Tracks each ends past := by
  refine ⟨suits, fun answer => ?_⟩
  cases answer with
  | error fault => exact failed fault
  | ok reply => exact later reply

theorem tracks_liftExcept_bind {α β : Type}
    {ends : List (Program.Event ledgerDb) → Except Exit β → Prop}
    {result : Except Exit α} {next : α → Handler β}
    (failed : ∀ exit, ends past (.error exit))
    (later :
      ∀ value, result = .ok value → (next value).Tracks each ends past) :
    (liftExcept result >>= next).Tracks each ends past := by
  cases result with
  | ok value => exact later value rfl
  | error exit => exact failed exit

/-- Whatever the sink, the document is put once and its place is told. -/
theorem tracks_put {sink : AnchorSink} {key : String} {bytes : Bytes}
    {ends : List (Program.Event ledgerDb) → Except Exit String → Prop}
    (suits : each past (.emit (.document key bytes)))
    (failed :
      ∀ fault exit,
        ends (past ++ [⟨.emit (.document key bytes), Except.error fault⟩])
          (.error exit))
    (silent : sink = .noop → ends past (.ok (target .noop key)))
    (loud :
      ends (past ++ [⟨.emit (.document key bytes), Except.ok ()⟩])
        (.ok (target sink key))) :
    (sink.put key bytes).Tracks each ends past := by
  cases sink with
  | noop => exact silent rfl
  | s3 bucket | memory =>
      exact
        tracks_attempt_bind suits (fun fault => failed fault _) fun _ => loud

theorem receipts_of_receipt {service : Service} {tick : Tick}
    {manifest : AnchorManifest} {target : String} {anchor : Anchor}
    (made :
      receipt service.signing tick manifest
          (service.signing.sign
            (utf8 (manifest.canonicalJson service.runtime.chrono)))
          target =
        .ok anchor) :
    anchor.anchorTarget = target ∧ Receipts service manifest anchor := by
  rcases bind_eq_ok_iff.mp made with ⟨_, _, rest⟩
  rcases bind_eq_ok_iff.mp rest with ⟨_, _, rest⟩
  rcases bind_eq_ok_iff.mp rest with ⟨_, _, ⟨⟩⟩
  exact ⟨rfl, rfl, rfl, rfl⟩

end Tracks

section Ticks

variable {service : Service} {request : Request} {tick : Tick}
variable {past : List (Program.Event ledgerDb)}

theorem sessionCall_of_tick (isTick : request.tick? = some tick)
    {op : ledgerDb.Op} (untouched : written past = [])
    (suits : TickCall service tick past op) :
    SessionCall service request past op := by
  rw [SessionCall, isTick]
  exact ⟨untouched, suits⟩

/-- The leaves are collected in one more read. -/
theorem tracks_collectLeaves {scope : AnchorScope} {lower upper : DateTime}
    {ends :
      List (Program.Event ledgerDb) →
        Except Exit (List ChainedRow × List Digest) → Prop}
    {each : List (Program.Event ledgerDb) → ledgerDb.Op → Prop}
    (suits : each past .select)
    (failed : ∀ exit, ends past (.error exit))
    (failedLater :
      ∀ answer exit, ends (past ++ [⟨.select, answer⟩]) (.error exit))
    (collects :
      ∀ rows stored stored' digests,
        toTimestamptz lower = some stored →
          toTimestamptz upper = some stored' →
            leafDigests (collectRows scope stored stored' rows) =
                .ok digests →
              ends (past ++ [⟨.select, Except.ok rows⟩])
                (.ok (collectRows scope stored stored' rows, digests))) :
    (collectLeaves scope lower upper).Tracks each ends past := by
  refine tracks_liftExcept_bind failed fun stored bound => ?_
  refine tracks_liftExcept_bind failed fun stored' bound' => ?_
  refine tracks_attempt_bind suits (fun fault => failedLater _ _) fun rows => ?_
  refine tracks_liftExcept_bind (fun exit => failedLater _ _)
    fun digests digested => ?_
  rw [bindTimestamp_eq_ok_iff] at bound bound'
  exact collects rows stored stored' digests bound bound' digested

/-- A call that fails writes nothing. -/
theorem written_of_error {op : Op Int64 Row Effect} {fault : Fault}
    (untouched : written past = []) :
    written (past ++ [⟨op, Except.error fault⟩]) = [] := by
  rw [written_append, untouched]
  cases op <;> rfl

/-- The receipt is inserted last. -/
theorem tracks_insertReceipt {manifest : AnchorManifest}
    {signature : Block 64} {target : String} {leaves : List ChainedRow}
    (isTick : request.tick? = some tick) (untouched : written past = [])
    (insertable :
      ∀ anchor,
        receipt service.signing tick manifest signature target = .ok anchor →
          Insertable service tick past anchor leaves) :
    (liftExcept (receipt service.signing tick manifest signature target) >>=
        fun anchor => query (.publish (.anchor anchor leaves)) >>= fun _ =>
          (pure anchor : Handler Anchor)).Tracks
      (SessionCall service request) (SessionEnd request) past := by
  refine tracks_liftExcept_bind (fun _ _ _ _ _ => untouched)
    fun anchor made => ?_
  apply tracks_attempt_bind
  · exact
      sessionCall_of_tick isTick untouched
        ⟨anchor, leaves, rfl, insertable anchor made⟩
  · intro fault _ _ _ _
    exact written_of_error untouched
  · rintro _ _ _ _ ⟨⟩

/-- A tick ships its document, then inserts its receipt. -/
theorem tracks_mintAnchor {seen collected : List Row}
    {lower upper : Timestamptz} {digests : List Digest}
    (isTick : request.tick? = some tick)
    (untouched : written past = []) (unshipped : shipped past = [])
    {rest : List (Program.Event ledgerDb)}
    (read : past = ⟨.select, Except.ok seen⟩ :: rest)
    (lowerBound :
      toTimestamptz (anchorWindowStart tick.scope seen) = some lower)
    (upperBound : toTimestamptz tick.untilTs = some upper)
    (digested :
      leafDigests (collectRows tick.scope lower upper collected) =
        .ok digests)
    (nonempty : digests ≠ []) :
    (mintAnchor service.runtime service.signing service.sink tick
        (anchorWindowStart tick.scope seen)
        (collectRows tick.scope lower upper collected, digests)).Tracks
      (SessionCall service request) (SessionEnd request) past := by
  refine tracks_liftExcept_bind (fun _ _ _ _ _ => untouched)
    fun root computed => ?_
  have minted (anchor : Anchor) (target : String) (signature : Block 64)
      (made :
        receipt service.signing tick
            { version := "trackward-anchor-v1"
              scope := tick.scope.scopeStr
              anchoredFrom := anchorWindowStart tick.scope seen
              anchoredTo := tick.untilTs
              leafCount := Int64.ofNat digests.length
              rootHash := root
              anchoredAt := tick.anchoredAt }
            signature target =
          .ok anchor) :
      Minted service tick seen collected anchor
        (collectRows tick.scope lower upper collected) :=
    minted_of_receipt lowerBound upperBound digested nonempty computed
      ⟨rfl, rfl, rfl, rfl⟩ made
  apply Program.tracks_bind
  apply tracks_put
  · exact sessionCall_of_tick isTick untouched ⟨unshipped, _, rfl⟩
  · intro fault exit _ _ _ _
    exact written_of_error untouched
  · intro silent
    apply tracks_insertReceipt isTick untouched
    intro anchor made
    exact ⟨⟨seen, collected, rest, read, minted _ _ _ made⟩,
      fun loud => absurd silent loud⟩
  · apply tracks_insertReceipt isTick
    · rw [written_append, untouched]
      rfl
    · intro anchor made
      rcases receipts_of_receipt made with ⟨isTarget, receipts⟩
      refine ⟨⟨seen, collected, _, by rw [read]; rfl, minted _ _ _ made⟩,
        fun _ => ⟨_, isTarget, ?_, receipts⟩⟩
      rw [shipped, List.flatMap_append, ← shipped, unshipped]
      exact List.filterMap_cons_some (if_pos rfl)

theorem tracks_anchorTick (isTick : request.tick? = some tick) :
    (anchorTick service.runtime service.signing service.sink tick).Tracks
      (SessionCall service request) (SessionEnd request) [] := by
  refine tracks_attempt_bind (sessionCall_of_tick isTick rfl trivial)
    (fun _ _ _ _ _ => rfl) fun seen => ?_
  dsimp only
  split
  · rintro _ _ _ ⟨⟩
  · apply Program.tracks_bind
    apply tracks_collectLeaves (sessionCall_of_tick isTick rfl trivial)
    · exact fun _ _ _ _ _ => rfl
    · intro answer _ _ _ _ _
      cases answer <;> rfl
    · intro rows lower upper digests lowerBound upperBound digested
      show (if _ then _ else _ : Handler (Option Anchor)).Tracks _ _ _
      split
      · rintro _ _ _ ⟨⟩
      · rename_i filled
        apply Program.tracks_bind
        refine Program.Tracks.weaken ?_
          (tracks_mintAnchor isTick rfl rfl rfl lowerBound upperBound
            digested (by simpa using filled))
        intro later outcome ended
        cases outcome with
        | ok anchor => rintro _ _ _ ⟨⟩
        | error exit => exact fun _ _ isTick' _ => ended _ _ isTick' rfl

/-- Other requests neither insert receipts nor ship documents. -/
theorem does_serve_of_noTick (noTick : request.tick? = none) :
    (serve service request).OnlyCalls
      (Op.Does (fun row => Row.anchor? row = none)
        fun effect => ∀ key, putUnder key [effect] = []) := by
  cases request with
  | createRun actor id input =>
      exact
        Program.onlyCalls_bind (does_createRun fun _ _ => rfl)
          fun _ => trivial
  | write write =>
      exact
        Program.onlyCalls_bind (does_write (fun _ _ => rfl) fun _ _ _ => rfl)
          fun _ => trivial
  | trigger global runId untilTs now id anchoredAt =>
      cases named : triggerScope global runId with
      | ok scope =>
          rw [Request.tick?, named] at noTick
          cases noTick
      | error exit =>
          rw [serve, trigger, named]
          trivial
  | loopTick now id anchoredAt => cases noTick

theorem tracks_ticked {handler : Handler (Option Anchor)}
    (tracks :
      handler.Tracks (SessionCall service request) (SessionEnd request) past) :
    (handler >>= fun _ => (pure none : Handler (Option Row))).Tracks
      (SessionCall service request) (SessionEnd request) past := by
  apply Program.tracks_bind
  refine Program.Tracks.weaken ?_ tracks
  intro later outcome ended
  cases outcome with
  | ok anchor => rintro _ _ _ ⟨⟩
  | error exit => exact fun _ _ isTick _ => ended _ _ isTick rfl

/-- Every handler makes the calls that suit its request. -/
theorem tracks_serve (service : Service) (request : Request) :
    (serve service request).Tracks (SessionCall service request)
      (SessionEnd request) [] := by
  cases isTick : request.tick? with
  | none =>
      have suits (past : List (Program.Event ledgerDb)) (op : ledgerDb.Op)
          (does :
            Op.Does (fun row => Row.anchor? row = none)
              (fun effect => ∀ key, putUnder key [effect] = []) op) :
          SessionCall service request past op := by
        rw [SessionCall, isTick]
        exact does
      refine Program.Tracks.weaken ?_
        (Program.tracks_of_onlyCalls (does_serve_of_noTick isTick)
          fun _ op _ => suits _ op)
      intro past outcome _ tick exit isTick'
      rw [isTick] at isTick'
      cases isTick'
  | some tick =>
      cases request with
      | createRun | write => cases isTick
      | loopTick now id anchoredAt =>
          cases isTick
          exact tracks_ticked (tracks_anchorTick rfl)
      | trigger global runId untilTs now id anchoredAt =>
          apply tracks_ticked
          have isTick' := isTick
          rw [Request.tick?] at isTick'
          cases named : triggerScope global runId with
          | error exit =>
              rw [named] at isTick'
              cases isTick'
          | ok scope =>
              rw [named] at isTick'
              cases isTick'
              rw [trigger, named]
              exact tracks_anchorTick isTick

end Ticks

/-! ## What a tick remembers -/

section Calls

variable {Client : Type} {service : Service} {scope : AnchorScope}
variable {tick : Tick} {past : List (Program.Event ledgerDb)}
variable {arrival : List (Anchor × List ChainedRow)}

/--
Under its key there is what the tick has put there, and until it inserts its
receipt the anchors are those that were there when it arrived.
-/
structure Remembers (scope : AnchorScope) (tick : Tick)
    (arrival : List (Anchor × List ChainedRow))
    (past : List (Program.Event ledgerDb)) (shared : Db Client) : Prop where
  shipped :
    putUnder (keyOf tick) shared.emitted =
      putUnder (keyOf tick) (shipped past)
  seen :
    tick.scope = scope → ∀ rows,
      ⟨.select, Except.ok rows⟩ ∈ past → anchorsOf scope rows = arrival
  current :
    tick.scope = scope → written past = [] →
      anchorsOf scope shared.committed = arrival

/-- Nothing that a tick remembers has changed. -/
structure Undisturbing (scope : AnchorScope) (tick : Tick)
    (before after : Db Client) : Prop where
  shipped :
    putUnder (keyOf tick) after.emitted = putUnder (keyOf tick) before.emitted
  anchors :
    tick.scope = scope →
      anchorsOf scope after.committed = anchorsOf scope before.committed

theorem Remembers.undisturbed {before after : Db Client}
    (remembers : Remembers scope tick arrival past before)
    (undisturbing : Undisturbing scope tick before after) :
    Remembers scope tick arrival past after where
  shipped := undisturbing.shipped.trans remembers.shipped
  seen := remembers.seen
  current := fun same untouched =>
    (undisturbing.anchors same).trans (remembers.current same untouched)

/-- The windows adjoin, and every receipt has its document. -/
structure Sound (service : Service) (scope : AnchorScope)
    (shared : Db Client) : Prop where
  windows : Adjoining epochMicros (windowsOf scope shared.committed)
  documents :
    service.sink ≠ .noop → ∀ anchor ∈ anchorsOf scope shared.committed,
      Documented service shared.emitted anchor.1
  pending :
    ∀ client, ∀ row ∈ shared.pending client, Row.anchor? row = none

theorem anchorsOf_of_none {rows : List Row}
    (none : ∀ row ∈ rows, Row.anchor? row = none) :
    anchorsOf scope rows = [] := by
  rw [anchorsOf, List.filterMap_eq_nil_iff.mpr none, List.filter_nil]

/-- A receipt that a tick may insert follows on from the ones that are there. -/
theorem start_eq_latest {rows collected committed : List Row}
    {anchor : Anchor} {leaves : List ChainedRow}
    (adjoining : Adjoining epochMicros (windowsOf scope committed))
    (same : tick.scope = scope)
    (current : anchorsOf scope rows = anchorsOf scope committed)
    (minted : Minted service tick rows collected anchor leaves) :
    (windowOf anchor).start =
      latest epochMicros (windowsOf scope committed) := by
  have windows : windowsOf scope rows = windowsOf scope committed := by
    rw [windowsOf, windowsOf, current]
  rw [← windows] at adjoining ⊢
  have starts := minted.from_eq
  rw [same] at starts
  exact micros_of_anchorWindowStart adjoining.origin_le starts

/-- What the call of a tick does to the state, to itself and to others. -/
structure Advances (service : Service) (scope : AnchorScope) (tick : Tick)
    (arrival : List (Anchor × List ChainedRow))
    (past : List (Program.Event ledgerDb)) (before after : Db Client) :
    Prop where
  sound : Sound service scope after
  remembers : Remembers scope tick arrival past after
  others :
    ∀ other : Tick, other.id ≠ tick.id →
      (tick.scope = scope → other.scope ≠ scope) →
        Undisturbing scope other before after

theorem shipped_concat (event : Program.Event ledgerDb) :
    shipped (past ++ [event]) =
      shipped past ++ made event.op event.answer := by
  rw [shipped, shipped, List.flatMap_append, List.flatMap_singleton]

theorem advances_error {shared : Db Client} {op : Op Int64 Row Effect}
    {fault : Fault} (sound : Sound service scope shared)
    (remembers : Remembers scope tick arrival past shared)
    (untouched : written past = []) :
    Advances service scope tick arrival (past ++ [⟨op, Except.error fault⟩])
      shared shared := by
  have silent :
      made op (Except.error fault : Except Fault (Reply op)) = [] := by
    cases op <;> rfl
  refine
    ⟨sound, ⟨?_, ?_, fun same _ => remembers.current same untouched⟩,
      fun _ _ _ => ⟨rfl, fun _ => rfl⟩⟩
  · rw [remembers.shipped, shipped_concat, silent, List.append_nil]
  · intro same rows read
    rcases List.mem_append.mp read with earlier | last
    · exact remembers.seen same rows earlier
    · cases List.mem_singleton.mp last

theorem advances_select {shared : Db Client} {client : Client}
    (sound : Sound service scope shared)
    (remembers : Remembers scope tick arrival past shared)
    (untouched : written past = []) :
    Advances service scope tick arrival
      (past ++
        [⟨.select, Except.ok (shared.committed ++ shared.pending client)⟩])
      shared shared := by
  refine
    ⟨sound, ⟨?_, ?_, fun same _ => remembers.current same untouched⟩,
      fun _ _ _ => ⟨rfl, fun _ => rfl⟩⟩
  · rw [remembers.shipped, shipped_concat]
    exact congrArg _ (List.append_nil _).symm
  · intro same rows read
    rcases List.mem_append.mp read with earlier | last
    · exact remembers.seen same rows earlier
    · cases List.mem_singleton.mp last
      rw [anchorsOf_append, anchorsOf_of_none (sound.pending client),
        List.append_nil]
      exact remembers.current same untouched

/-- A document is put where nothing is. -/
theorem advances_emit {shared : Db Client} {bytes : Bytes}
    (sound : Sound service scope shared)
    (remembers : Remembers scope tick arrival past shared)
    (unshipped : shipped past = []) :
    Advances service scope tick arrival
      (past ++ [⟨.emit (.document (keyOf tick) bytes), Except.ok ()⟩]) shared
      { shared with
        emitted := shared.emitted ++ [.document (keyOf tick) bytes] } := by
  have vacant : putUnder (keyOf tick) shared.emitted = [] := by
    rw [remembers.shipped, unshipped]
    rfl
  refine ⟨⟨sound.windows, ?_, sound.pending⟩, ⟨?_, ?_, ?_⟩, ?_⟩
  · intro loud anchor member
    rcases sound.documents loud anchor member with
      ⟨key, manifest, isTarget, once, receipts⟩
    have different : keyOf tick ≠ key := by
      rintro rfl
      rw [vacant] at once
      cases once
    refine ⟨key, manifest, isTarget, ?_, receipts⟩
    rw [putUnder_append, once, putUnder_of_ne different]
    rfl
  · rw [putUnder_append, remembers.shipped, shipped_concat, putUnder_append]
    rfl
  · intro same rows read
    rcases List.mem_append.mp read with earlier | last
    · exact remembers.seen same rows earlier
    · cases List.mem_singleton.mp last
  · intro same untouched
    rw [written_append] at untouched
    exact remembers.current same (List.append_eq_nil_iff.mp untouched).1
  · intro other different _
    have keys : keyOf tick ≠ keyOf other := by
      intro same
      exact different (id_eq_of_keyOf_eq same).symm
    refine ⟨?_, fun _ => rfl⟩
    rw [putUnder_append, putUnder_of_ne keys, List.append_nil]

/-- A receipt is inserted behind those that were read. -/
theorem advances_publish {shared : Db Client} {anchor : Anchor}
    {leaves : List ChainedRow}
    (sound : Sound service scope shared)
    (remembers : Remembers scope tick arrival past shared)
    (untouched : written past = [])
    (insertable : Insertable service tick past anchor leaves) :
    Advances service scope tick arrival
      (past ++ [⟨.publish (.anchor anchor leaves), Except.ok ()⟩]) shared
      { shared with
        committed := shared.committed ++ [.anchor anchor leaves] } := by
  rcases insertable with
    ⟨⟨rows, collected, rest, rfl, minted⟩, documented⟩
  have read :
      (⟨.select, Except.ok rows⟩ : Program.Event ledgerDb) ∈
        ⟨.select, Except.ok rows⟩ :: rest := List.mem_cons_self
  refine ⟨⟨?_, ?_, sound.pending⟩, ⟨?_, ?_, ?_⟩, ?_⟩
  · by_cases same : tick.scope = scope
    · have isOf : anchor.runId = scope.runFilter := by
        rw [minted.scope_eq, same]
      rw [windowsOf, anchorsOf_append, anchorsOf_anchor_of_eq isOf,
        List.map_append]
      exact
        sound.windows.concat
          (start_eq_latest sound.windows same
            ((remembers.seen same rows read).trans
              (remembers.current same untouched).symm)
            minted)
          (start_lt_finish minted)
    · have other : anchor.runId ≠ scope.runFilter := by
        rw [minted.scope_eq]
        exact fun filters => same (runFilter_injective filters)
      rw [windowsOf, anchorsOf_append, anchorsOf_anchor_of_ne other,
        List.append_nil]
      exact sound.windows
  · intro loud other member
    rw [anchorsOf_append] at member
    rcases List.mem_append.mp member with earlier | last
    · exact sound.documents loud other earlier
    · by_cases same : anchor.runId = scope.runFilter
      · rw [anchorsOf_anchor_of_eq same] at last
        cases List.mem_singleton.mp last
        rcases documented loud with ⟨manifest, isTarget, once, receipts⟩
        exact
          ⟨keyOf tick, manifest, isTarget, remembers.shipped.trans once,
            receipts⟩
      · rw [anchorsOf_anchor_of_ne same] at last
        cases last
  · rw [remembers.shipped, shipped_concat]
    exact congrArg _ (List.append_nil _).symm
  · intro same rows' read'
    rcases List.mem_append.mp read' with earlier | last
    · exact remembers.seen same rows' earlier
    · cases List.mem_singleton.mp last
  · intro _ absurdity
    rw [written_append] at absurdity
    cases (List.append_eq_nil_iff.mp absurdity).2
  · intro other _ inTurn
    refine ⟨rfl, fun same => ?_⟩
    have elsewhere : anchor.runId ≠ scope.runFilter := by
      rw [minted.scope_eq]
      exact fun filters => inTurn (runFilter_injective filters) same
    rw [anchorsOf_append, anchorsOf_anchor_of_ne elsewhere, List.append_nil]

variable [DecidableEq Client]

/-- Whatever a tick is answered, it advances. -/
theorem advances_of_respond {client : Client} {choice : Choice Fault}
    {op : ledgerDb.Op} {answer : ledgerDb.Answer op} {before after : Db Client}
    (sound : Sound service scope before)
    (remembers : Remembers scope tick arrival past before)
    (untouched : written past = [])
    (suits : TickCall service tick past op)
    (responded :
      (db Client).respond client choice op before = some (answer, after)) :
    Advances service scope tick arrival (past ++ [⟨op, answer⟩]) before
      after := by
  rcases respond_cases responded with
    ⟨fault, rfl, rfl, rfl⟩ | ⟨now, reply, rfl, rfl, succeeded⟩
  · exact advances_error sound remembers untouched
  · cases State.succeeds_of_succeed succeeded with
    | begin | lock | insert | commit => exact suits.elim
    | select => exact advances_select sound remembers untouched
    | emit effect =>
        rcases suits with ⟨unshipped, bytes, rfl⟩
        exact advances_emit sound remembers unshipped
    | publish row =>
        rcases suits with ⟨anchor, leaves, rfl, insertable⟩
        exact advances_publish sound remembers untouched insertable

/-- Other requests disturb no tick. -/
theorem undisturbing_of_respond {client : Client} {choice : Choice Fault}
    {op : ledgerDb.Op} {answer : ledgerDb.Answer op} {before after : Db Client}
    (sound : Sound service scope before)
    (does :
      Op.Does (fun row => Row.anchor? row = none)
        (fun effect => ∀ key, putUnder key [effect] = []) op)
    (responded :
      (db Client).respond client choice op before = some (answer, after)) :
    Sound service scope after ∧
      ∀ other, Undisturbing scope other before after := by
  have emitted := emitted_of_respond responded
  rcases batch_of_respond responded does.writes sound.pending with
    ⟨⟨batch, committed, none⟩, pending⟩
  have anchors (scope : AnchorScope) :
      anchorsOf scope after.committed = anchorsOf scope before.committed := by
    rw [committed, anchorsOf_append, anchorsOf_of_none none, List.append_nil]
  have shipments (key : String) :
      putUnder key after.emitted = putUnder key before.emitted := by
    rw [emitted, putUnder_append]
    cases op with
    | emit effect =>
        cases answer with
        | ok reply =>
            rw [made, does key, List.append_nil]
        | error fault => exact List.append_nil _
    | begin | lock | select | insert | commit | publish =>
        exact List.append_nil _
  refine ⟨⟨?_, ?_, pending⟩, fun other => ⟨shipments _, fun _ => anchors _⟩⟩
  · rw [windowsOf, anchors]
    exact sound.windows
  · intro loud anchor member
    rw [anchors] at member
    rcases sound.documents loud anchor member with
      ⟨key, manifest, isTarget, once, receipts⟩
    exact
      ⟨key, manifest, isTarget, (shipments key).trans once, receipts⟩

end Calls

/-! ## Ticks one at a time -/

section Histories

variable {Client : Type} {service : Service} {scope : AnchorScope}

/-- A tick may arrive: its id is new, and no tick of the scope is served. -/
structure MayStart (scope : AnchorScope) (world : LedgerWorld Client)
    (tick : Tick) : Prop where
  unused : putUnder (keyOf tick) world.shared.emitted = []
  fresh :
    ∀ other session served,
      world.sessions other = some session →
        session.request.tick? = some served → served.id ≠ tick.id
  inTurn :
    tick.scope = scope → ∀ other session served,
      world.sessions other = some session →
        session.request.tick? = some served → served.scope ≠ scope

/-- The ticks of the scope arrive one at a time, all ticks with new ids. -/
def oneByOne (scope : AnchorScope) (world : LedgerWorld Client)
    (move : Move Client Request (Choice Fault)) : Prop :=
  ∀ client request tick,
    move = .arrive client request → request.tick? = some tick →
      MayStart scope world tick

/-- What is left of a session suits what it was answered. -/
def Follows (service : Service) (scope : AnchorScope)
    (arrival : List (Anchor × List ChainedRow)) (shared : Db Client)
    (session : Session ledgerDb Request Exit (Option Row)) : Prop :=
  ∃ past,
    session.program.Tracks (SessionCall service session.request)
        (SessionEnd session.request) past ∧
      ∀ tick, session.request.tick? = some tick →
        Remembers scope tick arrival past shared

/-- The ledger between moves; `arrivals` are the anchors at each arrival. -/
structure Orderly (service : Service) (scope : AnchorScope)
    (arrivals : Client → List (Anchor × List ChainedRow))
    (world : LedgerWorld Client) : Prop where
  sound : Sound service scope world.shared
  sessions :
    ∀ client session, world.sessions client = some session →
      Follows service scope (arrivals client) world.shared session
  apart :
    ∀ client other session session' tick tick',
      client ≠ other → world.sessions client = some session →
        world.sessions other = some session' →
          session.request.tick? = some tick →
            session'.request.tick? = some tick' →
              tick'.id ≠ tick.id ∧ (tick.scope = scope → tick'.scope ≠ scope)

theorem Follows.undisturbed {arrival : List (Anchor × List ChainedRow)}
    {before after : Db Client}
    {session : Session ledgerDb Request Exit (Option Row)}
    (follows : Follows service scope arrival before session)
    (undisturbing :
      ∀ tick, session.request.tick? = some tick →
        Undisturbing scope tick before after) :
    Follows service scope arrival after session := by
  rcases follows with ⟨past, tracks, remembers⟩
  exact
    ⟨past, tracks, fun tick isTick =>
      (remembers tick isTick).undisturbed (undisturbing tick isTick)⟩

variable [DecidableEq Client]

theorem orderly_arrive
    {arrivals : Client → List (Anchor × List ChainedRow)}
    {world : LedgerWorld Client} {client : Client} {request : Request}
    (orderly : Orderly service scope arrivals world)
    (allowed : oneByOne scope world (.arrive client request)) :
    Orderly service scope
      (Function.update arrivals client
        (anchorsOf scope world.shared.committed))
      { world with
        sessions :=
          Function.update world.sessions client
            (some ⟨request, 0, serve service request⟩) } := by
  refine ⟨orderly.sound, ?_, ?_⟩
  · intro other session present
    by_cases same : other = client
    · subst same
      simp only [Function.update_self, Option.some.injEq] at present ⊢
      subst present
      refine ⟨[], tracks_serve service request, fun tick isTick => ?_⟩
      refine ⟨(allowed _ _ tick rfl isTick).unused, ?_, fun _ _ => rfl⟩
      intro _ rows absurdity
      cases absurdity
    · simp only [Function.update_of_ne same] at present ⊢
      exact orderly.sessions other session present
  · intro first second session session' tick tick' different present present'
      isTick isTick'
    by_cases isFirst : first = client
    · subst isFirst
      simp only [Function.update_self, Option.some.injEq,
        Function.update_of_ne different.symm] at present present'
      subst present
      have mayStart := allowed _ _ tick rfl isTick
      exact
        ⟨mayStart.fresh second session' tick' present' isTick',
          fun same => mayStart.inTurn same second session' tick' present'
            isTick'⟩
    · simp only [Function.update_of_ne isFirst] at present
      by_cases isSecond : second = client
      · subst isSecond
        simp only [Function.update_self, Option.some.injEq] at present'
        subst present'
        have mayStart := allowed _ _ tick' rfl isTick'
        refine
          ⟨(mayStart.fresh first session tick present isTick).symm,
            fun same same' => ?_⟩
        exact mayStart.inTurn same' first session tick present isTick same
      · simp only [Function.update_of_ne isSecond] at present'
        exact
          orderly.apart first second session session' tick tick' different
            present present' isTick isTick'

theorem orderly_answer
    {arrivals : Client → List (Anchor × List ChainedRow)}
    {world : LedgerWorld Client} {client : Client} {request : Request}
    {calls : Nat} {op : ledgerDb.Op} {choice : Choice Fault}
    {next : ledgerDb.Answer op → Handler (Option Row)}
    {answer : ledgerDb.Answer op} {after : Db Client}
    (orderly : Orderly service scope arrivals world)
    (present :
      world.sessions client = some ⟨request, calls, .call op next⟩)
    (responded :
      (db Client).respond client choice op world.shared =
        some (answer, after)) :
    Orderly service scope arrivals
      { shared := after
        sessions :=
          Function.update world.sessions client
            (some ⟨request, calls + 1, next answer⟩) } := by
  rcases orderly.sessions client _ present with ⟨past, tracks, remembers⟩
  -- the state stays sound, the session goes on, and others are not disturbed
  have advanced :
      Sound service scope after ∧
        (∀ tick, request.tick? = some tick →
          Remembers scope tick (arrivals client) (past ++ [⟨op, answer⟩])
            after) ∧
          ∀ other session tick,
            other ≠ client → world.sessions other = some session →
              session.request.tick? = some tick →
                Undisturbing scope tick world.shared after := by
    have suits : SessionCall service request past op := tracks.1
    rw [SessionCall] at suits
    cases isTick : request.tick? with
    | none =>
        rw [isTick] at suits
        have undisturbing :=
          undisturbing_of_respond orderly.sound suits responded
        refine ⟨undisturbing.1, ?_, fun _ _ _ _ _ _ => undisturbing.2 _⟩
        rintro _ ⟨⟩
    | some tick =>
        rw [isTick] at suits
        have advances :=
          advances_of_respond orderly.sound (remembers tick isTick) suits.1
            suits.2 responded
        refine ⟨advances.sound, ?_, ?_⟩
        · rintro _ ⟨⟩
          exact advances.remembers
        · intro other session tick' different there isTick'
          have apart :=
            orderly.apart client other _ session tick tick' different.symm
              present there isTick isTick'
          exact advances.others tick' apart.1 apart.2
  rcases advanced with ⟨sound, continues, undisturbed⟩
  refine ⟨sound, ?_, ?_⟩
  · intro other session there
    by_cases same : other = client
    · subst same
      simp only [Function.update_self, Option.some.injEq] at there
      subst there
      exact ⟨past ++ [⟨op, answer⟩], tracks.2 answer, continues⟩
    · simp only [Function.update_of_ne same] at there
      exact
        (orderly.sessions other session there).undisturbed fun tick isTick =>
          undisturbed other session tick same there isTick
  · have earlier (other : Client)
        (session : Session ledgerDb Request Exit (Option Row))
        (there :
          Function.update world.sessions client
              (some ⟨request, calls + 1, next answer⟩) other =
            some session) :
        ∃ before,
          world.sessions other = some before ∧
            before.request = session.request := by
      by_cases same : other = client
      · subst same
        simp only [Function.update_self, Option.some.injEq] at there
        subst there
        exact ⟨_, present, rfl⟩
      · simp only [Function.update_of_ne same] at there
        exact ⟨session, there, rfl⟩
    intro first second session session' tick tick' different one two isTick
      isTick'
    rcases earlier first session one with ⟨before, present, same⟩
    rcases earlier second session' two with ⟨before', present', same'⟩
    rw [← same] at isTick
    rw [← same'] at isTick'
    exact
      orderly.apart first second before before' tick tick' different present
        present' isTick isTick'

theorem orderly_depart
    {arrivals : Client → List (Anchor × List ChainedRow)}
    {world : LedgerWorld Client}
    (orderly : Orderly service scope arrivals world) (client : Client) :
    Orderly service scope arrivals
      { shared := (db Client).depart client world.shared
        sessions := Function.update world.sessions client none } := by
  have earlier (other : Client)
      (session : Session ledgerDb Request Exit (Option Row))
      (there :
        Function.update world.sessions client none other = some session) :
      world.sessions other = some session := by
    by_cases same : other = client
    · rw [same, Function.update_self] at there
      cases there
    · rwa [Function.update_of_ne same] at there
  refine ⟨⟨orderly.sound.windows, orderly.sound.documents, ?_⟩, ?_, ?_⟩
  · intro other row member
    by_cases same : other = client
    · simp [same, host, State.release] at member
    · apply orderly.sound.pending other
      simpa [host, State.release, same] using member
  · intro other session there
    exact
      (orderly.sessions other session (earlier other session there)).undisturbed
        fun _ _ => ⟨rfl, fun _ => rfl⟩
  · intro first second session session' tick tick' different one two
    exact
      orderly.apart first second session session' tick tick' different
        (earlier _ _ one) (earlier _ _ two)

/-- Every move keeps the order, and the arrivals of those who are there. -/
theorem Orderly.step
    {arrivals : Client → List (Anchor × List ChainedRow)}
    {world target : LedgerWorld Client}
    {move : Move Client Request (Choice Fault)}
    (orderly : Orderly service scope arrivals world)
    (allowed : oneByOne scope world move)
    (moved : world.step (db Client) (serve service) move = some target) :
    ∃ arrivals',
      Orderly service scope arrivals' target ∧
        ∀ client session, world.sessions client = some session →
          arrivals' client = arrivals client := by
  rcases World.step_cases moved with arrival | answered | departure
  · rcases arrival with ⟨newcomer, request, rfl, absent, rfl⟩
    refine ⟨_, orderly_arrive orderly allowed, ?_⟩
    intro client session present
    apply Function.update_of_ne
    rintro rfl
    rw [absent] at present
    cases present
  · rcases answered with
      ⟨client, choice, request, calls, op, next, answer, after, rfl, present,
        responded, rfl⟩
    exact ⟨arrivals, orderly_answer orderly present responded, fun _ _ _ => rfl⟩
  · rcases departure with ⟨client, session, rfl, _, rfl⟩
    exact ⟨arrivals, orderly_depart orderly client, fun _ _ _ => rfl⟩

/-- All runs of the ledger that start without an anchor of the scope. -/
abbrev unanchored (service : Service) (scope : AnchorScope) :
    System (LedgerWorld Client) (Move Client Request (Choice Fault)) :=
  ledger service fun rows => anchorsOf scope rows = []

theorem exists_orderly {world : LedgerWorld Client}
    (reached :
      Reachable (unanchored service scope) (oneByOne scope) world) :
    ∃ arrivals, Orderly service scope arrivals world := by
  induction reached with
  | start isInitial =>
      rcases isInitial with ⟨⟨none, quiet, _⟩, empty⟩
      refine ⟨fun _ => [], ⟨?_, ?_, ?_⟩, ?_, ?_⟩
      · rw [windowsOf, none]
        trivial
      · intro _ anchor absurdity
        rw [none] at absurdity
        cases absurdity
      · intro client row member
        rw [quiet client] at member
        cases member
      · intro client session present
        rw [empty client] at present
        cases present
      · intro client other session session' tick tick' _ present
        rw [empty client] at present
        cases present
  | next _ allowed moved induction =>
      rcases induction with ⟨arrivals, orderly⟩
      rcases orderly.step allowed moved with ⟨arrivals', orderly', _⟩
      exact ⟨arrivals', orderly'⟩

/-- What comes after a world while a client stays. -/
def During (service : Service) (scope : AnchorScope) (client : Client)
    (start target : LedgerWorld Client) : Prop :=
  Reachable ⟨(· = start), World.step (db Client) (serve service)⟩
    (fun world move => oneByOne scope world move ∧ move ≠ .depart client)
    target

/-- A client that stays is still served for what it has asked. -/
theorem exists_session_of_step {world target : LedgerWorld Client}
    {move : Move Client Request (Choice Fault)} {client : Client}
    {session : Session ledgerDb Request Exit (Option Row)}
    (present : world.sessions client = some session)
    (stays : move ≠ .depart client)
    (moved : world.step (db Client) (serve service) move = some target) :
    ∃ session',
      target.sessions client = some session' ∧
        session'.request = session.request := by
  rcases World.step_session moved present stays with elsewhere | called
  · exact ⟨session, elsewhere.1, rfl⟩
  · rcases called with ⟨_, _, _, _, _, _, _, onward⟩
    exact ⟨_, onward, rfl⟩

/-- While a tick is served the anchors at its arrival are known. -/
theorem orderly_of_during
    {arrivals : Client → List (Anchor × List ChainedRow)}
    {start target : LedgerWorld Client} {client : Client}
    {session : Session ledgerDb Request Exit (Option Row)}
    (orderly : Orderly service scope arrivals start)
    (present : start.sessions client = some session)
    (during : During service scope client start target) :
    ∃ arrivals' session',
      Orderly service scope arrivals' target ∧
        arrivals' client = arrivals client ∧
          target.sessions client = some session' ∧
            session'.request = session.request := by
  induction during with
  | start isStart =>
      cases isStart
      exact ⟨arrivals, session, orderly, rfl, present, rfl⟩
  | next _ allowed moved induction =>
      rcases induction with ⟨arrivals', session', orderly', known, there, asked⟩
      rcases orderly'.step allowed.1 moved with
        ⟨arrivals'', orderly'', stay⟩
      rcases exists_session_of_step there allowed.2 moved with
        ⟨session'', there', asked'⟩
      exact
        ⟨arrivals'', session'', orderly'',
          (stay client session' there).trans known, there',
          asked'.trans asked⟩

/-- A tick that returns an error has left the anchors of its scope alone. -/
theorem anchorsOf_eq_of_raise {world started target : LedgerWorld Client}
    {client : Client} {request : Request} {tick : Tick} {exit : Exit}
    {session : Session ledgerDb Request Exit (Option Row)}
    (reached : Reachable (unanchored service scope) (oneByOne scope) world)
    (isTick : request.tick? = some tick) (same : tick.scope = scope)
    (allowed : oneByOne scope world (.arrive client request))
    (arrived :
      world.step (db Client) (serve service) (.arrive client request) =
        some started)
    (during : During service scope client started target)
    (present : target.sessions client = some session)
    (failed : session.program = .raise exit) :
    anchorsOf scope target.shared.committed =
      anchorsOf scope world.shared.committed := by
  rcases exists_orderly reached with ⟨arrivals, orderly⟩
  rcases World.step_cases arrived with arrival | answered | departure
  · rcases arrival with ⟨_, _, ⟨⟩, _, rfl⟩
    have there := Function.update_self client
      (some ⟨request, 0, serve service request⟩) world.sessions
    rcases orderly_of_during (orderly_arrive orderly allowed) there during with
      ⟨arrivals', session', orderly', known, present', asked⟩
    rw [present] at present'
    cases present'
    rw [Function.update_self] at known
    have served : session.request.tick? = some tick := by
      rw [asked]
      exact isTick
    rcases orderly'.sessions client session present with
      ⟨past, tracks, remembers⟩
    rw [failed] at tracks
    have untouched : written past = [] := tracks tick exit served rfl
    exact ((remembers tick served).current same untouched).trans known
  · rcases answered with ⟨_, _, _, _, _, _, _, _, absurdity, _⟩
    cases absurdity
  · rcases departure with ⟨_, _, absurdity, _⟩
    cases absurdity

end Histories

/-! ## Failures between the steps -/

/-- A ledger that keeps its documents. -/
def keepingService : Service :=
  { plainService with sink := .memory }

/-- A ledger that serves one client, with two events four seconds apart. -/
def twoEvents : LedgerWorld Unit where
  shared :=
    { committed := [runSeven, noted 1 4000000, noted 2 8000000]
      pending := fun _ => []
      holder := fun _ => none
      clock := 0
      emitted := [] }
  sessions := fun _ => none

/-- The guard of `oneByOne` for one client. -/
def oneByOneAlone (world : LedgerWorld Unit)
    (move : Move Unit Request (Choice Fault)) : Bool :=
  match move with
  | .arrive _ request =>
      (world.sessions ()).isNone &&
        request.tick?.all fun tick =>
          (putUnder (keyOf tick) world.shared.emitted).isEmpty
  | _ => true

theorem oneByOne_of_oneByOneAlone {scope : AnchorScope}
    (world : LedgerWorld Unit) (move : Move Unit Request (Choice Fault))
    (passes : oneByOneAlone world move = true) :
    oneByOne scope world move := by
  rintro client request tick rfl isTick
  rw [oneByOneAlone, isTick, Bool.and_eq_true, Option.all_some,
    Option.isNone_iff_eq_none, List.isEmpty_iff] at passes
  refine ⟨passes.2, ?_, ?_⟩
  · rintro ⟨⟩ session served present
    rw [passes.1] at present
    cases present
  · rintro _ ⟨⟩ session served present
    rw [passes.1] at present
    cases present

/-- A tick of the global scope whose last call fails or succeeds. -/
def attemptUntil (id : Uuid) (untilTs : DateTime) (calls : Nat)
    (last : Choice Fault) : List (Move Unit Request (Choice Fault)) :=
  .arrive () (anchorUntil id untilTs) ::
    List.replicate calls (.answer () (.succeed 0)) ++
      [.answer () last, .depart ()]

/-- Ticks that fail at the insert, at the put, and not at all. -/
def retriedTicks : List (Move Unit Request (Choice Fault)) :=
  attemptUntil 1 (second 6 (by decide)) 3 (.fail ⟨false, "reset"⟩) ++
    attemptUntil 2 (second 6 (by decide)) 3 (.succeed 0) ++
      attemptUntil 3 (second 12 (by decide)) 2 (.fail ⟨false, "reset"⟩) ++
        attemptUntil 4 (second 12 (by decide)) 3 (.succeed 0)

/--
In every state that ticks of a scope reach one at a time, a tick that returns
an error leaves the anchors of the scope and the start of the next window as
they were; the windows adjoin from the epoch on; and every row names the one
document that was ever put under its key, whose root, count and signature are
those of the row.
-/
theorem anchoring_survives_failures
    {Client : Type} [DecidableEq Client] (service : Service)
    (scope : AnchorScope) {world : LedgerWorld Client}
    (reached : Reachable (unanchored service scope) (oneByOne scope) world) :
    (∀ client request tick started target session exit,
        request.tick? = some tick → tick.scope = scope →
          oneByOne scope world (.arrive client request) →
            world.step (db Client) (serve service) (.arrive client request) =
                some started →
              During service scope client started target →
                target.sessions client = some session →
                  session.program = .raise exit →
                    anchorsOf scope target.shared.committed =
                        anchorsOf scope world.shared.committed ∧
                      anchorWindowStart scope target.shared.committed =
                        anchorWindowStart scope world.shared.committed) ∧
      Adjoining epochMicros (windowsOf scope world.shared.committed) ∧
        (service.sink ≠ .noop →
          ∀ anchor ∈ anchorsOf scope world.shared.committed,
            Documented service world.shared.emitted anchor.1) := by
  rcases exists_orderly reached with ⟨arrivals, orderly⟩
  refine ⟨?_, orderly.sound.windows, orderly.sound.documents⟩
  intro client request tick started target session exit isTick same allowed
    arrived during present failed
  have unchanged :=
    anchorsOf_eq_of_raise reached isTick same allowed arrived during present
      failed
  refine ⟨unchanged, ?_⟩
  rw [anchorWindowStart, anchorWindowStart, lastAnchoredTo, lastAnchoredTo,
    unchanged]

/-- Two of four ticks fail, and the windows of the others adjoin. -/
theorem anchoring_survives_failures_retried :
    ∃ world : LedgerWorld Unit,
      Reachable (unanchored keepingService .global) (oneByOne .global) world ∧
        windowsOf .global world.shared.committed =
            [⟨epochMicros, 6000000⟩, ⟨6000000, 12000000⟩] ∧
          Adjoining epochMicros (windowsOf .global world.shared.committed) ∧
            ∀ anchor ∈ anchorsOf .global world.shared.committed,
              Documented keepingService world.shared.emitted anchor.1 := by
  have starts :
      (unanchored keepingService .global).initial twoEvents :=
    ⟨⟨rfl, fun _ => rfl, fun _ => rfl⟩, fun _ => rfl⟩
  rcases
      Reachable.exists_of_replay (@oneByOne_of_oneByOneAlone .global) starts
        retriedTicks
        (fun world =>
          decide
            (windowsOf .global world.shared.committed =
              [⟨epochMicros, 6000000⟩, ⟨6000000, 12000000⟩]))
        (by decide +kernel) with
    ⟨world, reached, windows⟩
  rw [decide_eq_true_eq] at windows
  have survives :=
    anchoring_survives_failures keepingService .global reached
  exact
    ⟨world, reached, windows, survives.2.1,
      survives.2.2 (by rintro ⟨⟩)⟩

end Trackward.Ledger.AnchorRetries
