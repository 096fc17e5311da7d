import Trackward.Ledger.Writes
import Trackward.Lib.Admission
import Trackward.Lib.Collisions

/-!
# Artifacts and their blobs

An upload puts its bytes into the blob store, under their digest, and then
inserts a row with the digest.  The two writes are in two systems and in no
transaction, and uploads of equal bytes share a blob.

A row is therefore never without its blob, though a blob may be without a row.
A download compares what it fetched with the digest in the row, so a blob store
that has been tampered with can make it fail, but not make it lie.
-/

namespace Trackward.Ledger.Artifacts

open Trackward.ChainCore.Chrono
open Trackward.ChainCore.Encode
open Trackward.ChainCore.JsonValue
open Trackward.Ledger.Chain
open Trackward.Ledger.Concurrency
open Trackward.Ledger.Models
open Trackward.Ledger.Routes
open Trackward.Ledger.Writes
open Trackward.Lib
open Trackward.Lib.Admission
open Trackward.Lib.Collisions
open Trackward.Lib.Octets
open Trackward.Lib.Programs
open Trackward.Lib.Runs
open Trackward.Lib.Sessions
open Trackward.Lib.Transactions

/-! ## Blobs and downloads -/

def blob? : Effect → Option (String × Bytes)
  | .blob key data => some (key, data)
  | .document _ _ => none

/-- `BlobStore::get` after these effects: the last blob put under a key. -/
def stored (emitted : List Effect) (key : String) : Option Bytes :=
  (emitted.filterMap blob?).reverse.lookup key

def artifact? : ChainedRow → Option Artifact
  | .artifact row => some row
  | _ => none

/-- The rows of `artifacts`, in commit order. -/
def artifacts (rows : List Row) : List Artifact :=
  (chainedRows rows).filterMap artifact?

/-- The answer to a download. -/
structure Download where
  contentType : String
  sha256 : String
  body : Bytes
  deriving DecidableEq

/-- The text can be the value of a header. -/
def isHeaderValue (text : String) : Bool :=
  (utf8 text).all fun byte => 32 ≤ byte && byte != 127 || byte == 9

/--
`artifacts::download`; `known` is what its statement answers, `fetch` what the
blob store does.
-/
def download (runtime : Runtime) (known : Except Fault (List Row))
    (fetch : String → Except String Bytes) (id : Uuid) :
    Except Exit Download := do
  let rows ← known.mapError dbError
  match (artifacts rows).find? fun row => row.id = id with
  | none => .error (.error .notFound)
  | some artifact =>
      let data ← (fetch artifact.sha256).mapError fun text =>
        Exit.error (.s3 text)
      let actual := sha256Hex runtime data
      if actual ≠ artifact.sha256 then
        .error (.error (.hashMismatch artifact.sha256 actual))
      else if isHeaderValue artifact.mediaType &&
          isHeaderValue artifact.sha256 then
        return {
          contentType := artifact.mediaType
          sha256 := artifact.sha256
          body := data }
      else .error (.error (.s3 "failed to parse header value"))

/-- The file among the parts of an upload that can be read. -/
def fileOf (runtime : Runtime) (parts : List (Except String Part)) :
    Option Bytes :=
  match Upload.readAll runtime Upload.initial parts with
  | .ok upload => upload.fileData
  | .error _ => none

/-- These are all uploads of the history, with the ids they mint. -/
def uploading {Client : Type} (runtime : Runtime)
    (uploads : List (Uuid × Bytes)) (_ : LedgerWorld Client)
    (move : Move Client Request (Choice Fault)) : Prop :=
  ∀ client actor id parts data,
    move = .arrive client (.write (.artifact actor id parts)) →
      fileOf runtime parts = some data → (id, data) ∈ uploads

/-- The row is that of an upload whose blob has been put. -/
def HasBlob (runtime : Runtime) (uploads : List (Uuid × Bytes))
    (emitted : List Effect) (artifact : Artifact) : Prop :=
  ∃ data,
    (artifact.id, data) ∈ uploads ∧
      artifact.sha256 = sha256Hex runtime data ∧
        artifact.sizeBytes = Int64.ofNat data.length ∧
          .blob (sha256Hex runtime data) data ∈ emitted

/-- Blobs are put under their digests, and before the rows that name them. -/
def blobsFirst (runtime : Runtime) (uploads : List (Uuid × Bytes)) :
    Gate Row Effect where
  row := fun emitted row =>
    ∀ artifact, row = .chained (.artifact artifact) →
      HasBlob runtime uploads emitted artifact
  effect := fun effect =>
    ∀ key data, effect = .blob key data →
      key = sha256Hex runtime data ∧ ∃ id, (id, data) ∈ uploads
  monotone := by
    intro fewer more included row holds artifact isArtifact
    rcases holds artifact isArtifact with ⟨data, upload, digest, size, put⟩
    exact ⟨data, upload, digest, size, included put⟩

/-! ## Uploads -/

section Uploads

variable {service : Service} {uploads : List (Uuid × Bytes)}
variable {emitted : List Effect}

theorem gated_liftExcept_bind {α β : Type} {gate : Gate Row Effect}
    {result : Except Exit α} {next : α → Handler β}
    (later : ∀ value, result = .ok value → Gated gate emitted (next value)) :
    Gated gate emitted (liftExcept result >>= next) := by
  cases result with
  | ok value => exact later value rfl
  | error exit => trivial

theorem gated_uploadArtifact {runtime : Runtime} {actor : String} {id : Uuid}
    {parts : List (Except String Part)}
    (uploaded :
      ∀ data, fileOf runtime parts = some data → (id, data) ∈ uploads) :
    Gated (blobsFirst runtime uploads) emitted
      (uploadArtifact runtime actor id parts) := by
  apply gated_liftExcept_bind
  intro upload readable
  apply gated_liftExcept_bind
  intro runId _
  apply gated_liftExcept_bind
  intro data isFile
  have inside : (id, data) ∈ uploads := by
    apply uploaded
    rw [fileOf, readable]
    cases file : upload.fileData with
    | none =>
        rw [file] at isFile
        cases isFile
    | some bytes =>
        rw [file] at isFile
        cases isFile
        exact file
  apply gated_attempt_bind
  · rintro key data' ⟨⟩
    exact ⟨rfl, id, inside⟩
  · intro reply
    apply gated_of_onlyCalls
    refine Program.onlyCalls_bind (onlyCalls_attempt ?_) fun createdAt => ?_
    · trivial
    apply does_insertDraft
    rintro columns row minted ⟨⟩ artifact ⟨⟩
    refine ⟨data, ?_, rfl, rfl, ?_⟩
    · show (columns.id, data) ∈ uploads
      rw [minted]
      exact inside
    · exact List.mem_append_right _ (List.mem_singleton_self _)

/-- Only uploads write rows of artifacts or put blobs. -/
theorem gated_serve {request : Request}
    (uploaded :
      ∀ actor id parts data,
        request = .write (.artifact actor id parts) →
          fileOf service.runtime parts = some data → (id, data) ∈ uploads) :
    Gated (blobsFirst service.runtime uploads) []
      (serve service request) := by
  by_cases isUpload :
      ∃ actor id parts, request = .write (.artifact actor id parts)
  · rcases isUpload with ⟨actor, id, parts, rfl⟩
    apply gated_bind
    · exact gated_uploadArtifact fun data => uploaded actor id parts data rfl
    · intro row after _
      trivial
  · push Not at isUpload
    apply gated_of_onlyCalls
    refine (does_serve request).mono fun op does => ?_
    have noArtifact (row : Row) (written : Written request row) :
        (blobsFirst service.runtime uploads).row [] row := by
      rintro artifact rfl
      cases request with
      | write write =>
          rcases written with ⟨chained, same, described⟩
          cases same
          have isTable : table write = .artifacts := described.table.symm
          cases write <;> cases isTable
          exact absurd rfl (isUpload _ _ _)
      | createRun actor id input =>
          rcases written with ⟨run, absurdity, _⟩
          cases absurdity
      | trigger | loopTick =>
          rcases written with ⟨anchor, leaves, absurdity⟩
          cases absurdity
    cases op with
    | insert row | publish row => exact noArtifact row does
    | emit effect =>
        rintro key data rfl
        cases request with
        | write write =>
            cases write with
            | artifact actor id parts => exact absurd rfl (isUpload _ _ _)
            | event | toolInvocation | sideEffect | guardrail
            | humanApproval | biasSlice =>
                rcases does with ⟨key, bytes, absurdity⟩
                cases absurdity
        | createRun | trigger | loopTick =>
            rcases does with ⟨key, bytes, absurdity⟩
            cases absurdity
    | begin | lock | select | commit => trivial

end Uploads

/-! ## Downloads -/

/-- Everything a download that succeeds has done. -/
theorem download_cases {runtime : Runtime} {rows : List Row}
    {fetch : String → Except String Bytes} {id : Uuid}
    {response : Download}
    (answered : download runtime (.ok rows) fetch id = .ok response) :
    ∃ artifact ∈ artifacts rows,
      artifact.id = id ∧
        fetch artifact.sha256 = .ok response.body ∧
          sha256Hex runtime response.body = artifact.sha256 := by
  simp only [download, Except.mapError, bind, Except.bind] at answered
  cases found : (artifacts rows).find? fun row => row.id = id with
  | none =>
      rw [found] at answered
      cases answered
  | some artifact =>
      rw [found] at answered
      cases fetched : fetch artifact.sha256 with
      | error text =>
          simp only [fetched] at answered
          cases answered
      | ok data =>
          simp only [fetched] at answered
          split at answered
          · cases answered
          · rename_i same
            split at answered
            · cases answered
              have named := List.find?_some found
              rw [decide_eq_true_eq] at named
              exact
                ⟨artifact, List.mem_of_find?_eq_some found, named, fetched,
                  not_not.mp same⟩
            · cases answered

theorem sha256_eq_of_sha256Hex_eq {runtime : Runtime} {first second : Bytes}
    (same : sha256Hex runtime first = sha256Hex runtime second) :
    runtime.sha256 first = runtime.sha256 second := by
  have bytes := Hexadecimal.encode_injective same
  exact Block.ext bytes

theorem mem_artifacts {rows : List Row} {artifact : Artifact} :
    artifact ∈ artifacts rows ↔
      Row.chained (.artifact artifact) ∈ rows := by
  simp only [artifacts, chainedRows, List.mem_filterMap]
  constructor
  · rintro ⟨chained, ⟨row, member, isChained⟩, isArtifact⟩
    cases row <;> cases isChained
    cases chained <;> cases isArtifact
    exact member
  · intro member
    exact ⟨.artifact artifact, ⟨_, member, rfl⟩, rfl⟩

/-- Under a key that was put there is a blob that was put under it. -/
theorem exists_stored {emitted : List Effect} {key : String} {data : Bytes}
    (put : Effect.blob key data ∈ emitted) :
    ∃ blob,
      stored emitted key = some blob ∧ Effect.blob key blob ∈ emitted := by
  have listed : (key, data) ∈ (emitted.filterMap blob?).reverse :=
    List.mem_reverse.mpr (List.mem_filterMap.mpr ⟨_, put, rfl⟩)
  cases found : stored emitted key with
  | none =>
      rw [stored, List.lookup_eq_none_iff] at found
      simpa using found (key, data) listed
  | some blob =>
      refine ⟨blob, rfl, ?_⟩
      rcases List.lookup_eq_some_iff.mp found with ⟨before, after, split, _⟩
      have inside : (key, blob) ∈ (emitted.filterMap blob?).reverse := by
        rw [split]
        exact List.mem_append_right _ List.mem_cons_self
      rcases List.mem_filterMap.mp (List.mem_reverse.mp inside) with
        ⟨effect, member, isBlob⟩
      cases effect <;> cases isBlob
      exact member

/-! ## Rows and blobs in every reachable state -/

/-- All runs of a ledger that starts without artifacts and blobs. -/
def emptyStore {Client : Type} [DecidableEq Client] (service : Service) :
    System (LedgerWorld Client) (Move Client Request (Choice Fault)) :=
  system (db Client) (serve service) fun shared =>
    Protocol.atRest (fun rows => artifacts rows = []) shared ∧
      shared.emitted.filterMap blob? = []

theorem kept_blobsFirst
    {Client : Type} [DecidableEq Client] {service : Service}
    {uploads : List (Uuid × Bytes)} {world : LedgerWorld Client}
    (reached :
      Reachable (emptyStore service) (uploading service.runtime uploads)
        world) :
    Kept (blobsFirst service.runtime uploads) world := by
  refine kept_of_permitted ?_ ?_ reached
  · rintro shared ⟨⟨empty, quiet, _⟩, noBlobs⟩
    refine ⟨?_, quiet, ?_⟩
    · rintro row member artifact rfl
      rw [← mem_artifacts, empty] at member
      cases member
    · rintro effect member key data rfl
      have listed : (key, data) ∈ shared.emitted.filterMap blob? :=
        List.mem_filterMap.mpr ⟨_, member, rfl⟩
      rw [noBlobs] at listed
      cases listed
  · intro before client request letIn
    apply gated_serve
    rintro actor id parts data rfl isFile
    exact letIn client actor id parts data rfl isFile

/-! ### Two uploads of one run -/

/-- A service that can read the id of the run 7. -/
def uploadService : Service :=
  { plainService with
    runtime :=
      { Runtime.plain with
        parseUuid := fun text =>
          if text = uuidText 7 then .ok 7 else .error "invalid character" } }

/-- A part of a form. -/
def formPart (name : String) (text : String) : Part where
  name := some name
  text := .ok text
  bytes := .ok (utf8 text)

/-- Upload a text to the run 7. -/
def uploadText (id : Uuid) (text : String) : Request :=
  .write
    (.artifact "test" id
      [.ok (formPart "run_id" (uuidText 7)), .ok (formPart "file" text)])

/-- Two uploads of the same bytes, one after the other. -/
def twoUploads : List (Move Nat Request (Choice Fault)) :=
  .arrive 1 (uploadText 1 "hi") :: .arrive 2 (uploadText 2 "hi") ::
    answers 1 1 6 ++ answers 2 2 6

/-- What `twoUploads` uploads. -/
def hiTwice : List (Uuid × Bytes) := [(1, utf8 "hi"), (2, utf8 "hi")]

/-- The guard of `uploading`. -/
def uploadingOnly (runtime : Runtime) (uploads : List (Uuid × Bytes))
    (_ : LedgerWorld Nat) (move : Move Nat Request (Choice Fault)) : Bool :=
  match move with
  | .arrive _ (.write (.artifact _ id parts)) =>
      (fileOf runtime parts).all fun data => (id, data) ∈ uploads
  | _ => true

theorem uploading_of_uploadingOnly {runtime : Runtime}
    {uploads : List (Uuid × Bytes)} (world : LedgerWorld Nat)
    (move : Move Nat Request (Choice Fault))
    (passes : uploadingOnly runtime uploads world move = true) :
    uploading runtime uploads world move := by
  rintro client actor id parts data rfl isFile
  rw [uploadingOnly, isFile] at passes
  simpa using passes

/--
Whatever the blob store answers, a download fails or returns the bytes of the
upload that minted the id; and every row has its blob in a store that keeps
what it is given.
-/
theorem download_returns_upload
    {Client : Type} [DecidableEq Client] (service : Service)
    {uploads : List (Uuid × Bytes)}
    (fresh : (uploads.map Prod.fst).Nodup) {world : LedgerWorld Client}
    (reached :
      Reachable (emptyStore service) (uploading service.runtime uploads)
        world) :
    (∀ fetch id response,
        CollisionFree service.runtime.sha256
            (response.body :: uploads.map Prod.snd) →
          download service.runtime (.ok world.shared.committed) fetch id =
              .ok response →
            (id, response.body) ∈ uploads ∧
              ∀ data, (id, data) ∈ uploads → data = response.body) ∧
      ∀ artifact ∈ artifacts world.shared.committed,
        ∃ blob,
          stored world.shared.emitted artifact.sha256 = some blob ∧
            (CollisionFree service.runtime.sha256 (uploads.map Prod.snd) →
              artifact.sizeBytes = Int64.ofNat blob.length) := by
  have kept := kept_blobsFirst reached
  constructor
  · intro fetch id response free answered
    rcases download_cases answered with
      ⟨artifact, member, named, _, digest⟩
    rcases kept.committed _ (mem_artifacts.mp member) artifact rfl with
      ⟨data, upload, isDigest, _, _⟩
    have same : response.body = data := by
      apply free
      · exact List.mem_cons_self
      · exact List.mem_cons_of_mem _ (List.mem_map.mpr ⟨_, upload, rfl⟩)
      · exact sha256_eq_of_sha256Hex_eq (digest.trans isDigest)
    rw [named, ← same] at upload
    refine ⟨upload, fun other upload' => ?_⟩
    have equal :=
      List.inj_on_of_nodup_map fresh upload' upload rfl
    exact congrArg Prod.snd equal
  · intro artifact member
    rcases kept.committed _ (mem_artifacts.mp member) artifact rfl with
      ⟨data, upload, isDigest, size, put⟩
    rcases exists_stored put with ⟨blob, isStored, put'⟩
    rw [isDigest]
    refine ⟨blob, isStored, fun free => ?_⟩
    rcases kept.emitted _ put' _ _ rfl with ⟨digest, other, upload'⟩
    have same : data = blob := by
      apply free
      · exact List.mem_map.mpr ⟨_, upload, rfl⟩
      · exact List.mem_map.mpr ⟨_, upload', rfl⟩
      · exact sha256_eq_of_sha256Hex_eq digest
    rw [← same]
    exact size

/-- Two rows share a blob, and the second is downloaded. -/
theorem download_returns_upload_twice :
    ∃ world : LedgerWorld Nat,
      Reachable (emptyStore uploadService)
          (uploading uploadService.runtime hiTwice) world ∧
        (artifacts world.shared.committed).length = 2 ∧
          ∃ response,
            download uploadService.runtime (.ok world.shared.committed)
                (fun _ => .ok (utf8 "hi")) 2 =
              .ok response ∧
              (2, response.body) ∈ hiTwice := by
  have starts : (emptyStore uploadService).initial (resting [runSeven]) :=
    ⟨⟨⟨rfl, fun _ => rfl, fun _ => rfl⟩, rfl⟩, fun _ => rfl⟩
  rcases
      Reachable.exists_of_replay
        (@uploading_of_uploadingOnly uploadService.runtime hiTwice)
        starts twoUploads
        (fun world =>
          decide ((artifacts world.shared.committed).length = 2) &&
            (download uploadService.runtime (.ok world.shared.committed)
                (fun _ => .ok (utf8 "hi")) 2).toOption.any fun response =>
              response.body = utf8 "hi")
        (by decide +kernel) with
    ⟨world, reached, check⟩
  simp only [Bool.and_eq_true, decide_eq_true_eq] at check
  rcases check with ⟨two, downloaded⟩
  refine ⟨world, reached, two, ?_⟩
  cases answered :
      download uploadService.runtime (.ok world.shared.committed)
        (fun _ => .ok (utf8 "hi")) 2 with
  | error exit =>
      rw [answered] at downloaded
      cases downloaded
  | ok response =>
      rw [answered] at downloaded
      have same : response.body = utf8 "hi" := of_decide_eq_true downloaded
      refine ⟨response, rfl, ?_⟩
      apply
        ((download_returns_upload uploadService (by decide) reached).1 _ 2
          response ?_ answered).1
      intro first one second other _
      simp only [same, hiTwice, List.map_cons, List.map_nil, List.mem_cons,
        List.not_mem_nil, or_false, or_self] at one other
      exact one.trans other.symm

/-! ## When a download succeeds -/

/-- A store that answers with what it was given. -/
def fetchStored (emitted : List Effect) (key : String) :
    Except String Bytes :=
  match stored emitted key with
  | some blob => .ok blob
  | none => .error "no such key"

theorem isHeaderValue_sha256Hex (runtime : Runtime) (data : Bytes) :
    isHeaderValue (sha256Hex runtime data) = true := by
  rw [isHeaderValue, List.all_eq_true]
  intro byte member
  have range := Hexadecimal.range_of_mem_utf8_encode member
  have above : 32 ≤ byte := UInt8.le_trans (by decide) range.1
  have below : byte ≠ 127 := by
    rintro rfl
    exact absurd range.2 (by decide)
  simp [above, below]

/-- No two artifacts have the same id. -/
theorem artifacts_pairwise
    {Client : Type} [DecidableEq Client] {service : Service}
    {permitted : LedgerWorld Client → Move Client Request (Choice Fault) → Prop}
    {world : LedgerWorld Client}
    (reached : Reachable (emptyStore service) permitted world) :
    (artifacts world.shared.committed).Pairwise fun first second =>
      first.id ≠ second.id := by
  rcases exists_batch_of_reachable reached with
    ⟨start, batch, ⟨⟨empty, _⟩, _⟩, grown, passed⟩
  have apart :
      batch.Pairwise fun earlier later =>
        ∀ first second, earlier = .chained (.artifact first) →
          later = .chained (.artifact second) → first.id ≠ second.id := by
    refine pairwise_of_acceptsAll ?_ passed
    rintro past _ accepted _ member first second rfl rfl
    simp only [schema, primaryKey, Bool.and_eq_true, List.all_eq_true]
      at accepted
    have other :=
      accepted.1.1.1 (.artifact first)
        (List.mem_filterMap.mpr ⟨_, member, rfl⟩)
    simp only [Bool.or_eq_true, decide_eq_true_eq] at other
    exact other.resolve_left fun different => different rfl
  have split :
      artifacts (start.committed ++ batch) =
        artifacts start.committed ++ artifacts batch := by
    simp [artifacts, chainedRows]
  rw [grown, split, empty, List.nil_append, artifacts, chainedRows,
    List.pairwise_filterMap, List.pairwise_filterMap]
  refine apart.imp ?_
  intro earlier later distinct chained isChained chained' isChained' first
    isFirst second isSecond
  apply distinct
  · cases earlier <;> cases isChained
    cases chained <;> cases isFirst
    rfl
  · cases later <;> cases isChained'
    cases chained' <;> cases isSecond
    rfl

theorem find?_artifacts {rows : List Row} {artifact : Artifact}
    (distinct :
      (artifacts rows).Pairwise fun first second => first.id ≠ second.id)
    (member : artifact ∈ artifacts rows) :
    (artifacts rows).find? (fun row => row.id = artifact.id) =
      some artifact := by
  rcases List.append_of_mem member with ⟨before, after, split⟩
  rw [split] at distinct ⊢
  rw [List.find?_append, List.find?_eq_none.mpr, Option.none_or]
  · simp
  · intro other earlier
    have apart :=
      (List.pairwise_append.mp distinct).2.2 other earlier artifact
        List.mem_cons_self
    simpa using apart

/-- A download in full, whatever the store answers. -/
theorem download_eq_ok_iff {runtime : Runtime} {rows : List Row}
    {fetch : String → Except String Bytes} {id : Uuid}
    {response : Download} :
    download runtime (.ok rows) fetch id = .ok response ↔
      ∃ artifact,
        (artifacts rows).find? (fun row => row.id = id) = some artifact ∧
          fetch artifact.sha256 = .ok response.body ∧
            sha256Hex runtime response.body = artifact.sha256 ∧
              (isHeaderValue artifact.mediaType &&
                isHeaderValue artifact.sha256) = true ∧
                response.contentType = artifact.mediaType ∧
                  response.sha256 = artifact.sha256 := by
  simp only [download, Except.mapError, bind, Except.bind]
  cases found : (artifacts rows).find? fun row => row.id = id with
  | none => simp
  | some artifact =>
      cases fetched : fetch artifact.sha256 with
      | error text => simp [fetched]
      | ok data =>
          rcases response with ⟨contentType, sha256, body⟩
          simp only [fetched, pure, Except.pure, Option.some.injEq,
            exists_eq_left', Except.ok.injEq]
          by_cases digest : sha256Hex runtime data = artifact.sha256
          · cases printable :
                isHeaderValue artifact.mediaType &&
                  isHeaderValue artifact.sha256 with
            | true =>
                simp only [digest, ne_eq, not_true_eq_false, if_false,
                  if_true, Except.ok.injEq, Download.mk.injEq]
                constructor
                · rintro ⟨rfl, rfl, rfl⟩
                  exact ⟨rfl, digest, trivial, rfl, rfl⟩
                · rintro ⟨rfl, _, _, rfl, rfl⟩
                  exact ⟨rfl, rfl, rfl⟩
            | false => simp [digest]
          · rw [if_pos digest]
            simp only [reduceCtorEq, false_iff]
            rintro ⟨rfl, digest', _⟩
            exact digest digest'

/--
From a store that keeps what it is given, exactly the artifacts whose media
type can be the value of a header are downloaded.
-/
theorem download_succeeds_iff
    {Client : Type} [DecidableEq Client] (service : Service)
    {uploads : List (Uuid × Bytes)} {world : LedgerWorld Client}
    (reached :
      Reachable (emptyStore service) (uploading service.runtime uploads)
        world)
    (id : Uuid) :
    (∃ response,
        download service.runtime (.ok world.shared.committed)
            (fetchStored world.shared.emitted) id =
          .ok response) ↔
      ∃ artifact ∈ artifacts world.shared.committed,
        artifact.id = id ∧ isHeaderValue artifact.mediaType = true := by
  have kept := kept_blobsFirst reached
  simp only [download_eq_ok_iff]
  constructor
  · rintro ⟨response, artifact, found, _, _, printable, _, _⟩
    have named := List.find?_some found
    rw [decide_eq_true_eq] at named
    rw [Bool.and_eq_true] at printable
    exact ⟨artifact, List.mem_of_find?_eq_some found, named, printable.1⟩
  · rintro ⟨artifact, member, rfl, printable⟩
    have found := find?_artifacts (artifacts_pairwise reached) member
    rcases kept.committed _ (mem_artifacts.mp member) artifact rfl with
      ⟨data, _, isDigest, _, put⟩
    rcases exists_stored put with ⟨blob, isStored, put'⟩
    rcases kept.emitted _ put' _ _ rfl with ⟨digest, _, _⟩
    refine ⟨⟨artifact.mediaType, artifact.sha256, blob⟩, artifact, found, ?_,
      ?_, ?_, rfl, rfl⟩
    · rw [fetchStored, isDigest, isStored]
    · rw [isDigest, digest]
    · rw [printable, isDigest, isHeaderValue_sha256Hex]
      rfl

/-- The second of two uploads is downloaded. -/
theorem download_succeeds_twice :
    ∃ world : LedgerWorld Nat,
      Reachable (emptyStore uploadService)
          (uploading uploadService.runtime hiTwice) world ∧
        ∃ response,
          download uploadService.runtime (.ok world.shared.committed)
              (fetchStored world.shared.emitted) 2 =
            .ok response := by
  have starts : (emptyStore uploadService).initial (resting [runSeven]) :=
    ⟨⟨⟨rfl, fun _ => rfl, fun _ => rfl⟩, rfl⟩, fun _ => rfl⟩
  rcases
      Reachable.exists_of_replay
        (@uploading_of_uploadingOnly uploadService.runtime hiTwice)
        starts twoUploads
        (fun world =>
          (artifacts world.shared.committed).any fun artifact =>
            artifact.id = 2 && isHeaderValue artifact.mediaType)
        (by decide +kernel) with
    ⟨world, reached, check⟩
  rcases List.any_eq_true.mp check with ⟨artifact, member, facts⟩
  rw [Bool.and_eq_true, decide_eq_true_eq] at facts
  exact ⟨world, reached,
    (download_succeeds_iff uploadService reached 2).mpr
      ⟨artifact, member, facts⟩⟩

end Trackward.Ledger.Artifacts
