import Trackward.Ledger.Artifacts

/-!
# Uploads whose body breaks off

The loop over the parts of an upload ends in the same way at the end of the
body and at an error of the stream.  Everything else that can fail in a part is
refused, so a body that breaks off is refused too when something it should have
had is missing by then, or when a part before the break cannot be read.
Otherwise the upload goes on with what has arrived: its bytes are stored and
chained with the defaults of whatever was lost.
-/

namespace Trackward.Ledger.BrokenUploads

open Trackward.ChainCore.Encode
open Trackward.Ledger.Artifacts
open Trackward.Ledger.Chain
open Trackward.Ledger.Concurrency
open Trackward.Ledger.Models
open Trackward.Ledger.Routes
open Trackward.Lib.Octets
open Trackward.Lib.Programs
open Trackward.Lib.Runs
open Trackward.Lib.Sessions
open Trackward.Lib.Transactions

/-! ## What arrives before the break -/

/-- A body with these parts, and then an error of its stream. -/
def brokenBody (parts : List Part) (message : String)
    (rest : List (Except String Part)) : List (Except String Part) :=
  parts.map .ok ++ .error message :: rest

/-- What the endpoint needs of a part with this name arrives and parses. -/
def Readable (runtime : Runtime) (part : Part) : Prop :=
  match part.name.getD "" with
  | "run_id" =>
      ∃ text runId, part.text = .ok text ∧ runtime.parseUuid text = .ok runId
  | "label" => ∃ text, part.text = .ok text
  | "media_type" => ∃ text, part.text = .ok text
  | "metadata" =>
      ∃ text metadata,
        part.text = .ok text ∧ runtime.parseJson text = .ok metadata
  | "file" => ∃ data, part.bytes = .ok data
  | _ => True

/-- The parts can all be read, and have all that an upload must have. -/
structure Suffices (runtime : Runtime) (parts : List Part) : Prop where
  readable : ∀ part ∈ parts, Readable runtime part
  runId : ∃ part ∈ parts, part.name = some "run_id"
  file : ∃ part ∈ parts, part.name = some "file"

/-- The statement stores nothing. -/
def Harmless : Op Int64 Row Effect → Prop
  | .insert _ => False
  | .publish _ => False
  | .emit _ => False
  | _ => True

/-- Whatever is answered, the upload fails and stores nothing. -/
def Refused (runtime : Runtime) (actor : String) (id : Uuid)
    (body : List (Except String Part)) : Prop :=
  ∀ events outcome,
    (uploadArtifact runtime actor id body).Executes events outcome →
      (∃ exit, outcome = .error exit) ∧ ∀ event ∈ events, Harmless event.op

/-! ## Reading one part -/

theorem name_eq_of_getD {part : Part} {name : String} (named : name ≠ "")
    (same : part.name.getD "" = name) : part.name = some name := by
  cases found : part.name with
  | none =>
      rw [found] at same
      exact absurd same.symm named
  | some text =>
      rw [found] at same
      exact congrArg some same

theorem badRequest_eq_ok_iff {α : Type} {context : String}
    {result : Except String α} {value : α} :
    badRequest context result = .ok value ↔ result = .ok value := by
  cases result <;> simp [badRequest]

/-- A part that can be read is taken into account. -/
theorem exists_read {runtime : Runtime} {part : Part}
    (readable : Readable runtime part) (upload : Upload) :
    ∃ next, upload.read runtime part = .ok next := by
  unfold Readable at readable
  split at readable
  case h_1 named =>
      rcases readable with ⟨text, runId, arrives, parses⟩
      rw [Upload.read, named]
      simp only [bind_eq_ok_iff, badRequest_eq_ok_iff]
      exact ⟨_, text, arrives, runId, parses, rfl⟩
  case h_2 named =>
      rcases readable with ⟨text, arrives⟩
      rw [Upload.read, named]
      simp only [bind_eq_ok_iff, badRequest_eq_ok_iff]
      exact ⟨_, text, arrives, rfl⟩
  case h_3 named =>
      rcases readable with ⟨text, arrives⟩
      rw [Upload.read, named]
      simp only [bind_eq_ok_iff, badRequest_eq_ok_iff]
      exact ⟨_, text, arrives, rfl⟩
  case h_4 named =>
      rcases readable with ⟨text, metadata, arrives, parses⟩
      rw [Upload.read, named]
      simp only [bind_eq_ok_iff, badRequest_eq_ok_iff]
      exact ⟨_, text, arrives, metadata, parses, rfl⟩
  case h_5 named =>
      rcases readable with ⟨data, arrives⟩
      rw [Upload.read, named]
      simp only [bind_eq_ok_iff, badRequest_eq_ok_iff]
      exact ⟨_, data, arrives, rfl⟩
  case h_6 =>
      unfold Upload.read
      split
      all_goals first | contradiction | exact ⟨_, rfl⟩

/-- A part that was taken into account can be read, and sets what it names. -/
theorem readable_of_read {runtime : Runtime} {upload next : Upload}
    {part : Part} (read : upload.read runtime part = .ok next) :
    Readable runtime part ∧
      (next.runId.isSome ↔
        upload.runId.isSome ∨ part.name = some "run_id") ∧
        (next.fileData.isSome ↔
          upload.fileData.isSome ∨ part.name = some "file") := by
  unfold Upload.read at read
  split at read
  case h_1 named =>
      have name := name_eq_of_getD (by decide) named
      simp only [bind_eq_ok_iff, badRequest_eq_ok_iff] at read
      rcases read with ⟨text, arrives, runId, parses, ⟨⟩⟩
      rw [Readable, named]
      exact ⟨⟨text, runId, arrives, parses⟩, by simp [name], by simp [name]⟩
  case h_2 named =>
      have name := name_eq_of_getD (by decide) named
      simp only [bind_eq_ok_iff, badRequest_eq_ok_iff] at read
      rcases read with ⟨text, arrives, ⟨⟩⟩
      rw [Readable, named]
      exact ⟨⟨text, arrives⟩, by simp [name], by simp [name]⟩
  case h_3 named =>
      have name := name_eq_of_getD (by decide) named
      simp only [bind_eq_ok_iff, badRequest_eq_ok_iff] at read
      rcases read with ⟨text, arrives, ⟨⟩⟩
      rw [Readable, named]
      exact ⟨⟨text, arrives⟩, by simp [name], by simp [name]⟩
  case h_4 named =>
      have name := name_eq_of_getD (by decide) named
      simp only [bind_eq_ok_iff, badRequest_eq_ok_iff] at read
      rcases read with ⟨text, arrives, metadata, parses, ⟨⟩⟩
      rw [Readable, named]
      exact ⟨⟨text, metadata, arrives, parses⟩, by simp [name], by simp [name]⟩
  case h_5 named =>
      have name := name_eq_of_getD (by decide) named
      simp only [bind_eq_ok_iff, badRequest_eq_ok_iff] at read
      rcases read with ⟨data, arrives, ⟨⟩⟩
      rw [Readable, named]
      exact ⟨⟨data, arrives⟩, by simp [name], by simp [name]⟩
  case h_6 noRunId _ _ _ noFile =>
      cases read
      have notRunId : part.name ≠ some "run_id" := fun name =>
        noRunId (congrArg (Option.getD · "") name)
      have notFile : part.name ≠ some "file" := fun name =>
        noFile (congrArg (Option.getD · "") name)
      refine ⟨?_, by simp [notRunId], by simp [notFile]⟩
      unfold Readable
      split
      all_goals first | contradiction | trivial

/-! ## Reading the body up to its break -/

/-- A broken body is read up to its break if every part can be read. -/
theorem exists_readAll {runtime : Runtime} {parts : List Part}
    (readable : ∀ part ∈ parts, Readable runtime part) (upload : Upload)
    (message : String) (rest : List (Except String Part)) :
    ∃ final,
      Upload.readAll runtime upload (brokenBody parts message rest) =
        .ok final := by
  induction parts generalizing upload with
  | nil => exact ⟨upload, rfl⟩
  | cons part parts induction =>
      rw [List.forall_mem_cons] at readable
      rcases exists_read readable.1 upload with ⟨next, read⟩
      rcases induction readable.2 next with ⟨final, readRest⟩
      refine ⟨final, ?_⟩
      rw [brokenBody, List.map_cons, List.cons_append, Upload.readAll, read]
      exact readRest

/-- What was read of a broken body can be read, and sets what it names. -/
theorem readable_of_readAll {runtime : Runtime} {parts : List Part}
    {upload final : Upload} {message : String}
    {rest : List (Except String Part)}
    (read :
      Upload.readAll runtime upload (brokenBody parts message rest) =
        .ok final) :
    (∀ part ∈ parts, Readable runtime part) ∧
      (final.runId.isSome ↔
        upload.runId.isSome ∨ ∃ part ∈ parts, part.name = some "run_id") ∧
        (final.fileData.isSome ↔
          upload.fileData.isSome ∨
            ∃ part ∈ parts, part.name = some "file") := by
  induction parts generalizing upload with
  | nil =>
      cases read
      simp
  | cons part parts induction =>
      rw [brokenBody, List.map_cons, List.cons_append, Upload.readAll,
        bind_eq_ok_iff] at read
      rcases read with ⟨next, first, later⟩
      rcases readable_of_read first with ⟨readable, runId, file⟩
      rcases induction later with ⟨readable', runId', file'⟩
      refine ⟨List.forall_mem_cons.mpr ⟨readable, readable'⟩, ?_, ?_⟩
      · rw [runId', runId]
        simp only [List.mem_cons, exists_eq_or_imp, or_assoc]
      · rw [file', file]
        simp only [List.mem_cons, exists_eq_or_imp, or_assoc]

/-- What has arrived names a run and a file. -/
theorem suffices_of_readAll {runtime : Runtime} {parts : List Part}
    {final : Upload} {message : String} {rest : List (Except String Part)}
    (read :
      Upload.readAll runtime Upload.initial (brokenBody parts message rest) =
        .ok final) :
    Suffices runtime parts ↔
      final.runId.isSome ∧ final.fileData.isSome := by
  rcases readable_of_readAll read with ⟨readable, runId, file⟩
  have noRunId : ¬ Upload.initial.runId.isSome := Bool.false_ne_true
  have noFile : ¬ Upload.initial.fileData.isSome := Bool.false_ne_true
  rw [runId, file]
  constructor
  · intro suffices'
    exact ⟨Or.inr suffices'.runId, Or.inr suffices'.file⟩
  · rintro ⟨named, named'⟩
    exact
      ⟨readable, named.resolve_left noRunId, named'.resolve_left noFile⟩

/-! ## What becomes of the upload -/

/-- Without all it needs the upload ends before it has called anything. -/
theorem uploadArtifact_eq_raise {runtime : Runtime} {parts : List Part}
    (lacks : ¬ Suffices runtime parts) (actor : String) (id : Uuid)
    (message : String) (rest : List (Except String Part)) :
    ∃ exit,
      uploadArtifact runtime actor id (brokenBody parts message rest) =
        .raise exit := by
  cases read :
      Upload.readAll runtime Upload.initial
        (brokenBody parts message rest) with
  | error exit =>
      rw [uploadArtifact, read]
      exact ⟨exit, rfl⟩
  | ok upload =>
      rw [suffices_of_readAll read] at lacks
      rw [uploadArtifact, read]
      rcases upload with ⟨_ | runId, label, mediaType, _ | data, metadata⟩
      · exact ⟨_, rfl⟩
      · exact ⟨_, rfl⟩
      · exact ⟨_, rfl⟩
      · exact absurd ⟨rfl, rfl⟩ lacks

/-- With all it needs the upload goes on and stores its bytes. -/
theorem uploadArtifact_eq_call {runtime : Runtime} {parts : List Part}
    (suffices' : Suffices runtime parts) (actor : String) (id : Uuid)
    (message : String) (rest : List (Except String Part)) :
    ∃ effect next,
      uploadArtifact runtime actor id (brokenBody parts message rest) =
        .call (.emit effect) next := by
  rcases
      exists_readAll suffices'.readable Upload.initial message rest with
    ⟨upload, read⟩
  rw [suffices_of_readAll read] at suffices'
  rw [uploadArtifact, read]
  rcases upload with ⟨_ | runId, label, mediaType, _ | data, metadata⟩
  · exact absurd suffices'.1 Bool.false_ne_true
  · exact absurd suffices'.1 Bool.false_ne_true
  · exact absurd suffices'.2 Bool.false_ne_true
  · exact ⟨_, _, rfl⟩

/-- Every statement succeeds, over an empty database. -/
def succeeding : (op : Op Int64 Row Effect) → ledgerDb.Answer op
  | .begin => Except.ok (0 : Int)
  | .lock _ => Except.ok ()
  | .select => Except.ok []
  | .insert _ => Except.ok ()
  | .commit => Except.ok ()
  | .publish _ => Except.ok ()
  | .emit _ => Except.ok ()

/-- A broken body that lacks nothing is not refused. -/
theorem not_refused_of_suffices {runtime : Runtime} {parts : List Part}
    (suffices' : Suffices runtime parts) (actor : String) (id : Uuid)
    (message : String) (rest : List (Except String Part)) :
    ¬ Refused runtime actor id (brokenBody parts message rest) := by
  intro refused
  rcases uploadArtifact_eq_call suffices' actor id message rest with
    ⟨effect, next, calls⟩
  rcases
      Program.exists_executes succeeding
        (uploadArtifact runtime actor id (brokenBody parts message rest)) with
    ⟨events, outcome, ran, _⟩
  have harmless := (refused events outcome ran).2
  rw [calls] at ran
  rcases Program.executes_call_iff.mp ran with ⟨answer, later, rfl, _⟩
  exact harmless _ List.mem_cons_self

/-! ### A form that breaks off before its label -/

/-- The parts of a form that arrive before it breaks off. -/
def arrivedParts : List Part :=
  [formPart "run_id" (uuidText 7), formPart "file" "hi"]

/-- A form that breaks off before its label. -/
def truncatedForm : List (Except String Part) :=
  brokenBody arrivedParts "incomplete multipart stream"
    [.ok (formPart "label" "report")]

theorem suffices_arrivedParts :
    Suffices uploadService.runtime arrivedParts where
  readable := by
    rw [arrivedParts, List.forall_mem_cons, List.forall_mem_cons]
    exact
      ⟨⟨uuidText 7, 7, rfl, rfl⟩, ⟨utf8 "hi", rfl⟩, List.forall_mem_nil _⟩
  runId := ⟨_, List.mem_cons_self, rfl⟩
  file := ⟨_, List.mem_cons_of_mem _ List.mem_cons_self, rfl⟩

/--
An upload whose body breaks off is refused, with nothing stored, exactly when
what has arrived before the break cannot all be read, or names no run or no
file.
-/
theorem refused_brokenBody_iff {runtime : Runtime} {actor : String}
    {id : Uuid} (parts : List Part) (message : String)
    (rest : List (Except String Part)) :
    Refused runtime actor id (brokenBody parts message rest) ↔
      ¬ Suffices runtime parts := by
  constructor
  · intro refused suffices'
    exact not_refused_of_suffices suffices' actor id message rest refused
  · intro lacks events outcome ran
    rcases uploadArtifact_eq_raise lacks actor id message rest with
      ⟨exit, raises⟩
    rw [raises] at ran
    rcases Program.executes_raise_iff.mp ran with ⟨rfl, rfl⟩
    exact ⟨⟨exit, rfl⟩, List.forall_mem_nil _⟩

/-- A truncated upload is stored, and chained with an empty label. -/
theorem not_refused_truncatedForm :
    ¬ Refused uploadService.runtime "test" 1 truncatedForm ∧
      ∃ world : LedgerWorld Nat,
        Reachable (emptyStore uploadService) unrestricted world ∧
          (artifacts world.shared.committed).map (fun row => row.label) =
            [""] := by
  constructor
  · exact not_refused_of_suffices suffices_arrivedParts _ _ _ _
  · have starts : (emptyStore uploadService).initial (resting [runSeven]) :=
      ⟨⟨⟨rfl, fun _ => rfl, fun _ => rfl⟩, rfl⟩, fun _ => rfl⟩
    rcases
        @Reachable.exists_of_replay _ _ (emptyStore uploadService)
          unrestricted (fun _ _ => true) (fun _ _ _ => trivial) _ starts
          (.arrive 1 (.write (.artifact "test" 1 truncatedForm)) ::
            answers 1 1 6)
          (fun world =>
            decide
              ((artifacts world.shared.committed).map (fun row => row.label) =
                [""]))
          (by decide +kernel) with
      ⟨world, reached, check⟩
    exact ⟨world, reached, of_decide_eq_true check⟩

end Trackward.Ledger.BrokenUploads
