import Trackward.Gateway.BoundVersions
import Trackward.Gateway.SideEffectRecords
import Trackward.Lib.Sha256

/-!
# What a run was bound to

A gateway serves with the binding it has found out, so every run that is bound
leads back to the registry directory of one gateway.  Two bound runs share a
version exactly if their gateways had the same files for it.
-/

namespace Trackward.Gateway.BoundRuns

open Trackward.ChainCore.Encode
open Trackward.Gateway.Boot
open Trackward.Gateway.BoundVersions
open Trackward.Gateway.Calls
open Trackward.Gateway.Deployment
open Trackward.Gateway.Gateways
open Trackward.Gateway.Registry
open Trackward.Gateway.RegistryHashes
open Trackward.Gateway.RunProvenance
open Trackward.Gateway.SideEffectRecords (mailService)
open Trackward.Ledger.Actor
open Trackward.Ledger.Records
open Trackward.Ledger.Schema
open Trackward.Ledger.VersionRegistry
open Trackward.Lib
open Trackward.Lib.Admission
open Trackward.Lib.Collisions
open Trackward.Lib.Logs hiding Entry
open Trackward.Lib.Octets
open Trackward.Lib.Runs
open Trackward.Lib.Sessions

/-! ## One id for one version -/

section Versions

variable {entries : List Entry} {key key' : VersionKey} {id id' : Uuid}

/-- The keys are of one table. -/
def SameTable : VersionKey → VersionKey → Prop
  | .prompt _ _ _, .prompt _ _ _ => True
  | .policy _ _ _, .policy _ _ _ => True
  | _, _ => False

theorem SameTable.symm (sameTable : SameTable key key') :
    SameTable key' key := by
  cases key <;> cases key' <;> exact sameTable

theorem key_eq_of_isVersion {record : Record}
    (one : isVersion key record = true) (two : isVersion key' record = true) :
    key = key' := by
  cases record with
  | promptVersion | policyVersion =>
      rw [isVersion, decide_eq_true_eq] at one two
      rw [one, two]
  | evalResult | binding | custodyEvent | case | caseEvidence
  | exportBundle => cases one

/-- Rows of two versions in one table clash if they have one id. -/
theorem clash_of_id (sameTable : SameTable key key') {first second : Record}
    (one : isVersion key first = true) (two : isVersion key' second = true)
    (same : versionId first = versionId second) :
    clash first second = true := by
  cases first with
  | promptVersion row =>
      cases second with
      | promptVersion row' => simp [clash, show row.id = row'.id from same]
      | policyVersion row' =>
          simp only [isVersion, decide_eq_true_eq] at one two
          rw [one, two] at sameTable
          exact sameTable.elim
      | evalResult | binding | custodyEvent | case | caseEvidence
      | exportBundle => cases two
  | policyVersion row =>
      cases second with
      | policyVersion row' => simp [clash, show row.id = row'.id from same]
      | promptVersion row' =>
          simp only [isVersion, decide_eq_true_eq] at one two
          rw [one, two] at sameTable
          exact sameTable.elim
      | evalResult | binding | custodyEvent | case | caseEvidence
      | exportBundle => cases two
  | evalResult | binding | custodyEvent | case | caseEvidence
  | exportBundle => cases one

/-- Accepted records that clash with each other are one record. -/
theorem eq_of_clash (accepted : Accepted accepts entries)
    {first second : Record} (member : Entry.ofRecord first ∈ entries)
    (member' : Entry.ofRecord second ∈ entries)
    (clashes : clash first second = true)
    (clashes' : clash second first = true) : first = second := by
  have inside {record : Record} (member : Entry.ofRecord record ∈ entries) :
      record ∈ records entries :=
    List.mem_filterMap.mpr ⟨_, member, rfl⟩
  let apart (one other : Record) : Prop :=
    clash one other = false ∨ clash other one = false
  have symmetric : Std.Symm apart := ⟨fun _ _ => Or.symm⟩
  have pairwise : (records entries).Pairwise apart :=
    (pairwise_records accepted).imp Or.inl
  by_contra different
  rcases pairwise.forall (inside member) (inside member') different with
    free | free
  · rw [free] at clashes
    cases clashes
  · rw [free] at clashes'
    cases clashes'

/-- Two versions have one id exactly if they are one version. -/
theorem id_eq_iff (accepted : Accepted accepts entries)
    (sameTable : SameTable key key') (one : Registered entries key id)
    (two : Registered entries key' id') : id = id' ↔ key = key' := by
  rcases one with ⟨first, ⟨isFirst, rfl⟩, member⟩
  rcases two with ⟨second, ⟨isSecond, rfl⟩, member'⟩
  constructor
  · intro same
    cases
      eq_of_clash accepted member member'
        (clash_of_id sameTable isFirst isSecond same)
        (clash_of_id sameTable.symm isSecond isFirst same.symm)
    exact key_eq_of_isVersion isFirst isSecond
  · rintro rfl
    rw [eq_of_clash accepted member member'
      (clash_of_isVersion isFirst isSecond)
      (clash_of_isVersion isSecond isFirst)]

end Versions

/-! ## The files behind a version -/

/-- Prompts with one name, one version and the same files. -/
def SamePrompt (first second : Source Directory) : Prop :=
  first.name = second.name ∧ first.version = second.version ∧
    SameFiles first.content second.content

/-- Everything that a gateway hashes of its registry. -/
def registryStrings (sha256 : Bytes → Digest) (registry : RegistryBinding) :
    List Bytes :=
  registry.prompt?.elim []
      (fun source => hashedStrings sha256 source.content) ++
    registry.policy?.elim [] fun source => [source.content]

/-- The files of the prompt have plain names on one line. -/
def PlainPrompt (registry : RegistryBinding) : Prop :=
  ∀ source, registry.prompt? = some source →
    ∀ file ∈ source.content.files, OneLine file.1

section Sources

variable {sha256 : Bytes → Digest} {registry registry' : RegistryBinding}

theorem versionOfPrompt_eq_iff
    (free :
      CollisionFree sha256
        (registryStrings sha256 registry ++ registryStrings sha256 registry'))
    (plain : PlainPrompt registry) (plain' : PlainPrompt registry')
    {source source' : Source Directory}
    (found : registry.prompt? = some source)
    (found' : registry'.prompt? = some source') :
    versionOfPrompt sha256 source = versionOfPrompt sha256 source' ↔
      SamePrompt source source' := by
  rw [versionOfPrompt, versionOfPrompt, VersionKey.prompt.injEq, SamePrompt]
  refine and_congr_right fun _ => and_congr_right fun _ => ?_
  constructor
  · refine sameFiles_of_oneLine (free.subset ?_) (plain' source' found')
      (plain source found)
    intro input member
    simp only [registryStrings, found, found', Option.elim_some]
    rcases List.mem_append.mp member with second | first
    · exact List.mem_append_right _ (List.mem_append_left _ second)
    · exact List.mem_append_left _ (List.mem_append_left _ first)
  · exact hashDirectory_eq_of_sameFiles

theorem versionOfPolicy_eq_iff
    (free :
      CollisionFree sha256
        (registryStrings sha256 registry ++ registryStrings sha256 registry'))
    {source source' : Source Bytes} (found : registry.policy? = some source)
    (found' : registry'.policy? = some source') :
    versionOfPolicy sha256 source = versionOfPolicy sha256 source' ↔
      source = source' := by
  constructor
  · intro same
    rw [versionOfPolicy, versionOfPolicy, VersionKey.policy.injEq] at same
    rcases same with ⟨name, version, hash⟩
    have digest := Block.ext (Hexadecimal.encode_injective hash)
    have content : source.content = source'.content := by
      refine free _ ?_ _ ?_ digest
      · simp [registryStrings, found]
      · simp [registryStrings, found']
    cases source
    cases source'
    cases name
    cases version
    cases content
    rfl
  · rintro rfl
    rfl

end Sources

/-- What options are related to is one thing if they are related. -/
theorem eq_iff_rel {α β : Type} {first second : α → β → Prop}
    {same : α → α → Prop} {source source' : Option α} {found found' : Option β}
    (one : Option.Rel first source found)
    (two : Option.Rel second source' found')
    (each :
      ∀ value value', source = some value → source' = some value' →
        ∀ image image', first value image → second value' image' →
          (image = image' ↔ same value value')) :
    found = found' ↔ Option.Rel same source source' := by
  cases one with
  | none => cases two <;> simp
  | @some value image related =>
      cases two with
      | none => simp
      | @some value' image' related' =>
          rw [Option.some_inj, Option.rel_some_some]
          exact each value value' rfl rfl image image' related related'

/-! ## Two gateways -/

/-- A directory with another file `a`. -/
def editedFile : Directory where
  listing := .file nameA [0x79] .done
  distinct := oneFile.distinct

/-- A gateway for mail with a prompt of its own. -/
def mailGateway (prompt : Directory) : Instance where
  runtime := mailService.runtime
  config := mailService.config
  registry :=
    { registryDir :=
        some
          { prompts := fun _ _ => some (.ok prompt)
            policies := fun _ _ => some (.ok [0x70]) }
      promptWorkflow := some "triage"
      promptVersion := some "1.0.0"
      policyScope := some "global"
      policyVersion := some "1.0.0"
      gitSha := none }
  retrievalBackend := none
  client := trustedSetup.client
  wire := trustedSetup.wire
  refusal := fun _ => "refused"
  multipart := fun _ => []
  jsonToVec := fun _ => []
  jsonError := fun _ => ""

/-- Two gateways, of which one has an edited prompt. -/
def twoGateways : Fleet Bool where
  ledger := guardedState
  order := .stable
  sha256 := Sha256.sha256
  gateways := fun edited =>
    mailGateway (if edited then editedFile else oneFile)

theorem plain_twoGateways (name : Bool) :
    PlainPrompt (twoGateways.gateways name).registry := by
  have oneLine : OneLine [nameA] := by
    intro other member
    rw [List.mem_singleton.mp member]
    exact ⟨⟨by decide, by decide⟩, by decide⟩
  rintro source found file member
  cases name with
  | false | true =>
      cases found
      rw [List.mem_singleton.mp member]
      exact oneLine

theorem free_twoGateways (name name' : Bool) :
    CollisionFree twoGateways.sha256
      (registryStrings twoGateways.sha256
          (twoGateways.gateways name).registry ++
        registryStrings twoGateways.sha256
          (twoGateways.gateways name').registry) := by
  cases name <;> cases name' <;> decide +kernel

/-- No gateway has started yet. -/
def idleGateways : FleetWorld Nat Bool where
  shared :=
    { gateways := fun _ => .initial
      bindings := fun _ => none
      ledger := idleDeployment.shared.ledger }
  sessions := fun _ => none

theorem initial_idleGateways :
    (gateways Nat twoGateways).initial idleGateways :=
  ⟨⟨fun _ => rfl, fun _ => rfl, rfl, fun _ => rfl, fun _ => rfl⟩,
    fun _ => rfl⟩

/-- An evaluation of the prompt. -/
def triageEval : EvalResult where
  id := 7
  workflow := "triage"
  version := "1.0.0"
  promptVersionId := none
  gitSha := "unknown"
  contentHash := "00"
  passed := true
  summary := .null
  ranAt := ⟨7000000, by decide, by decide⟩
  actorId := "ci"

theorem unbinding_evalResult (row : EvalResult) :
    Unbinding (.ofRecord (.evalResult row)) := by
  rintro bound ⟨⟩

/-- The evaluation is recorded. -/
def recordEval : FleetRequest Bool :=
  .other
    (.call (.publish (.ofRecord (.evalResult triageEval))) fun _ => .done ())
    ⟨unbinding_evalResult triageEval, fun _ => trivial⟩

/-- A session comes and is answered. -/
def session (client : Nat) (request : FleetRequest Bool)
    (answers : List DeployedChoice) :
    List (Move Nat (FleetRequest Bool) DeployedChoice) :=
  .arrive client request :: answers.map (.answer client)

/-- A request reaches the ledger, and its statements succeed. -/
def sent (id : Uuid) (statements : Nat) : List DeployedChoice :=
  .arrive ⟨id, .epoch, .epoch⟩ ::
    List.replicate statements (.statement (.succeed 0)) ++ [.proceed]

/--
One gateway starts before the evaluation and one after it; each of them binds
a run.
-/
def twoStarts : List (Move Nat (FleetRequest Bool) DeployedChoice) :=
  session 0 (.start false) (sent 11 2 ++ sent 12 2 ++ sent 0 1 ++ [.proceed]) ++
    session 1 recordEval [.statement (.succeed 0)] ++
    session 2 (.start true)
      (sent 13 2 ++ sent 14 1 ++ sent 0 1 ++ [.proceed]) ++
    session 3 (.serve false (.tool "mail" none .null))
      (.proceed :: sent 3 1 ++ sent 0 2) ++
    session 4 (.serve true (.tool "mail" none .null))
      (.proceed :: sent 4 1 ++ sent 0 2)

/-- The binding in an entry. -/
def binding? : Entry → Option RunVersionBinding
  | .ofRecord (.binding row) => some row
  | _ => none

/-- What the runs are bound to. -/
def boundIds (world : FleetWorld Nat Bool) :
    List (Option Uuid × Option Uuid × Option Uuid) :=
  (world.shared.ledger.committed.filterMap binding?).map fun row =>
    (row.promptVersionId, row.policyVersionId, row.evalResultId)

/-- Both gateways have bound a run. -/
theorem exists_twoStarts :
    ∃ (world : FleetWorld Nat Bool) (row row' : RunVersionBinding),
      Reachable (gateways Nat twoGateways) unrestricted world ∧
        Entry.ofRecord (.binding row) ∈ world.shared.ledger.committed ∧
          Entry.ofRecord (.binding row') ∈ world.shared.ledger.committed ∧
            bindingOf row = ⟨some 11, some 12, none⟩ ∧
              bindingOf row' = ⟨some 13, some 12, some 7⟩ := by
  rcases
      Reachable.exists_of_replay unrestricted_of_anyMove initial_idleGateways
        twoStarts
        (fun world =>
          boundIds world =
            [(some 11, some 12, none), (some 13, some 12, some 7)])
        (by decide +kernel) with
    ⟨world, reached, bound⟩
  have mem_of_mem {row : RunVersionBinding}
      (member :
        row ∈ world.shared.ledger.committed.filterMap binding?) :
      Entry.ofRecord (.binding row) ∈ world.shared.ledger.committed := by
    rcases List.mem_filterMap.mp member with ⟨entry, inside, isRow⟩
    cases entry with
    | ofRow => cases isRow
    | ofRecord record =>
        cases record <;> cases isRow
        exact inside
  rw [decide_eq_true_eq, boundIds, List.map_eq_cons_iff] at bound
  rcases bound with ⟨row, others, rows, one, later⟩
  rcases List.map_eq_cons_iff.mp later with ⟨row', _, rfl, two, _⟩
  refine ⟨world, row, row', reached, ?_, ?_, ?_, ?_⟩
  · exact mem_of_mem (rows ▸ List.mem_cons_self)
  · exact mem_of_mem (rows ▸ List.mem_cons_of_mem _ List.mem_cons_self)
  · cases row
    cases one
    rfl
  · cases row'
    cases two
    rfl

/-! ## Bound runs -/

section Runs

variable {Name Client : Type} [DecidableEq Client] [DecidableEq Name]
variable {fleet : Fleet Name} {world : FleetWorld Client Name}

/--
A run that is bound is bound to what one gateway has found out: the prompt and
the policy in its registry directory, registered with their hashes, and the
last evaluation of the prompt that there was.
-/
theorem resolved_of_bound
    (reached : Reachable (gateways Client fleet) unrestricted world)
    {row : RunVersionBinding}
    (member : .ofRecord (.binding row) ∈ world.shared.ledger.committed) :
    ∃ name,
      (bindingOf row).isEmpty = false ∧
        Resolved fleet world.shared.ledger.committed name (bindingOf row) := by
  rcases exists_logged reached with ⟨log, run⟩
  rcases exists_listened_of_binding run member with ⟨name, nonempty, listens⟩
  exact ⟨name, nonempty, resolved_of_listened run listens nonempty⟩

/-- A run of two gateways in which the evaluation is bound. -/
theorem resolved_of_bound_twoStarts :
    ∃ (world : FleetWorld Nat Bool) (row : RunVersionBinding) (name : Bool),
      Reachable (gateways Nat twoGateways) unrestricted world ∧
        bindingOf row = ⟨some 13, some 12, some 7⟩ ∧
          Resolved twoGateways world.shared.ledger.committed name
            (bindingOf row) := by
  rcases exists_twoStarts with
    ⟨world, row, row', reached, member, member', bound, bound'⟩
  rcases resolved_of_bound reached member' with ⟨name, _, resolved⟩
  exact ⟨world, row', name, reached, bound', resolved⟩

/--
Two bound runs share the version of a prompt exactly if their gateways had the
same files for it under one name and one version, and the version of a policy
exactly if they had the same file.
-/
theorem sameVersions_iff
    (free :
      ∀ name name',
        CollisionFree fleet.sha256
          (registryStrings fleet.sha256 (fleet.gateways name).registry ++
            registryStrings fleet.sha256 (fleet.gateways name').registry))
    (plain : ∀ name, PlainPrompt (fleet.gateways name).registry)
    (reached : Reachable (gateways Client fleet) unrestricted world)
    {row row' : RunVersionBinding}
    (member : .ofRecord (.binding row) ∈ world.shared.ledger.committed)
    (member' : .ofRecord (.binding row') ∈ world.shared.ledger.committed) :
    ∃ name name',
      Resolved fleet world.shared.ledger.committed name (bindingOf row) ∧
        Resolved fleet world.shared.ledger.committed name'
            (bindingOf row') ∧
          (row.promptVersionId = row'.promptVersionId ↔
            Option.Rel SamePrompt (fleet.gateways name).registry.prompt?
              (fleet.gateways name').registry.prompt?) ∧
            (row.policyVersionId = row'.policyVersionId ↔
              Option.Rel Eq (fleet.gateways name).registry.policy?
                (fleet.gateways name').registry.policy?) := by
  rcases exists_logged reached with ⟨log, run⟩
  have accepted := accepted_of_run run
  rcases exists_listened_of_binding run member with ⟨name, nonempty, listens⟩
  rcases exists_listened_of_binding run member' with
    ⟨name', nonempty', listens'⟩
  have resolved := resolved_of_listened run listens nonempty
  have resolved' := resolved_of_listened run listens' nonempty'
  refine ⟨name, name', resolved, resolved', ?_, ?_⟩
  · apply eq_iff_rel resolved.prompt resolved'.prompt
    intro source source' found found' id id' one two
    have sameTable :
        SameTable (versionOfPrompt fleet.sha256 source)
          (versionOfPrompt fleet.sha256 source') :=
      trivial
    rw [id_eq_iff accepted sameTable one two]
    exact
      versionOfPrompt_eq_iff (free name name') (plain name) (plain name')
        found found'
  · apply eq_iff_rel resolved.policy resolved'.policy
    intro source source' found found' id id' one two
    have sameTable :
        SameTable (versionOfPolicy fleet.sha256 source)
          (versionOfPolicy fleet.sha256 source') :=
      trivial
    rw [id_eq_iff accepted sameTable one two]
    exact versionOfPolicy_eq_iff (free name name') found found'

/-- Two runs with different prompts and one policy. -/
theorem sameVersions_iff_twoStarts :
    ∃ (row row' : RunVersionBinding) (name name' : Bool),
      row.promptVersionId ≠ row'.promptVersionId ∧
        ¬ Option.Rel SamePrompt
            (twoGateways.gateways name).registry.prompt?
            (twoGateways.gateways name').registry.prompt? ∧
          row.policyVersionId = row'.policyVersionId ∧
            Option.Rel Eq (twoGateways.gateways name).registry.policy?
              (twoGateways.gateways name').registry.policy? := by
  rcases exists_twoStarts with
    ⟨world, row, row', reached, member, member', bound, bound'⟩
  rcases
      sameVersions_iff free_twoGateways plain_twoGateways reached member
        member' with
    ⟨name, name', _, _, prompts, policies⟩
  have first : row.promptVersionId = some 11 :=
    congrArg ResolvedBinding.promptVersionId bound
  have second : row'.promptVersionId = some 13 :=
    congrArg ResolvedBinding.promptVersionId bound'
  have policy : row.policyVersionId = some 12 :=
    congrArg ResolvedBinding.policyVersionId bound
  have policy' : row'.policyVersionId = some 12 :=
    congrArg ResolvedBinding.policyVersionId bound'
  have differ : row.promptVersionId ≠ row'.promptVersionId := by
    rw [first, second]
    decide
  have same := policy.trans policy'.symm
  exact
    ⟨row, row', name, name', differ, fun related =>
      differ (prompts.mpr related), same, policies.mp same⟩

end Runs

end Trackward.Gateway.BoundRuns
