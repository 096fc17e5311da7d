import Trackward.Gateway.RegistryHashes
import Trackward.Gateway.RunProvenance

/-!
# The versions behind a binding

What a gateway has found out when it started is read back here from the rows of
the ledger.  A binding of a run names a prompt and a policy that were in the
registry directory of one gateway, under the names, the versions and the hashes
of their files, and the last evaluation there was at some moment.
-/

namespace Trackward.Gateway.BoundVersions

open Trackward.ChainCore.Encode
open Trackward.Gateway.Boot
open Trackward.Gateway.Calls
open Trackward.Gateway.Deployment
open Trackward.Gateway.Gateways
open Trackward.Gateway.Registry
open Trackward.Gateway.RunProvenance
open Trackward.Ledger.Actor
open Trackward.Ledger.Models (Effect Fault)
open Trackward.Ledger.Records
open Trackward.Ledger.VersionAnswers
open Trackward.Ledger.VersionRegistry
open Trackward.Lib
open Trackward.Lib.Admission
open Trackward.Lib.CheckThenInsert (OnRecord)
open Trackward.Lib.Logs hiding Entry
open Trackward.Lib.Octets
open Trackward.Lib.Programs
open Trackward.Lib.Programs.Program (Leaves)
open Trackward.Lib.Substitution

variable {Name Client : Type} {fleet : Fleet Name}

/-! ## What a request to the ledger was answered -/

section Requests

variable {β γ : Type}

/-- The statements of a handler, each as a step. -/
def stepOf (event : Program.Event wholeDb) : FleetEvent Name :=
  ⟨.statement event.op, event.answer⟩

theorem executes_onDatabase {program : Program wholeDb HttpError β}
    {events : List (FleetEvent Name)} {ending : Except HttpError β}
    (ran :
      (onDatabase program :
        Program (fleetHost Name) Empty _).Executes events (.ok ending)) :
    ∃ statements,
      program.Executes statements ending ∧ events = statements.map stepOf := by
  induction program generalizing events with
  | done value =>
      rcases Program.executes_done_iff.mp ran with ⟨rfl, same⟩
      cases same
      exact ⟨[], .done value, rfl⟩
  | raise error =>
      rcases Program.executes_done_iff.mp ran with ⟨rfl, same⟩
      cases same
      exact ⟨[], .raise error, rfl⟩
  | call op next induction =>
      rcases Program.executes_call_iff.mp ran with
        ⟨answer, rest, rfl, continued⟩
      rcases induction answer continued with ⟨statements, ran', rfl⟩
      exact
        ⟨⟨op, answer⟩ :: statements,
          @Program.Executes.call wholeDb _ _ _ _ answer _ _ ran', rfl⟩

/-- A request that is answered was served, and its handler has ended so. -/
theorem executes_send
    {handler : Arrival → Option (Program wholeDb HttpError β)}
    {unreadable : String} {read : Except HttpError β → Except String γ}
    {events : List (FleetEvent Name)} {value : γ}
    (ran :
      (send handler unreadable read :
        Program (fleetHost Name) Empty _).Executes events (.ok (.ok value))) :
    ∃ arrival program statements ending,
      handler arrival = some program ∧ program.Executes statements ending ∧
        read ending = .ok value ∧
          ∀ event ∈ statements, stepOf event ∈ events := by
  rcases Program.executes_call_iff.mp ran with ⟨answer, rest, rfl, continued⟩
  rcases answer with text | arrival
  · rcases Program.executes_done_iff.mp continued with ⟨_, absurdity⟩
    cases absurdity
  · change
      (served unreadable read (handler arrival)).Executes rest _ at continued
    cases handles : handler arrival with
    | none =>
        rw [handles] at continued
        rcases Program.executes_done_iff.mp continued with ⟨_, absurdity⟩
        cases absurdity
    | some program =>
        rw [handles] at continued
        rcases executes_splice continued with
          ⟨ending, before, after, rfl, onLedger, returning⟩
        rcases executes_onDatabase onLedger with ⟨statements, ran', rfl⟩
        rcases Program.executes_call_iff.mp returning with
          ⟨reply, rest', rfl, last⟩
        refine ⟨arrival, program, statements, ending, handles, ran', ?_, ?_⟩
        · cases reply with
          | ok sent =>
              rcases Program.executes_done_iff.mp last with ⟨_, same⟩
              exact (Except.ok.inj same).symm
          | error text =>
              rcases Program.executes_done_iff.mp last with ⟨_, absurdity⟩
              cases absurdity
        · intro event member
          exact
            List.mem_cons_of_mem _
              (List.mem_append_left _ (List.mem_map_of_mem member))

/-- What was read has a value if the handler has succeeded. -/
theorem exists_ok_of_reading {refusal : HttpError → String} {part : β → γ}
    {ending : Except HttpError β} {value : γ}
    (read : reading refusal part ending = .ok value) :
    ∃ found, ending = .ok found ∧ part found = value := by
  cases ending with
  | ok found =>
      cases read
      exact ⟨found, rfl, rfl⟩
  | error error => cases read

end Requests

/-! ## What is read is committed -/

/-- The rows of a version that a gateway was answered. -/
structure VersionOf (key : VersionKey) (id : Uuid) (record : Record) :
    Prop where
  versioned : isVersion key record = true
  isId : versionId record = id

/--
The ledger has answered a gateway with statements that found a version on
record, or listed the last evaluation.
-/
def Told (events : List (FleetEvent Name)) :
    (call : RegistryCall) → call.Reply → Prop
  | .registerPromptVersion workflow version _ contentHash, id =>
      ∃ (statements : List (Program.Event wholeDb)) (record : Record),
        VersionOf (.prompt workflow version contentHash) id record ∧
          OnRecord statements (Entry.ofRecord record) ∧
            ∀ event ∈ statements, stepOf event ∈ events
  | .registerPolicyVersion scope version _ contentHash, id =>
      ∃ (statements : List (Program.Event wholeDb)) (record : Record),
        VersionOf (.policy scope version contentHash) id record ∧
          OnRecord statements (Entry.ofRecord record) ∧
            ∀ event ∈ statements, stepOf event ∈ events
  | .latestEvalResult workflow version, found =>
      ∃ (known : List Entry) (latest : Option EvalResult),
        ⟨.statement .select, .ok known⟩ ∈ events ∧
          Latest known workflow version latest ∧
            found = latest.map EvalResult.id

theorem told_of_asking {name : Name} {call : RegistryCall}
    {reply : call.Reply} {events : List (FleetEvent Name)}
    (ran : (asking fleet name call).Executes events (.ok (.ok reply))) :
    Told events call reply := by
  cases call with
  | registerPromptVersion workflow version gitSha contentHash =>
      rcases executes_send ran with
        ⟨arrival, program, statements, ending, handles, ran', read, inside⟩
      cases handles
      rcases exists_ok_of_reading read with ⟨record, rfl, isId⟩
      rcases
          @onRecord_of_registering _ _ _
            (.prompt workflow version contentHash) (fun _ => rfl) _ _ ran' with
        ⟨versioned, onRecord⟩
      exact ⟨statements, record, ⟨versioned, isId⟩, onRecord, inside⟩
  | registerPolicyVersion scope version gitSha contentHash =>
      rcases executes_send ran with
        ⟨arrival, program, statements, ending, handles, ran', read, inside⟩
      cases handles
      rcases exists_ok_of_reading read with ⟨record, rfl, isId⟩
      rcases
          @onRecord_of_registering _ _ _
            (.policy scope version contentHash) (fun _ => rfl) _ _ ran' with
        ⟨versioned, onRecord⟩
      exact ⟨statements, record, ⟨versioned, isId⟩, onRecord, inside⟩
  | latestEvalResult workflow version =>
      rcases executes_send ran with
        ⟨arrival, program, statements, ending, handles, ran', read, inside⟩
      cases handles
      rcases exists_ok_of_reading read with ⟨rows, rfl, isHead⟩
      rcases select_of_listing ran' with ⟨known, selected, rfl⟩
      exact
        ⟨known, _, inside _ selected, latest_head _ known workflow version,
          isHead.symm⟩

/-! ## Where a step of the log stands -/

section Runs

variable [DecidableEq Client] [DecidableEq Name]
variable {log : FleetLog Client Name} {world : FleetWorld Client Name}

/-- A step of the log belongs to a call that suits the calls before it. -/
theorem exists_call_of_called (run : FleetRun Client fleet log world)
    {earlier later : FleetLog Client Name} {client : Client}
    {choice : DeployedChoice} {event : FleetEvent Name}
    (split : log = earlier ++ .called client choice event :: later) :
    ∃ past below partway call left,
      Suits fleet past call ∧ Carries (carryOut fleet) past below ∧
        own client earlier = below ++ partway ∧
          Leaves (carryOut fleet call) partway (.call event.op left) ∧
            StepOf call event.op := by
  subst split
  rcases run.called with
    ⟨before, request, calls, next, shared, shorter, present, _⟩
  rcases exists_calling opens_carryOut (shorter.leaves present) with
    ⟨past, below, partway, call, next', left, above, carries, same, inside⟩
  refine
    ⟨past, below, partway, call, left,
      (above.tracks (tracks_serveFleet request)).1, carries, same, inside, ?_⟩
  exact
    (inside.concat event.answer).allowed (stepOf_carryOut call) event
      (List.mem_append_right _ List.mem_cons_self)

omit [DecidableEq Name] in
/-- A call that is one step is made before anything else is done for it. -/
theorem partway_eq_nil {op lower : FleetOp Name} {α : Type}
    {wrap : op.Answer → α} {partway : List (FleetEvent Name)}
    {left : lower.Answer → Program (fleetHost Name) Empty α}
    (inside :
      Leaves
        (.call op fun answer => .done (wrap answer) :
          Program (fleetHost Name) Empty α)
        partway (.call lower left)) :
    partway = [] := by
  cases inside with
  | stop => rfl
  | call answer rest => cases rest

/-! ## What is committed -/

/-- What holds of more rows than it did holds for good. -/
theorem stable_of_grows {fact : List Entry → Prop}
    (grows :
      ∀ rows rows' : List Entry, rows <+: rows' → fact rows → fact rows') :
    Stable (gatewaysHost Client Name) fun state =>
      fact state.ledger.committed where
  respond := by
    intro client choice op before answer after responded here
    exact grows _ _ (steps_of_respond responded).1.rowsFrom.grown here
  depart := fun _ _ here => here

/-- Rows that stay. -/
theorem prefix_stable (rows : List Entry) :
    Stable (gatewaysHost Client Name) fun state =>
      rows <+: state.ledger.committed :=
  stable_of_grows fun _ _ further here => here.trans further

omit [DecidableEq Name] in
theorem accepted_of_step {client : Client}
    {before after : Transactions.State Client Int64 Entry Effect}
    {op : FleetOp Name} {answer : op.Answer}
    (step : LedgerStep client before op answer after)
    (accepted : Accepted Ledger.Schema.accepts before.committed) :
    Accepted Ledger.Schema.accepts after.committed := by
  cases step with
  | other => exact accepted
  | released => exact accepted
  | statement answered =>
      rcases committed_of_respond answered with ⟨batch, grown, passed⟩
      rw [grown]
      exact accepted.append passed

/-- The committed rows are accepted ones. -/
theorem accepted_of_run (run : FleetRun Client fleet log world) :
    Accepted Ledger.Schema.accepts world.shared.ledger.committed := by
  induction run with
  | @start world isInitial =>
      rw [show world.shared.ledger.committed = [] from isInitial.1.2.2.1]
      exact accepted_nil
  | arrive run request absent accepted => exact accepted
  | call run present responded accepted =>
      exact accepted_of_step (steps_of_respond responded).1 accepted
  | depart run present accepted => exact accepted

/-- A statement is answered by the database. -/
theorem statement_of_respond {before after : FleetState Client Name}
    {client : Client} {choice : DeployedChoice} {op : wholeDb.Op}
    {answer : wholeDb.Answer op}
    (responded :
      before.respond client choice (.statement op) = some (answer, after)) :
    ∃ choice',
      (Transactions.host Ledger.Schema.accepts).respond client choice' op
          before.ledger =
        some (answer, after.ledger) := by
  cases choice with
  | statement choice =>
      rcases Option.map_eq_some_iff.mp responded with
        ⟨⟨answer, ledger⟩, answered, same⟩
      cases same
      exact ⟨choice, answered⟩
  | gateway choice => cases choice <;> cases responded
  | arrive | proceed | fail => cases responded

section Statements

variable {before after : Transactions.State Client Int64 Entry Effect}
variable {client : Client} {choice : Transactions.Choice Fault}

omit [DecidableEq Name] in
/-- A SELECT shows the committed rows and those of the own transaction. -/
theorem select_of_respond {known : List Entry}
    (answered :
      (Transactions.host Ledger.Schema.accepts).respond client choice .select
          before =
        some (.ok known, after)) :
    known = before.committed ++ before.pending client ∧ after = before := by
  rcases Transactions.respond_cases answered with
    ⟨fault, _, absurdity, _⟩ | ⟨now, reply, _, isReply, succeeded⟩
  · cases absurdity
  · cases isReply
    cases Transactions.State.succeeds_of_succeed succeeded with
    | select => exact ⟨rfl, rfl⟩

omit [DecidableEq Name] in
theorem publish_of_respond {row : Entry}
    (answered :
      (Transactions.host Ledger.Schema.accepts).respond client choice
          (.publish row) before =
        some (.ok (), after)) :
    after.committed = before.committed ++ [row] := by
  rcases Transactions.respond_cases answered with
    ⟨fault, _, absurdity, _⟩ | ⟨now, reply, _, _, succeeded⟩
  · cases absurdity
  · cases Transactions.State.succeeds_of_succeed succeeded with
    | publish row accepted => rfl

end Statements

/--
A session that has made no transaction was shown committed rows, and what it
has published is committed.
-/
theorem committed_of_autocommitted (run : FleetRun Client fleet log world)
    {client : Client}
    (quiet : ∀ event ∈ own client log, OnLedger Autocommitted event.op) :
    (∀ known, ⟨.statement .select, .ok known⟩ ∈ own client log →
        known <+: world.shared.ledger.committed) ∧
      ∀ row, ⟨.statement (.publish row), .ok ()⟩ ∈ own client log →
        row ∈ world.shared.ledger.committed := by
  constructor
  · intro known member
    rcases List.append_of_mem member with ⟨before, after, split⟩
    rcases exists_split_of_own split with
      ⟨earlier, choice, later, rfl, mine, _⟩
    rcases run.called_stable with
      ⟨middle, request, calls, next, shared, shorter, present, responded,
        stays⟩
    refine stays (fun state => known <+: state.ledger.committed)
      (prefix_stable known) ?_
    have empty : middle.shared.ledger.pending client = [] := by
      rw [List.eq_nil_iff_forall_not_mem]
      intro entry waiting
      rcases (explained_of_run shorter).pending client entry waiting with
        ⟨answer, inserted⟩
      rw [mine] at inserted
      have allowed :=
        quiet ⟨.statement (.insert entry), answer⟩
          (by rw [split]; exact List.mem_append_left _ inserted)
      exact allowed
    rcases statement_of_respond responded with ⟨choice', answered⟩
    rcases select_of_respond answered with ⟨same, unchanged⟩
    rw [same, unchanged, empty, List.append_nil]
  · intro row member
    rcases List.append_of_mem member with ⟨before, after, split⟩
    rcases exists_split_of_own split with
      ⟨earlier, choice, later, rfl, mine, _⟩
    rcases run.called_stable with
      ⟨middle, request, calls, next, shared, shorter, present, responded,
        stays⟩
    refine stays (fun state => row ∈ state.ledger.committed)
      (stable_of_grows fun _ _ further here => further.subset here) ?_
    rcases statement_of_respond responded with ⟨choice', answered⟩
    rw [publish_of_respond answered]
    exact List.mem_append_right _ List.mem_cons_self

/-! ## Who has bound a run -/

/-- A gateway was told to listen with a binding. -/
def Listened (log : FleetLog Client Name) (name : Name)
    (binding : ResolvedBinding) : Prop :=
  Happened log fun event => event = ⟨.listen name binding, ()⟩

theorem bindings_of_respond {before after : FleetState Client Name}
    {client : Client} {choice : DeployedChoice} {name : Name}
    {found : Option ResolvedBinding}
    (responded :
      before.respond client choice (.binding name) = some (found, after)) :
    before.bindings name = found := by
  cases choice with
  | proceed =>
      cases responded
      rfl
  | gateway choice => cases choice <;> cases responded
  | arrive | statement | fail => cases responded

/-- A session that serves with a binding serves for a gateway with it. -/
theorem listened_of_bound (run : FleetRun Client fleet log world)
    {client : Client} {name : Name} {binding : ResolvedBinding}
    (asked : ⟨.binding name, some binding⟩ ∈ own client log) :
    Listened log name binding := by
  rcases exists_called_of_mem_own asked with ⟨choice, member⟩
  rcases List.append_of_mem member with ⟨earlier, later, rfl⟩
  rcases run.called with
    ⟨before, request, calls, next, shared, shorter, _, responded⟩
  have listens :=
    (explained_of_run shorter).bindings name binding
      (bindings_of_respond responded)
  exact listens.more _

theorem exists_listened_of_binding (run : FleetRun Client fleet log world)
    {row : RunVersionBinding}
    (member : .ofRecord (.binding row) ∈ world.shared.ledger.committed) :
    ∃ name,
      (bindingOf row).isEmpty = false ∧
        Listened log name (bindingOf row) := by
  rcases (explained_of_run run).committed _ member with
    ⟨client, choice, event, called, op, answer, rfl, writes⟩
  rcases List.append_of_mem called with ⟨earlier, later, split⟩
  rcases exists_call_of_called run split with
    ⟨past, below, partway, call, left, suits, carries, here, _, step⟩
  cases step row writes with
  | proxy name =>
      rcases suits with ⟨nonempty, asked⟩
      rcases carries.exists_executes asked with ⟨events, ran, inside⟩
      rcases Program.executes_call_iff.mp ran with
        ⟨found, rest, rfl, returned⟩
      rcases Program.executes_done_iff.mp returned with ⟨_, same⟩
      cases same
      subst split
      rcases run.upTo with ⟨middle, shorter⟩
      have mine :
          ⟨.binding name, some (bindingOf row)⟩ ∈ own client earlier := by
        rw [here]
        exact List.mem_append_left _ (inside _ List.mem_cons_self)
      exact ⟨name, nonempty, (listened_of_bound shorter mine).more _⟩
  | other writes => exact absurd rfl (writes.allowed suits row)

/-! ## What a gateway listens with -/

/-- The version has this id in the tables. -/
def Registered (entries : List Entry) (key : VersionKey) (id : Uuid) : Prop :=
  ∃ record, VersionOf key id record ∧ Entry.ofRecord record ∈ entries

/-- A version of a prompt is its name, its version and the hash of its files. -/
def versionOfPrompt (sha256 : Bytes → Digest) (source : Source Directory) :
    VersionKey :=
  .prompt source.name source.version (hashDirectory sha256 source.content)

/-- A version of a policy is its scope, its version and the hash of its file. -/
def versionOfPolicy (sha256 : Bytes → Digest) (source : Source Bytes) :
    VersionKey :=
  .policy source.name source.version
    (Hexadecimal.encode (sha256 source.content).bytes)

/--
The binding is what a gateway finds in its registry directory: the versions
have these ids in the ledger, and the evaluation was the last one.
-/
structure Resolved (fleet : Fleet Name) (entries : List Entry) (name : Name)
    (binding : ResolvedBinding) : Prop where
  prompt :
    Option.Rel
      (fun source => Registered entries (versionOfPrompt fleet.sha256 source))
      (fleet.gateways name).registry.prompt? binding.promptVersionId
  policy :
    Option.Rel
      (fun source => Registered entries (versionOfPolicy fleet.sha256 source))
      (fleet.gateways name).registry.policy? binding.policyVersionId
  eval :
    ∀ workflow version,
      (fleet.gateways name).registry.evaluated? = some (workflow, version) →
        ∃ known latest,
          known <+: entries ∧ Latest known workflow version latest ∧
            binding.evalResultId = latest.map EvalResult.id
  unevaluated :
    (fleet.gateways name).registry.evaluated? = none →
      binding.evalResultId = none

/-- What a gateway that starts was told is so. -/
def Holds (entries : List Entry) : (call : RegistryCall) → call.Reply → Prop
  | .registerPromptVersion workflow version _ contentHash, id =>
      Registered entries (.prompt workflow version contentHash) id
  | .registerPolicyVersion scope version _ contentHash, id =>
      Registered entries (.policy scope version contentHash) id
  | .latestEvalResult workflow version, found =>
      ∃ known latest,
        known <+: entries ∧ Latest known workflow version latest ∧
          found = latest.map EvalResult.id

omit [DecidableEq Client] [DecidableEq Name] in
/-- What a session was told holds of rows that it was shown or has published. -/
theorem Told.holds {events : List (FleetEvent Name)} {call : RegistryCall}
    {reply : call.Reply} (told : Told events call reply)
    {entries : List Entry}
    (shown :
      ∀ known, ⟨.statement .select, .ok known⟩ ∈ events → known <+: entries)
    (published :
      ∀ row, ⟨.statement (.publish row), .ok ()⟩ ∈ events → row ∈ entries) :
    Holds entries call reply := by
  have onTable {statements : List (Program.Event wholeDb)} {row : Entry}
      (onRecord : OnRecord statements row)
      (inside : ∀ event ∈ statements, stepOf event ∈ events) :
      row ∈ entries := by
    rcases onRecord with ⟨known, selected, member⟩ | inserted
    · exact (shown known (inside _ selected)).subset member
    · exact published row (inside _ inserted)
  cases call with
  | registerPromptVersion | registerPolicyVersion =>
      rcases told with ⟨statements, record, version, onRecord, inside⟩
      exact ⟨record, version, onTable onRecord inside⟩
  | latestEvalResult workflow version =>
      rcases told with ⟨known, latest, selected, isLatest, found⟩
      exact ⟨known, latest, shown known selected, isLatest, found⟩

theorem resolved_of_listened (run : FleetRun Client fleet log world)
    {name : Name} {binding : ResolvedBinding}
    (listens : Listened log name binding) (nonempty : binding.isEmpty = false) :
    Resolved fleet world.shared.ledger.committed name binding := by
  rcases listens with ⟨client, choice, event, called, rfl⟩
  rcases List.append_of_mem called with ⟨earlier, later, split⟩
  rcases exists_call_of_called run split with
    ⟨past, below, partway, call, left, suits, carries, here, inside, step⟩
  cases step
  cases partway_eq_nil inside
  rw [List.append_nil] at here
  subst split
  rcases suits with ⟨rfl | ⟨asked, answered, among⟩, registry⟩
  · cases nonempty
  rcases run.upTo_stable with ⟨middle, shorter, stays⟩
  have quiet : ∀ event ∈ own client earlier,
      OnLedger Autocommitted event.op := by
    rw [here]
    refine carries.allowed fun event member => ?_
    rcases registry event member with ⟨call, same⟩
    rw [same]
    exact autocommitted_asking name call
  rcases committed_of_autocommitted shorter quiet with ⟨shown, published⟩
  have holds (call : RegistryCall) (reply : call.Reply)
      (member : ⟨call, .ok reply⟩ ∈ asked) :
      Holds world.shared.ledger.committed call reply := by
    rcases carries.exists_executes (among _ member) with ⟨events, ran, within⟩
    refine (told_of_asking ran).holds ?_ ?_
    · intro known selected
      exact
        stays _ (prefix_stable known)
          (shown known (here ▸ within _ selected))
    · intro row inserted
      exact
        stays (fun state => row ∈ state.ledger.committed)
          (stable_of_grows fun _ _ further here => further.subset here)
          (published row (here ▸ within _ inserted))
  constructor
  · refine rel_mono ?_ answered.prompt
    rintro source id ⟨gitSha, member⟩
    exact holds _ _ member
  · refine rel_mono ?_ answered.policy
    rintro source id ⟨gitSha, member⟩
    exact holds _ _ member
  · intro workflow version evaluated
    exact holds _ _ (answered.eval workflow version evaluated)
  · exact answered.unevaluated

end Runs

end Trackward.Gateway.BoundVersions
