import Trackward.Lib.Admission
import Trackward.Lib.Traces

/-!
# Look first, then insert

Clients that want the row of one key to exist.  Each looks for it with one
statement and, if it is not there, inserts a row of its own with another.  A
constraint admits only one row of the key.

A client that has found no row is `inserting` until its second statement is
answered.  The constraint refuses it exactly if another client has inserted in
between, and this happens in a run exactly if two clients are inserting at the
same time.
-/

namespace Trackward.Lib.CheckThenInsert

open Trackward.Lib.Admission
open Trackward.Lib.Programs
open Trackward.Lib.Sessions
open Trackward.Lib.Traces
open Trackward.Lib.Transactions

variable {Client Request Key Row Part Effect Fault ε : Type}

/-! ## What clients want to exist -/

/--
The rows that clients insert, and what the constraints say about them.  The
rows of the key are among the values of one part of the database.
-/
structure Registry (Request Row Part : Type) where
  accepts : List Row → Row → Bool
  inject : Part → Row
  part : Row → Option Part
  part_eq_some_iff :
    ∀ row value, part row = some value ↔ row = inject value
  isKey : Part → Bool
  own : Request → Part
  unique :
    ∀ rows value, isKey value = true →
      (rows.filterMap part).filter isKey ≠ [] →
        accepts rows (inject value) = false

namespace Registry

/-- The rows of the key. -/
def keyed (registry : Registry Request Row Part) (rows : List Row) :
    List Part :=
  (rows.filterMap registry.part).filter registry.isKey

theorem keyed_append (registry : Registry Request Row Part)
    (rows more : List Row) :
    registry.keyed (rows ++ more) =
      registry.keyed rows ++ registry.keyed more := by
  simp [keyed]

theorem keyed_inject (registry : Registry Request Row Part) {value : Part}
    (isKey : registry.isKey value = true) :
    registry.keyed [registry.inject value] = [value] := by
  have found := (registry.part_eq_some_iff _ value).mpr rfl
  simp [keyed, found, isKey]

/-- A row of the key is accepted only where there is none. -/
theorem keyed_eq_nil_of_accepts (registry : Registry Request Row Part)
    {rows : List Row} {value : Part}
    (isKey : registry.isKey value = true)
    (accepted : registry.accepts rows (registry.inject value) = true) :
    registry.keyed rows = [] := by
  by_contra present
  rw [registry.unique rows value isKey present] at accepted
  cases accepted

/-- There is at most one row of the key. -/
theorem keyed_length_le (registry : Registry Request Row Part)
    {rows : List Row}
    (accepted : Accepted registry.accepts rows) :
    (registry.keyed rows).length ≤ 1 := by
  induction rows using List.reverseRecOn with
  | nil => simp [keyed]
  | append_singleton rows row induction =>
      have last : registry.accepts rows row = true :=
        accepted.accepts_of_split rfl
      have earlier : Accepted registry.accepts rows := by
        unfold Accepted at accepted ⊢
        rw [acceptsAll_append, Bool.and_eq_true] at accepted
        exact accepted.1
      rw [keyed_append]
      cases found : registry.part row with
      | none => simpa [keyed, found] using induction earlier
      | some value =>
          cases isKey : registry.isKey value with
          | false => simpa [keyed, found, isKey] using induction earlier
          | true =>
              rw [(registry.part_eq_some_iff row value).mp found] at last ⊢
              rw [registry.keyed_eq_nil_of_accepts isKey last,
                registry.keyed_inject isKey]
              simp

end Registry

/-! ## The program of a client -/

section Programs

variable (wrap : Fault → ε) (registry : Registry Request Row Part)
variable (request : Request)

/-- Insert the own row, and answer with it. -/
def insertOwn : Program (database Key Row Effect Fault) ε Part := do
  let _ ←
    (attempt (.publish (registry.inject (registry.own request))) wrap :
      Program (database Key Row Effect Fault) ε Unit)
  return registry.own request

/-- Answer with the row of the key, or insert the own one. -/
def register : Program (database Key Row Effect Fault) ε Part := do
  let known ← attempt .select wrap
  match (known.filterMap registry.part).find? registry.isKey with
  | some found => return found
  | none => insertOwn wrap registry request

/-- The row was read from the database, or written to it. -/
def OnRecord
    (events : List (Program.Event (database Key Row Effect Fault)))
    (row : Row) : Prop :=
  (∃ rows : List Row, ⟨.select, .ok rows⟩ ∈ events ∧ row ∈ rows) ∨
    ⟨.publish row, .ok ()⟩ ∈ events

variable {wrap registry request}

/-- A statement that did not end the program has succeeded. -/
theorem executes_attempt_bind {β : Type} {op : Op Key Row Effect}
    {next : Reply op → Program (database Key Row Effect Fault) ε β}
    {events : List (Program.Event (database Key Row Effect Fault))}
    {value : β}
    (ran : (attempt op wrap >>= next).Executes events (.ok value)) :
    ∃ reply rest,
      events = ⟨op, .ok reply⟩ :: rest ∧
        (next reply).Executes rest (.ok value) := by
  rcases Program.executes_call_iff.mp ran with ⟨answer, rest, rfl, continued⟩
  rcases answer with fault | reply
  · cases continued
  · exact ⟨reply, rest, rfl, continued⟩

/-- What is answered is a row of the key, and on record. -/
theorem onRecord_of_register
    (own : registry.isKey (registry.own request) = true)
    {events : List (Program.Event (database Key Row Effect Fault))}
    {value : Part}
    (ran : (register wrap registry request).Executes events (.ok value)) :
    registry.isKey value = true ∧
      OnRecord events (registry.inject value) := by
  rcases executes_attempt_bind ran with ⟨rows, rest, rfl, continued⟩
  cases search : (List.filterMap registry.part rows).find? registry.isKey with
  | some found =>
      simp only [search] at continued
      rcases Program.executes_done_iff.mp continued with ⟨rfl, same⟩
      cases same
      rcases List.mem_filterMap.mp (List.mem_of_find?_eq_some search) with
        ⟨row, member, isPart⟩
      rw [registry.part_eq_some_iff] at isPart
      exact
        ⟨List.find?_some search,
          Or.inl ⟨rows, List.mem_cons_self, isPart ▸ member⟩⟩
  | none =>
      simp only [search] at continued
      rcases executes_attempt_bind continued with
        ⟨reply, rest', rfl, returned⟩
      rcases Program.executes_done_iff.mp returned with ⟨rfl, same⟩
      cases same
      exact ⟨own, Or.inr (List.mem_cons_of_mem _ List.mem_cons_self)⟩

end Programs

/-- How far a client has come. -/
inductive Phase where
  | asking
  | inserting
  | answered
  | refused
  deriving DecidableEq

/-- What a client is about to do, or how it ended. -/
def phase : Program (database Key Row Effect Fault) ε Part → Phase
  | .done _ => .answered
  | .raise _ => .refused
  | .call (.publish _) _ => .inserting
  | .call _ _ => .asking

@[simp]
theorem phase_register (wrap : Fault → ε)
    (registry : Registry Request Row Part) (request : Request) :
    phase (register wrap registry request :
      Program (database Key Row Effect Fault) ε Part) = .asking :=
  rfl

@[simp]
theorem phase_insertOwn (wrap : Fault → ε)
    (registry : Registry Request Row Part) (request : Request) :
    phase (insertOwn wrap registry request :
      Program (database Key Row Effect Fault) ε Part) = .inserting :=
  rfl

/-- The clients of one key, with all of them in flight. -/
abbrev RegistryWorld
    (Client Request Key Row Part Effect Fault ε : Type) :=
  World (database Key Row Effect Fault) Client Request
    (State Client Key Row Effect) ε Part

/-- The phase of a client that has arrived. -/
def phaseAt
    (world : RegistryWorld Client Request Key Row Part Effect Fault ε)
    (client : Client) : Option Phase :=
  (world.sessions client).map fun session => phase session.program

/-- No two clients are inserting at the same time. -/
def OneByOne
    (world : RegistryWorld Client Request Key Row Part Effect Fault ε) : Prop :=
  ∀ client other,
    phaseAt world client = some .inserting →
      phaseAt world other = some .inserting → client = other

/-- All clients that have arrived were answered or refused. -/
def Settled
    (world : RegistryWorld Client Request Key Row Part Effect Fault ε) : Prop :=
  ∀ client,
    phaseAt world client ≠ some .asking ∧
      phaseAt world client ≠ some .inserting

/-- There is one row of the key, and all clients were answered with it. -/
def RegisteredOnce (registry : Registry Request Row Part)
    (world : RegistryWorld Client Request Key Row Part Effect Fault ε) :
    Prop :=
  ∃ value,
    registry.keyed world.shared.committed = [value] ∧
      ∀ client session,
        world.sessions client = some session →
          session.program = .done value

/-! ## An honest database -/

/--
A request inserts a row of the key that nothing but the key can keep out of
the rows at the start.
-/
structure Admitted (registry : Registry Request Row Part) (base : List Row)
    (request : Request) : Prop where
  isKey : registry.isKey (registry.own request) = true
  accepted :
    registry.keyed base = [] →
      registry.accepts base (registry.inject (registry.own request)) = true

/--
A step in which nobody leaves and no statement fails, except for an INSERT
that violates the constraints.
-/
def Honest (registry : Registry Request Row Part) (base : List Row)
    (step :
      RegistryWorld Client Request Key Row Part Effect Fault ε ×
        Move Client Request (Choice Fault)) : Prop :=
  match step.2 with
  | .arrive _ request => Admitted registry base request
  | .answer _ (.succeed _) => True
  | .answer client (.fail _) =>
      ∃ session,
        step.1.sessions client = some session ∧
          phase session.program = .inserting ∧
            registry.accepts step.1.shared.committed
              (registry.inject (registry.own session.request)) = false
  | .depart _ => False

section Steps

variable [DecidableEq Client] [DecidableEq Key]
variable {wrap : Fault → ε} {registry : Registry Request Row Part}
variable {base : List Row}

/-- All runs of the clients. -/
abbrev registrations (wrap : Fault → ε) (registry : Registry Request Row Part)
    (initial : State Client Key Row Effect → Prop) :
    Runs.System (RegistryWorld Client Request Key Row Part Effect Fault ε)
      (Move Client Request (Choice Fault)) :=
  system (host registry.accepts)
    (register wrap registry) initial

/-- What a client may be doing while there are these rows. -/
inductive Doing (wrap : Fault → ε) (registry : Registry Request Row Part)
    (rows : List Row) (request : Request) :
    Program (database Key Row Effect Fault) ε Part → Prop where
  | asking :
      Doing wrap registry rows request
        (register wrap registry request)
  | inserting :
      Doing wrap registry rows request
        (insertOwn wrap registry request)
  | answered {value : Part} (present : value ∈ registry.keyed rows) :
      Doing wrap registry rows request (.done value)
  | refused {error : ε} : Doing wrap registry rows request (.raise error)

omit [DecidableEq Client] [DecidableEq Key] in
theorem Doing.grow {rows more : List Row} {request : Request}
    {program : Program (database Key Row Effect Fault) ε Part}
    (doing : Doing wrap registry rows request program) :
    Doing wrap registry (rows ++ more) request program := by
  cases doing with
  | asking => exact .asking
  | inserting => exact .inserting
  | answered present =>
      apply Doing.answered
      rw [registry.keyed_append]
      exact List.mem_append_left _ present
  | refused => exact .refused

/-- The rows at the start, and at most one that was inserted. -/
inductive Grown (registry : Registry Request Row Part) (base : List Row) :
    List Row → Prop where
  | same : Grown registry base base
  | one {value : Part} (none : registry.keyed base = [])
      (isKey : registry.isKey value = true) :
      Grown registry base (base ++ [registry.inject value])

/-- The invariant of honest runs. -/
structure Orderly (wrap : Fault → ε) (registry : Registry Request Row Part)
    (base : List Row)
    (world : RegistryWorld Client Request Key Row Part Effect Fault ε) :
    Prop where
  quiet : ∀ client, world.shared.pending client = []
  grown : Grown registry base world.shared.committed
  doing :
    ∀ client session,
      world.sessions client = some session →
        Admitted registry base session.request ∧
          Doing wrap registry world.shared.committed session.request
            session.program

/-- Everything an honest step can do. -/
inductive Progress (wrap : Fault → ε) (registry : Registry Request Row Part)
    (base : List Row)
    (world : RegistryWorld Client Request Key Row Part Effect Fault ε) :
    RegistryWorld Client Request Key Row Part Effect Fault ε → Prop where
  | arrived {client : Client} {request : Request}
      (absent : world.sessions client = none)
      (admitted : Admitted registry base request) :
      Progress wrap registry base world
        { world with
          sessions :=
            Function.update world.sessions client
              (some
                ⟨request, 0,
                  register wrap registry request⟩) }
  | found {client : Client} {request : Request} {calls : Nat}
      {value : Part}
      (here :
        world.sessions client =
          some
            ⟨request, calls,
              register wrap registry request⟩)
      (present : value ∈ registry.keyed world.shared.committed) :
      Progress wrap registry base world
        { world with
          sessions :=
            Function.update world.sessions client
              (some ⟨request, calls + 1, .done value⟩) }
  | missed {client : Client} {request : Request} {calls : Nat}
      (here :
        world.sessions client =
          some
            ⟨request, calls,
              register wrap registry request⟩)
      (none : registry.keyed world.shared.committed = []) :
      Progress wrap registry base world
        { world with
          sessions :=
            Function.update world.sessions client
              (some
                ⟨request, calls + 1,
                  insertOwn wrap registry request⟩) }
  | inserted {client : Client} {request : Request} {calls : Nat}
      (here :
        world.sessions client =
          some ⟨request, calls, insertOwn wrap registry request⟩)
      (accepted :
        registry.accepts world.shared.committed
          (registry.inject (registry.own request)) = true) :
      Progress wrap registry base world
        { shared :=
            { world.shared with
              committed :=
                world.shared.committed ++
                  [registry.inject (registry.own request)] }
          sessions :=
            Function.update world.sessions client
              (some
                ⟨request, calls + 1, .done (registry.own request)⟩) }
  | refused {client : Client} {request : Request} {calls : Nat} {error : ε}
      (here :
        world.sessions client =
          some ⟨request, calls, insertOwn wrap registry request⟩)
      (violated :
        registry.accepts world.shared.committed
          (registry.inject (registry.own request)) = false) :
      Progress wrap registry base world
        { world with
          sessions :=
            Function.update world.sessions client
              (some ⟨request, calls + 1, .raise error⟩) }

theorem progress_of_honest
    {world target : RegistryWorld Client Request Key Row Part Effect Fault ε}
    {move : Move Client Request (Choice Fault)}
    {initial : State Client Key Row Effect → Prop}
    (orderly : Orderly wrap registry base world)
    (honest : Honest registry base (world, move))
    (moved :
      (registrations wrap registry initial).step world move = some target) :
    Progress wrap registry base world target := by
  rcases World.step_cases moved with arrival | answered | departure
  · rcases arrival with ⟨client, request, rfl, absent, rfl⟩
    exact .arrived absent honest
  · rcases answered with
      ⟨client, choice, request, calls, op, next, answer, after, rfl, here,
        responded, rfl⟩
    rcases orderly.doing client _ here with ⟨admitted, doing⟩
    change Doing wrap registry _ request (.call op next) at doing
    generalize running : Program.call op next = program at doing
    cases doing with
    | asking =>
        cases running
        rcases respond_cases responded with
          ⟨fault, rfl, rfl, rfl⟩ | ⟨now, reply, rfl, rfl, succeeded⟩
        · rcases honest with ⟨session, there, inserting, _⟩
          cases here.symm.trans there
          cases inserting
        · cases State.succeeds_of_succeed succeeded
          dsimp only [Program.bind]
          rw [orderly.quiet, List.append_nil]
          cases found :
              (world.shared.committed.filterMap registry.part).find?
                registry.isKey with
          | none =>
              apply Progress.missed here
              rw [Registry.keyed, List.filter_eq_nil_iff]
              exact List.find?_eq_none.mp found
          | some value =>
              apply Progress.found here
              exact
                List.mem_filter.mpr
                  ⟨List.mem_of_find?_eq_some found, List.find?_some found⟩
    | inserting =>
        cases running
        rcases respond_cases responded with
          ⟨fault, rfl, rfl, rfl⟩ | ⟨now, reply, rfl, rfl, succeeded⟩
        · rcases honest with ⟨session, there, _, violated⟩
          cases here.symm.trans there
          exact .refused here violated
        · cases State.succeeds_of_succeed succeeded with
          | publish row accepted => exact .inserted here accepted
    | answered present => cases running
    | refused => cases running
  · rcases departure with ⟨client, session, rfl, _, _⟩
    cases honest

/-! ## What honest steps preserve -/

omit [DecidableEq Client] [DecidableEq Key] in
/-- Without a row of the key there are only the rows at the start. -/
theorem Grown.eq_base {rows : List Row} (grown : Grown registry base rows)
    (none : registry.keyed rows = []) : rows = base := by
  cases grown with
  | same => rfl
  | one _ isKey =>
      rw [registry.keyed_append, registry.keyed_inject isKey] at none
      simp at none

omit [DecidableEq Key] in
theorem Orderly.progress
    {world target : RegistryWorld Client Request Key Row Part Effect Fault ε}
    (orderly : Orderly wrap registry base world)
    (progress : Progress wrap registry base world target) :
    Orderly wrap registry base target := by
  cases progress with
  | arrived absent admitted =>
      refine ⟨orderly.quiet, orderly.grown, ?_⟩
      apply forall_sessions_update orderly.doing
      rintro _ ⟨⟩
      exact ⟨admitted, .asking⟩
  | found here present =>
      refine ⟨orderly.quiet, orderly.grown, ?_⟩
      apply forall_sessions_update orderly.doing
      rintro _ ⟨⟩
      exact ⟨(orderly.doing _ _ here).1, .answered present⟩
  | missed here none =>
      refine ⟨orderly.quiet, orderly.grown, ?_⟩
      apply forall_sessions_update orderly.doing
      rintro _ ⟨⟩
      exact ⟨(orderly.doing _ _ here).1, .inserting⟩
  | @inserted client request calls here accepted =>
      have admitted := (orderly.doing _ _ here).1
      have none :=
        registry.keyed_eq_nil_of_accepts admitted.isKey accepted
      have start := orderly.grown.eq_base none
      refine ⟨orderly.quiet, ?_, ?_⟩
      · show Grown registry base
          (world.shared.committed ++ [registry.inject (registry.own request)])
        rw [start] at none ⊢
        exact .one none admitted.isKey
      · apply forall_sessions_update
        · intro other session there
          rcases orderly.doing other session there with ⟨letIn, doing⟩
          exact ⟨letIn, doing.grow⟩
        · rintro _ ⟨⟩
          refine ⟨admitted, .answered ?_⟩
          rw [registry.keyed_append, registry.keyed_inject admitted.isKey]
          exact List.mem_append_right _ (List.mem_singleton_self _)
  | refused here violated =>
      refine ⟨orderly.quiet, orderly.grown, ?_⟩
      apply forall_sessions_update orderly.doing
      rintro _ ⟨⟩
      exact ⟨(orderly.doing _ _ here).1, .refused⟩

/-! ## Runs that end badly -/

/-- A client was refused, or one that is inserting will be. -/
inductive Doomed (registry : Registry Request Row Part)
    (world : RegistryWorld Client Request Key Row Part Effect Fault ε) :
    Prop where
  | refused {client : Client}
      (isRefused : phaseAt world client = some .refused)
  | late {client : Client} (inserting : phaseAt world client = some .inserting)
      (present : registry.keyed world.shared.committed ≠ [])
  | both {client other : Client} (different : client ≠ other)
      (first : phaseAt world client = some .inserting)
      (second : phaseAt world other = some .inserting)

omit [DecidableEq Client] [DecidableEq Key] in
theorem phaseAt_of_session
    {world : RegistryWorld Client Request Key Row Part Effect Fault ε}
    {client : Client}
    {session : Session (database Key Row Effect Fault) Request ε Part}
    (here : world.sessions client = some session) :
    phaseAt world client = some (phase session.program) := by
  rw [phaseAt, here]
  rfl

/-- The phases of a client that takes a step; nobody else changes. -/
inductive Turn (registry : Registry Request Row Part) (base : List Row)
    (world target : RegistryWorld Client Request Key Row Part Effect Fault ε)
    (client : Client) : Prop where
  | looked
      (before :
        phaseAt world client = none ∨ phaseAt world client = some .asking)
      (rows : target.shared.committed = world.shared.committed)
      (after :
        phaseAt target client = some .inserting →
          registry.keyed world.shared.committed = [])
      (accepted : phaseAt target client ≠ some .refused)
  | inserted (before : phaseAt world client = some .inserting)
      (none : registry.keyed world.shared.committed = [])
      (present : registry.keyed target.shared.committed ≠ [])
      (after : phaseAt target client = some .answered)
  | refused {request : Request}
      (before : phaseAt world client = some .inserting)
      (admitted : Admitted registry base request)
      (violated :
        registry.accepts world.shared.committed
            (registry.inject (registry.own request)) =
          false)
      (after : phaseAt target client = some .refused)

omit [DecidableEq Key] in
theorem turn_of_progress
    {world target : RegistryWorld Client Request Key Row Part Effect Fault ε}
    (orderly : Orderly wrap registry base world)
    (progress : Progress wrap registry base world target) :
    ∃ client,
      (∀ other, other ≠ client → phaseAt target other = phaseAt world other) ∧
        Turn registry base world target client := by
  cases progress with
  | @arrived client request absent admitted =>
      refine ⟨client, fun other different => ?_, .looked (Or.inl ?_) rfl ?_ ?_⟩
      · simp [phaseAt, different]
      · simp [phaseAt, absent]
      · simp [phaseAt]
      · simp [phaseAt]
  | @found client request calls value here present =>
      refine ⟨client, fun other different => ?_, .looked (Or.inr ?_) rfl ?_ ?_⟩
      · simp [phaseAt, different]
      · exact phaseAt_of_session here
      · simp [phaseAt, phase]
      · simp [phaseAt, phase]
  | @missed client request calls here none =>
      refine ⟨client, fun other different => ?_, .looked (Or.inr ?_) rfl ?_ ?_⟩
      · simp [phaseAt, different]
      · exact phaseAt_of_session here
      · exact fun _ => none
      · simp [phaseAt]
  | @inserted client request calls here accepted =>
      have isKey := (orderly.doing _ _ here).1.isKey
      refine ⟨client, fun other different => ?_, .inserted ?_ ?_ ?_ ?_⟩
      · simp [phaseAt, different]
      · exact phaseAt_of_session here
      · exact registry.keyed_eq_nil_of_accepts isKey accepted
      · simp [registry.keyed_append, registry.keyed_inject isKey]
      · simp [phaseAt, phase]
  | @refused client request calls error here violated =>
      refine ⟨client, fun other different => ?_,
        .refused ?_ (orderly.doing _ _ here).1 violated ?_⟩
      · simp [phaseAt, different]
      · exact phaseAt_of_session here
      · simp [phaseAt, phase]

omit [DecidableEq Key] in
/-- A run that is doomed stays so. -/
theorem Doomed.progress
    {world target : RegistryWorld Client Request Key Row Part Effect Fault ε}
    (orderly : Orderly wrap registry base world)
    (doomed : Doomed registry world)
    (progress : Progress wrap registry base world target) :
    Doomed registry target := by
  rcases turn_of_progress orderly progress with ⟨client, others, turn⟩
  have apart {other : Client} {here : Phase}
      (there : phaseAt world other = some here)
      (unlike : phaseAt world client ≠ some here) :
      phaseAt target other = some here := by
    rw [others other]
    · exact there
    · rintro rfl
      exact unlike there
  cases turn with
  | refused _ _ _ after => exact .refused after
  | looked before rows _ _ =>
      have unlike {here : Phase} (notAsking : here ≠ .asking) :
          phaseAt world client ≠ some here := by
        rcases before with absent | asking
        · simp [absent]
        · rw [asking]
          exact fun same => notAsking (Option.some.inj same).symm
      cases doomed with
      | refused isRefused => exact .refused (apart isRefused (unlike (by simp)))
      | late inserting present =>
          rw [← rows] at present
          exact .late (apart inserting (unlike (by simp))) present
      | both different first second =>
          exact
            .both different (apart first (unlike (by simp)))
              (apart second (unlike (by simp)))
  | inserted before none present _ =>
      cases doomed with
      | refused isRefused =>
          refine .refused (apart isRefused ?_)
          rw [before]
          simp
      | late _ there => exact absurd none there
      | @both one two different first second =>
          by_cases same : one = client
          · have inserting : phaseAt target two = some .inserting := by
              rw [others two fun equal => different (same.trans equal.symm)]
              exact second
            exact .late inserting present
          · have inserting : phaseAt target one = some .inserting := by
              rw [others one same]
              exact first
            exact .late inserting present

omit [DecidableEq Key] in
/-- Nobody is refused as long as clients insert one by one. -/
theorem not_doomed_of_progress
    {world target : RegistryWorld Client Request Key Row Part Effect Fault ε}
    (orderly : Orderly wrap registry base world)
    (fine : ¬ Doomed registry world)
    (progress : Progress wrap registry base world target)
    (oneByOne : OneByOne target) : ¬ Doomed registry target := by
  rcases turn_of_progress orderly progress with ⟨client, others, turn⟩
  have before {other : Client} {here : Phase}
      (there : phaseAt target other = some here)
      (unlike : phaseAt target client ≠ some here) :
      phaseAt world other = some here := by
    rw [← others other]
    · exact there
    · rintro rfl
      exact unlike there
  intro doomed
  cases doomed with
  | both different first second => exact different (oneByOne _ _ first second)
  | @refused other isRefused =>
      cases turn with
      | looked _ _ _ accepted => exact fine (.refused (before isRefused accepted))
      | inserted _ _ _ after =>
          refine fine (.refused (before isRefused ?_))
          rw [after]
          simp
      | refused inserting admitted violated _ =>
          -- the constraints refuse a row only because of its key
          by_cases none : registry.keyed world.shared.committed = []
          · have start := orderly.grown.eq_base none
            rw [start] at none violated
            rw [admitted.accepted none] at violated
            cases violated
          · exact fine (.late inserting none)
  | @late other inserting present =>
      cases turn with
      | looked _ rows after _ =>
          rw [rows] at present
          by_cases same : other = client
          · subst same
            exact present (after inserting)
          · rw [others other same] at inserting
            exact fine (.late inserting present)
      | inserted first _ _ after =>
          have second : phaseAt world other = some .inserting := by
            apply before inserting
            rw [after]
            simp
          have different : client ≠ other := by
            rintro rfl
            rw [after] at inserting
            cases inserting
          exact fine (.both different first second)
      | refused first admitted violated after =>
          have second : phaseAt world other = some .inserting := by
            apply before inserting
            rw [after]
            simp
          have different : client ≠ other := by
            rintro rfl
            rw [after] at inserting
            cases inserting
          exact fine (.both different first second)

/-! ## Whole runs -/

omit [DecidableEq Client] [DecidableEq Key] in
theorem oneByOne_of_not_doomed
    {world : RegistryWorld Client Request Key Row Part Effect Fault ε}
    (fine : ¬ Doomed registry world) : OneByOne world := by
  intro client other first second
  by_contra different
  exact fine (.both different first second)

section Paths

variable
  {first last : RegistryWorld Client Request Key Row Part Effect Fault ε}
  {steps :
    List
      (RegistryWorld Client Request Key Row Part Effect Fault ε ×
        Move Client Request (Choice Fault))}
  {initial : State Client Key Row Effect → Prop}

theorem Orderly.path
    (path : Path (registrations wrap registry initial) first steps last)
    (honest : ∀ step ∈ steps, Honest registry base step)
    (orderly : Orderly wrap registry base first) :
    Orderly wrap registry base last := by
  induction path with
  | stop => exact orderly
  | step moved _ induction =>
      rcases List.forall_mem_cons.mp honest with ⟨now, later⟩
      exact
        induction later
          (orderly.progress (progress_of_honest orderly now moved))

theorem Doomed.path
    (path : Path (registrations wrap registry initial) first steps last)
    (honest : ∀ step ∈ steps, Honest registry base step)
    (orderly : Orderly wrap registry base first)
    (doomed : Doomed registry first) : Doomed registry last := by
  induction path with
  | stop => exact doomed
  | step moved _ induction =>
      rcases List.forall_mem_cons.mp honest with ⟨now, later⟩
      have progress := progress_of_honest orderly now moved
      exact
        induction later (orderly.progress progress)
          (doomed.progress orderly progress)

/-- A run is not doomed exactly if its clients insert one by one. -/
theorem not_doomed_iff
    (path : Path (registrations wrap registry initial) first steps last)
    (honest : ∀ step ∈ steps, Honest registry base step)
    (orderly : Orderly wrap registry base first)
    (fine : ¬ Doomed registry first) :
    ¬ Doomed registry last ↔
      ∀ world ∈ states steps last, OneByOne world := by
  induction path with
  | stop state =>
      simp only [states, List.map_nil, List.nil_append, List.mem_singleton,
        forall_eq]
      exact ⟨oneByOne_of_not_doomed, fun _ => fine⟩
  | @step state target last move steps moved rest induction =>
      rcases List.forall_mem_cons.mp honest with ⟨now, later⟩
      have progress := progress_of_honest orderly now moved
      have orderly' := orderly.progress progress
      rw [states, List.map_cons, List.cons_append, List.forall_mem_cons]
      have here := oneByOne_of_not_doomed fine
      by_cases doomed : Doomed registry target
      · constructor
        · intro survives
          exact absurd (doomed.path rest later orderly') survives
        · rintro ⟨_, oneByOne⟩
          have first : target ∈ states steps last := by
            rw [← rest.stateAt_zero]
            exact stateAt_mem_states steps last 0
          exact
            absurd doomed
              (not_doomed_of_progress orderly fine progress
                (oneByOne target first))
      · rw [induction later orderly' doomed]
        exact ⟨fun oneByOne => ⟨here, oneByOne⟩, And.right⟩

end Paths

/-! ## Settled runs -/

omit [DecidableEq Client] [DecidableEq Key] in
theorem Grown.keyed_length_le {rows : List Row}
    (accepted : Accepted registry.accepts base)
    (grown : Grown registry base rows) :
    (registry.keyed rows).length ≤ 1 := by
  cases grown with
  | same => exact registry.keyed_length_le accepted
  | one none isKey =>
      rw [registry.keyed_append, none, registry.keyed_inject isKey]
      simp

omit [DecidableEq Client] [DecidableEq Key] in
/-- Among settled clients, only a refusal is not one row for all. -/
theorem registeredOnce_iff_not_doomed
    {world : RegistryWorld Client Request Key Row Part Effect Fault ε}
    (accepted : Accepted registry.accepts base)
    (orderly : Orderly wrap registry base world) (settled : Settled world)
    (asked : ∃ client, world.sessions client ≠ none) :
    RegisteredOnce registry world ↔
      ¬ Doomed registry world := by
  constructor
  · rintro ⟨value, _, answered⟩ doomed
    cases doomed with
    | late inserting _ => exact (settled _).2 inserting
    | both _ inserting _ => exact (settled _).2 inserting
    | @refused client isRefused =>
        rw [phaseAt, Option.map_eq_some_iff] at isRefused
        rcases isRefused with ⟨session, here, ended⟩
        rw [answered client session here] at ended
        cases ended
  · intro fine
    have answered (client : Client)
        (session :
          Session (database Key Row Effect Fault) Request ε Part)
        (here : world.sessions client = some session) :
        ∃ value ∈ registry.keyed world.shared.committed,
          session.program = .done value := by
      have ended := phaseAt_of_session here
      rcases session with ⟨request, calls, program⟩
      have doing := (orderly.doing client _ here).2
      change Doing wrap registry _ request program at doing
      cases doing with
      | asking => exact absurd ended (settled client).1
      | inserting => exact absurd ended (settled client).2
      | answered present => exact ⟨_, present, rfl⟩
      | refused => exact absurd (.refused ended) fine
    rcases asked with ⟨client, present⟩
    rcases Option.ne_none_iff_exists'.mp present with ⟨session, here⟩
    rcases answered client session here with ⟨value, member, _⟩
    have one := orderly.grown.keyed_length_le accepted
    have single : registry.keyed world.shared.committed = [value] := by
      rcases List.length_eq_one_iff.mp
          (Nat.le_antisymm one (List.length_pos_of_mem member)) with
        ⟨other, only⟩
      rw [only, List.mem_singleton] at member
      rw [only, member]
    refine ⟨value, single, fun other session' there => ?_⟩
    rcases answered other session' there with ⟨value', member', ended⟩
    rw [single, List.mem_singleton] at member'
    rw [ended, member']

/--
In an honest run, all clients are answered with the one row of the key exactly
if no two of them are ever inserting at the same time.
-/
theorem registeredOnce_iff_oneByOne
    {start : RegistryWorld Client Request Key Row Part Effect Fault ε}
    {last : RegistryWorld Client Request Key Row Part Effect Fault ε}
    {steps :
      List
        (RegistryWorld Client Request Key Row Part Effect Fault ε ×
          Move Client Request (Choice Fault))}
    {initial : State Client Key Row Effect → Prop}
    (quiet : ∀ client, start.shared.pending client = [])
    (nobody : ∀ client, start.sessions client = none)
    (accepted :
      Accepted registry.accepts start.shared.committed)
    (path : Path (registrations wrap registry initial) start steps last)
    (honest : ∀ step ∈ steps, Honest registry start.shared.committed step)
    (settled : Settled last)
    (asked : ∃ client, last.sessions client ≠ none) :
    RegisteredOnce registry last ↔
      ∀ world ∈ states steps last, OneByOne world := by
  have orderly : Orderly wrap registry start.shared.committed start := by
    refine ⟨quiet, .same, fun client session here => ?_⟩
    rw [nobody client] at here
    cases here
  have absent (client : Client) : phaseAt start client = none := by
    rw [phaseAt, nobody client]
    rfl
  have fine : ¬ Doomed registry start := by
    intro doomed
    cases doomed with
    | @refused client isRefused =>
        rw [absent client] at isRefused
        cases isRefused
    | @late client inserting _ =>
        rw [absent client] at inserting
        cases inserting
    | @both client _ _ inserting _ =>
        rw [absent client] at inserting
        cases inserting
  rw [registeredOnce_iff_not_doomed accepted (orderly.path path honest)
    settled asked]
  exact not_doomed_iff path honest orderly fine

end Steps

end Trackward.Lib.CheckThenInsert
