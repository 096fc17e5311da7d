import Trackward.Lib.Transactions

/-!
# Parts of a database

Some tables of a database make a database of their own, if its constraints ask
for no less than those of the part.  Programs on the part run on the whole
database, where they see its rows only; other programs read the part, but write
elsewhere and take no transaction.  What both do to the whole database is, on
the part, what the programs on the part do by themselves.
-/

namespace Trackward.Lib.DatabaseParts

open Trackward.Lib.Programs
open Trackward.Lib.Runs
open Trackward.Lib.Sessions
open Trackward.Lib.Transactions

variable {Client Request Request' Key Row Own Effect Fault : Type}
variable {ε ε' α α' : Type}

/-! ## Clients without a transaction -/

/-- The client has no transaction: no row waits, and no lock is held. -/
structure Resting (client : Client) (state : State Client Key Row Effect) :
    Prop where
  pending : state.pending client = []
  holder : ∀ key, state.holder key ≠ some client

theorem Resting.of_undisturbed {client : Client}
    {before after : State Client Key Row Effect}
    (undisturbed : Undisturbed client before after)
    (resting : Resting client before) : Resting client after where
  pending := undisturbed.pending.trans resting.pending
  holder := by
    intro key held
    exact resting.holder key ((undisturbed.holder key).mp held)

theorem Resting.of_atRest {base : List Row → Prop}
    {state : State Client Key Row Effect}
    (atRest : Protocol.atRest base state) (client : Client) :
    Resting client state where
  pending := atRest.2.1 client
  holder := by
    intro key held
    rw [atRest.2.2 key] at held
    cases held

variable [DecidableEq Client]

/-- A client that has no transaction has none to end. -/
theorem Resting.release_eq {client : Client}
    {state : State Client Key Row Effect} (resting : Resting client state) :
    state.release client = state := by
  have rows : Function.update state.pending client [] = state.pending := by
    rw [← resting.pending, Function.update_eq_self]
  have locks :
      (fun key =>
          if state.holder key = some client then none
          else state.holder key) =
        state.holder := by
    funext key
    rw [if_neg (resting.holder key)]
  rw [State.release, rows, locks]

theorem resting_release (client : Client)
    (state : State Client Key Row Effect) :
    Resting client (state.release client) where
  pending := by simp [State.release]
  holder := by
    intro key
    simp only [State.release]
    split_ifs with held
    · simp
    · exact held

variable [DecidableEq Key]

/-- The database with requests in flight. -/
abbrev DatabaseWorld (Client Request Key Row Effect Fault ε α : Type) :=
  World (database Key Row Effect Fault) Client Request
    (State Client Key Row Effect) ε α

section Worlds

variable {accepts : List Row → Row → Bool}
variable {serve : Request → Program (database Key Row Effect Fault) ε α}
variable {initial : State Client Key Row Effect → Prop}
variable {world : DatabaseWorld Client Request Key Row Effect Fault ε α}
variable
  {permitted :
    DatabaseWorld Client Request Key Row Effect Fault ε α →
      Move Client Request (Choice Fault) → Prop}

/-- Whoever has no session has no transaction. -/
def IdleResting
    (world : DatabaseWorld Client Request Key Row Effect Fault ε α) : Prop :=
  ∀ client, world.sessions client = none → Resting client world.shared

omit [DecidableEq Key] in
/-- The session of a client goes on. -/
theorem IdleResting.update (resting : IdleResting world) {client : Client}
    {shared : State Client Key Row Effect}
    (others :
      ∀ other, other ≠ client → Undisturbed other world.shared shared)
    (session : Session (database Key Row Effect Fault) Request ε α) :
    IdleResting
      (⟨shared, Function.update world.sessions client (some session)⟩ :
        DatabaseWorld Client Request Key Row Effect Fault ε α) := by
  intro other idle
  by_cases own : other = client
  · subst own
    simp at idle
  · simp only [Function.update_of_ne own] at idle
    exact (resting other idle).of_undisturbed (others other own)

/-- A client leaves the database, whether it has a session there or not. -/
theorem exists_left
    (reached :
      Reachable (system (host accepts) serve initial) permitted world)
    (departs : ∀ world client, permitted world (.depart client))
    (resting : IdleResting world) (client : Client) :
    Reachable (system (host accepts) serve initial) permitted
        ⟨world.shared.release client,
          Function.update world.sessions client none⟩ ∧
      IdleResting
        (⟨world.shared.release client,
          Function.update world.sessions client none⟩ :
          DatabaseWorld Client Request Key Row Effect Fault ε α) := by
  constructor
  · cases present : world.sessions client with
    | none =>
        rw [(resting client present).release_eq, ← present,
          Function.update_eq_self]
        exact reached
    | some session =>
        have moved :
            (system (host accepts) serve initial).step world
                (.depart client) =
              some
                ⟨world.shared.release client,
                  Function.update world.sessions client none⟩ := by
          simp [system, World.step, present, host]
        exact .next reached (departs world client) moved
  · intro other idle
    by_cases same : other = client
    · subst same
      exact resting_release other world.shared
    · simp only [Function.update_of_ne same] at idle
      exact
        (resting other idle).of_undisturbed
          (world.shared.release_undisturbed same)

end Worlds

/-! ## A part of the rows -/

/-- The rows of a part, and what both databases accept of them. -/
structure IsPart (inject : Own → Row) (part : Row → Option Own)
    (accepts : List Row → Row → Bool) (accepts' : List Own → Own → Bool) :
    Prop where
  part_inject : ∀ row, part (inject row) = some row
  accepts_part :
    ∀ rows row own, part row = some own → accepts rows row = true →
      accepts' (rows.filterMap part) own = true

/-- What the part has of the database. -/
def partOf (part : Row → Option Own) (state : State Client Key Row Effect) :
    State Client Key Own Effect where
  committed := state.committed.filterMap part
  pending := fun client => (state.pending client).filterMap part
  holder := state.holder
  clock := state.clock
  emitted := state.emitted

variable {inject : Own → Row} {part : Row → Option Own}
variable {accepts : List Row → Row → Bool}
variable {accepts' : List Own → Own → Bool}

omit [DecidableEq Client] [DecidableEq Key] in
/-- A batch that is accepted is accepted by the part. -/
theorem IsPart.acceptsAll (isPart : IsPart inject part accepts accepts')
    {committed rows : List Row}
    (accepted : acceptsAll accepts committed rows = true) :
    acceptsAll accepts' (committed.filterMap part) (rows.filterMap part) =
      true := by
  induction rows generalizing committed with
  | nil => rfl
  | cons row rows induction =>
      rw [Transactions.acceptsAll, Bool.and_eq_true] at accepted
      have others := induction accepted.2
      rw [List.filterMap_append] at others
      cases own : part row with
      | none => simpa [own] using others
      | some value =>
          have first := isPart.accepts_part committed row value own accepted.1
          simp only [List.filterMap_cons, own, Transactions.acceptsAll,
            Bool.and_eq_true]
          simp only [List.filterMap_cons, own, List.filterMap_nil] at others
          exact ⟨first, others⟩

omit [DecidableEq Key] in
/-- The rows that wait for one client are replaced. -/
theorem partOf_pending (part : Row → Option Own) (client : Client)
    (state : State Client Key Row Effect) (rows : List Row) :
    partOf part
        { state with
          pending := Function.update state.pending client rows } =
      { partOf part state with
        pending :=
          Function.update (partOf part state).pending client
            (rows.filterMap part) } :=
  congrArg (fun pending => { partOf part state with pending := pending })
    (Function.comp_update (List.filterMap part) state.pending client rows)

omit [DecidableEq Key] in
theorem partOf_release (part : Row → Option Own) (client : Client)
    (state : State Client Key Row Effect) :
    partOf part (state.release client) =
      (partOf part state).release client :=
  congrArg
    (fun state' : State Client Key Own Effect =>
      { state' with
        holder := fun key =>
          if state.holder key = some client then none
          else state.holder key })
    (partOf_pending part client state [])

/-- A statement about the part that succeeds does so on the part alone. -/
theorem IsPart.succeed (isPart : IsPart inject part accepts accepts')
    {state after : State Client Key Row Effect} {client : Client} {now : Int}
    {op : Op Key Own Effect} {reply : Reply (op.embed inject)}
    (succeeded :
      state.succeed accepts client now (op.embed inject) =
        some (reply, after)) :
    (partOf part state).succeed accepts' client now op =
      some (reply.embed part op, partOf part after) := by
  cases op with
  | begin =>
      change state.succeed accepts client now .begin = _ at succeeded
      cases State.succeeds_of_succeed succeeded with
      | begin later => exact if_pos later
  | lock key =>
      change state.succeed accepts client now (.lock key) = _ at succeeded
      cases State.succeeds_of_succeed succeeded with
      | lock key free => exact if_pos free
  | select =>
      change state.succeed accepts client now .select = _ at succeeded
      cases State.succeeds_of_succeed succeeded with
      | select =>
          simp only [State.succeed, Reply.embed, List.filterMap_append]
          rfl
  | insert row =>
      change state.succeed accepts client now (.insert (inject row)) = _
        at succeeded
      cases State.succeeds_of_succeed succeeded with
      | insert row accepted =>
          have own :=
            isPart.accepts_part _ _ row (isPart.part_inject row) accepted
          rw [List.filterMap_append] at own
          refine (if_pos own).trans ?_
          rw [partOf_pending, List.filterMap_append, List.filterMap_cons,
            isPart.part_inject]
          rfl
  | commit =>
      change state.succeed accepts client now .commit = _ at succeeded
      cases State.succeeds_of_succeed succeeded with
      | commit accepted =>
          refine (if_pos (isPart.acceptsAll accepted)).trans ?_
          rw [← partOf_release]
          simp only [partOf, List.filterMap_append]
          rfl
  | publish row =>
      change state.succeed accepts client now (.publish (inject row)) = _
        at succeeded
      cases State.succeeds_of_succeed succeeded with
      | publish row accepted =>
          have own :=
            isPart.accepts_part _ _ row (isPart.part_inject row) accepted
          refine (if_pos own).trans ?_
          simp only [partOf, List.filterMap_append, List.filterMap_cons,
            isPart.part_inject, List.filterMap_nil]
          rfl
  | emit effect =>
      change state.succeed accepts client now (.emit effect) = _ at succeeded
      cases State.succeeds_of_succeed succeeded with
      | emit effect => rfl

/-- What the database answers about the part, the part answers alone. -/
theorem IsPart.exists_respond
    (isPart : IsPart inject part accepts accepts')
    {state after : State Client Key Row Effect} {client : Client}
    {choice : Choice Fault} {op : Op Key Own Effect}
    {answer : (database Key Row Effect Fault).Answer (op.embed inject)}
    (responded :
      (host accepts).respond client choice (op.embed inject) state =
        some (answer, after)) :
    (host accepts').respond client choice op (partOf part state) =
      some (answerOfPart inject part op answer, partOf part after) := by
  rcases respond_cases responded with
    ⟨fault, rfl, rfl, rfl⟩ | ⟨now, reply, rfl, rfl, succeeded⟩
  · rfl
  · simp only [host, isPart.succeed succeeded]
    rfl

/-- The statement reads, or publishes a row that is not of the part. -/
def Outside (part : Row → Option Own) : Op Key Row Effect → Prop
  | .select => True
  | .publish row => part row = none
  | _ => False

/-- A statement outside the part leaves the part as it was. -/
theorem partOf_of_outside {state after : State Client Key Row Effect}
    {client : Client} {choice : Choice Fault} {op : Op Key Row Effect}
    {answer : (database Key Row Effect Fault).Answer op}
    (outside : Outside part op)
    (responded :
      (host accepts).respond client choice op state = some (answer, after)) :
    partOf part after = partOf part state := by
  rcases respond_cases responded with
    ⟨fault, rfl, rfl, rfl⟩ | ⟨now, reply, rfl, rfl, succeeded⟩
  · rfl
  · cases State.succeeds_of_succeed succeeded with
    | select => rfl
    | publish row accepted =>
        have absent : part row = none := outside
        simp [partOf, absent]
    | begin | lock | insert | commit | emit => exact outside.elim

/-! ## Requests to the part, and others -/

/-- The program runs one on the part, or it stays outside. -/
inductive Splits (inject : Own → Row) (part : Row → Option Own)
    (wrap : ε → ε') :
    Program (database Key Row Effect Fault) ε' α' →
      Option (Program (database Key Own Effect Fault) ε α) → Prop where
  | within {β : Type} (program : Program (database Key Own Effect Fault) ε β)
      (here : β → α') (there : β → α) :
      Splits inject part wrap
        (embed inject part wrap program >>= fun value => .done (here value))
        (some (program >>= fun value => .done (there value)))
  | outside {program : Program (database Key Row Effect Fault) ε' α'}
      (only : program.OnlyCalls (Outside part)) :
      Splits inject part wrap program none

/--
A session, and the one its client has at the part if its request asks for the
part.
-/
inductive Fits (inject : Own → Row) (part : Row → Option Own)
    (wrap : ε → ε') (asks : Request → Option Request') :
    Option (Session (database Key Row Effect Fault) Request ε' α') →
      Option (Session (database Key Own Effect Fault) Request' ε α) → Prop
    where
  | absent : Fits inject part wrap asks none none
  | within {request : Request} {request' : Request'} {calls calls' : Nat}
      {program : Program (database Key Row Effect Fault) ε' α'}
      {program' : Program (database Key Own Effect Fault) ε α}
      (asked : asks request = some request')
      (splits : Splits inject part wrap program (some program')) :
      Fits inject part wrap asks (some ⟨request, calls, program⟩)
        (some ⟨request', calls', program'⟩)
  | outside {request : Request} {calls : Nat}
      {program : Program (database Key Row Effect Fault) ε' α'}
      (asked : asks request = none)
      (only : program.OnlyCalls (Outside part)) :
      Fits inject part wrap asks (some ⟨request, calls, program⟩) none

omit [DecidableEq Client] [DecidableEq Key] in
/-- A session of the part serves what the request asks of the part. -/
theorem Fits.request_eq {inject : Own → Row} {part : Row → Option Own}
    {wrap : ε → ε'} {asks : Request → Option Request'}
    {session : Option (Session (database Key Row Effect Fault) Request ε' α')}
    {session' : Option (Session (database Key Own Effect Fault) Request' ε α)}
    (fits : Fits inject part wrap asks session session') :
    session'.map Session.request =
      session.bind fun session => asks session.request := by
  cases fits with
  | absent => rfl
  | within asked splits => exact asked.symm
  | outside asked only => exact asked.symm

/-- A world of the part by itself, for one of the whole database. -/
structure Shares (inject : Own → Row) (part : Row → Option Own)
    (wrap : ε → ε') (asks : Request → Option Request')
    (accepts' : List Own → Own → Bool)
    (serve' : Request' → Program (database Key Own Effect Fault) ε α)
    (initial' : State Client Key Own Effect → Prop)
    (world : DatabaseWorld Client Request Key Row Effect Fault ε' α')
    (own : DatabaseWorld Client Request' Key Own Effect Fault ε α) :
    Prop where
  reached :
    Reachable (system (host accepts') serve' initial') unrestricted own
  shared : own.shared = partOf part world.shared
  fits :
    ∀ client,
      Fits inject part wrap asks (world.sessions client) (own.sessions client)
  resting : IdleResting own

section Sharing

variable {wrap : ε → ε'} {asks : Request → Option Request'}
variable {serve : Request → Program (database Key Row Effect Fault) ε' α'}
variable {serve' : Request' → Program (database Key Own Effect Fault) ε α}
variable {initial' : State Client Key Own Effect → Prop}
variable {world : DatabaseWorld Client Request Key Row Effect Fault ε' α'}
variable {own : DatabaseWorld Client Request' Key Own Effect Fault ε α}

omit [DecidableEq Key] in
/-- One session of each database is replaced. -/
theorem fits_update
    {sessions :
      Client → Option (Session (database Key Row Effect Fault) Request ε' α')}
    {sessions' :
      Client → Option (Session (database Key Own Effect Fault) Request' ε α)}
    (fits :
      ∀ other, Fits inject part wrap asks (sessions other) (sessions' other))
    {client : Client}
    {session : Option (Session (database Key Row Effect Fault) Request ε' α')}
    {session' :
      Option (Session (database Key Own Effect Fault) Request' ε α)}
    (fit : Fits inject part wrap asks session session') (other : Client) :
    Fits inject part wrap asks (Function.update sessions client session other)
      (Function.update sessions' client session' other) := by
  by_cases same : other = client
  · subst same
    simpa using fit
  · simpa [same] using fits other

omit [DecidableEq Key] in
/-- A session is replaced that has none at the part. -/
theorem fits_still
    {sessions :
      Client → Option (Session (database Key Row Effect Fault) Request ε' α')}
    {sessions' :
      Client → Option (Session (database Key Own Effect Fault) Request' ε α)}
    (fits :
      ∀ other, Fits inject part wrap asks (sessions other) (sessions' other))
    {client : Client}
    {session : Option (Session (database Key Row Effect Fault) Request ε' α')}
    (fit : Fits inject part wrap asks session (sessions' client))
    (other : Client) :
    Fits inject part wrap asks (Function.update sessions client session other)
      (sessions' other) := by
  by_cases same : other = client
  · subst same
    simpa using fit
  · simpa [same] using fits other

/-- A client of the database starts, and maybe one of the part. -/
theorem Shares.arrive
    (shares : Shares inject part wrap asks accepts' serve' initial' world own)
    (splits :
      ∀ request,
        Splits inject part wrap (serve request) ((asks request).map serve'))
    {client : Client} (absent : world.sessions client = none)
    (request : Request) :
    ∃ own',
      Shares inject part wrap asks accepts' serve' initial'
        { world with
          sessions :=
            Function.update world.sessions client
              (some ⟨request, 0, serve request⟩) }
        own' := by
  have fit := shares.fits client
  rw [absent] at fit
  have split := splits request
  generalize session : own.sessions client = found at fit
  cases fit
  cases asked : asks request with
  | none =>
      rw [asked] at split
      generalize serve request = program at split ⊢
      cases split with
      | outside only =>
          refine
            ⟨own, shares.reached, shares.shared,
              fits_still shares.fits ?_, shares.resting⟩
          rw [session]
          exact .outside asked only
  | some request' =>
      rw [asked] at split
      have moved :
          (system (host accepts') serve' initial').step own
              (.arrive client request') =
            some
              { own with
                sessions :=
                  Function.update own.sessions client
                    (some ⟨request', 0, serve' request'⟩) } := by
        simp [system, World.step, session]
      exact
        ⟨_, .next shares.reached trivial moved, shares.shared,
          fits_update shares.fits (.within asked split),
          shares.resting.update (fun other _ => .refl other _) _⟩

/-- Inside the part a call is one of the part alone. -/
theorem Splits.of_call {op : Op Key Row Effect}
    {rest :
      (database Key Row Effect Fault).Answer op →
        Program (database Key Row Effect Fault) ε' α'}
    {program' : Program (database Key Own Effect Fault) ε α}
    (splits :
      Splits inject part wrap
        (@Program.call (database Key Row Effect Fault) _ _ op rest)
        (some program'))
    {state after : State Client Key Row Effect} {client : Client}
    {choice : Choice Fault} {answer : (database Key Row Effect Fault).Answer op}
    (isPart : IsPart inject part accepts accepts')
    (responded :
      (host accepts).respond client choice op state = some (answer, after)) :
    ∃ (op' : Op Key Own Effect)
      (rest' :
        (database Key Own Effect Fault).Answer op' →
          Program (database Key Own Effect Fault) ε α)
      (answer' : (database Key Own Effect Fault).Answer op'),
      program' = .call op' rest' ∧
        (host accepts').respond client choice op' (partOf part state) =
            some (answer', partOf part after) ∧
          Splits inject part wrap (rest answer) (some (rest' answer')) := by
  generalize there : some program' = other at splits
  generalize here :
    @Program.call (database Key Row Effect Fault) _ _ op rest = program
      at splits
  cases splits with
  | outside only => cases there
  | within program value value' =>
      cases there
      cases program with
      | done value => cases here
      | raise error => cases here
      | call op' rest' =>
          cases here
          exact
            ⟨op', _, _, rfl, isPart.exists_respond responded,
              .within (rest' (answerOfPart inject part op' answer)) value
                value'⟩

/-- A statement is one of the part, or it leaves the part alone. -/
theorem Shares.answer
    (shares : Shares inject part wrap asks accepts' serve' initial' world own)
    (isPart : IsPart inject part accepts accepts') {client : Client}
    {request : Request} {calls : Nat} {op : Op Key Row Effect}
    {rest :
      (database Key Row Effect Fault).Answer op →
        Program (database Key Row Effect Fault) ε' α'}
    (present : world.sessions client = some ⟨request, calls, .call op rest⟩)
    {choice : Choice Fault} {answer : (database Key Row Effect Fault).Answer op}
    {after : State Client Key Row Effect}
    (responded :
      (host accepts).respond client choice op world.shared =
        some (answer, after)) :
    ∃ own',
      Shares inject part wrap asks accepts' serve' initial'
        { shared := after
          sessions :=
            Function.update world.sessions client
              (some ⟨request, calls + 1, rest answer⟩) }
        own' := by
  have fit := shares.fits client
  rw [present] at fit
  generalize session : own.sessions client = found at fit
  generalize here :
    @Program.call (database Key Row Effect Fault) _ _ op rest = program
      at fit
  cases fit with
  | outside asked only =>
      subst here
      refine
        ⟨own, shares.reached,
          shares.shared.trans (partOf_of_outside only.1 responded).symm,
          fits_still shares.fits ?_, shares.resting⟩
      rw [session]
      exact .outside asked (only.2 answer)
  | within asked splits =>
      subst here
      rcases splits.of_call isPart responded with
        ⟨op', rest', answer', rfl, answered, splits'⟩
      rw [← shares.shared] at answered
      have moved :
          (system (host accepts') serve' initial').step own
              (.answer client choice) =
            _ :=
        World.step_call serve' session answered
      exact
        ⟨_, .next shares.reached trivial moved, rfl,
          fits_update shares.fits (.within asked splits'),
          shares.resting.update (respond_frame answered).1 _⟩

/-- A client that departs has left the part as well. -/
theorem Shares.depart
    (shares : Shares inject part wrap asks accepts' serve' initial' world own)
    (client : Client) :
    ∃ own',
      Shares inject part wrap asks accepts' serve' initial'
        { shared := world.shared.release client
          sessions := Function.update world.sessions client none }
        own' := by
  rcases exists_left shares.reached (fun _ _ => trivial) shares.resting
      client with
    ⟨reached, resting⟩
  refine ⟨_, reached, ?_, fits_update shares.fits .absent, resting⟩
  rw [shares.shared, partOf_release]

/-- What a run of the database does to the part is a run of the part. -/
theorem exists_shares {initial : State Client Key Row Effect → Prop}
    (isPart : IsPart inject part accepts accepts')
    (splits :
      ∀ request,
        Splits inject part wrap (serve request) ((asks request).map serve'))
    (starts :
      ∀ state, initial state →
        initial' (partOf part state) ∧
          ∀ client, Resting client (partOf part state))
    {permitted :
      DatabaseWorld Client Request Key Row Effect Fault ε' α' →
        Move Client Request (Choice Fault) → Prop}
    (reached :
      Reachable (system (host accepts) serve initial) permitted world) :
    ∃ own, Shares inject part wrap asks accepts' serve' initial' world own := by
  induction reached with
  | @start world isInitial =>
      rcases starts world.shared isInitial.1 with ⟨isInitial', resting⟩
      refine
        ⟨⟨partOf part world.shared, fun _ => none⟩,
          .start ⟨isInitial', fun _ => rfl⟩, rfl, fun client => ?_,
          fun client _ => resting client⟩
      rw [isInitial.2 client]
      exact .absent
  | next _ _ moved induction =>
      rcases induction with ⟨own, shares⟩
      rcases World.step_cases moved with arrival | answered | departure
      · rcases arrival with ⟨client, request, rfl, absent, rfl⟩
        exact shares.arrive splits absent request
      · rcases answered with
          ⟨client, choice, request, calls, op, rest, answer, after, rfl,
            present, responded, rfl⟩
        exact shares.answer isPart present responded
      · rcases departure with ⟨client, session, rfl, _, rfl⟩
        exact shares.depart client

end Sharing

end Trackward.Lib.DatabaseParts
