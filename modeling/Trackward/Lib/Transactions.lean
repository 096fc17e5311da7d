import Trackward.Lib.Sessions
import Mathlib.Data.List.Infix

/-!
# Read-committed transactions with advisory locks

The host of this module is a database that only grows.  Every statement sees
the rows committed before it starts together with the rows its own
transaction has inserted; a transaction's rows become visible when it commits,
and its advisory locks are held until it commits or its client departs.  The
start time of a transaction is fixed by `begin` and start times increase.
`publish` is an insert outside any transaction, and `emit` is an effect on a
store outside the database.  Any call may fail with a fault, which leaves the
database as it was.

A `Protocol` packages the rely-guarantee contract of an append-only database:
which batches of rows a request may add to which committed history, and one
advisory lock that protects a `view` of the history.  While a client holds the
lock nobody else changes the view, and `Protocol.history` turns the
verification of each request in isolation into a statement about the committed
history of every interleaving.
-/

namespace Trackward.Lib.Transactions

open Trackward.Lib.Programs
open Trackward.Lib.Runs
open Trackward.Lib.Sessions

variable {Client Request Key Row Effect Fault View : Type}
variable {ε α : Type}

/-! ## The database host -/

/-- The statements a client sends. -/
inductive Op (Key Row Effect : Type) where
  | begin
  | lock (key : Key)
  | select
  | insert (row : Row)
  | commit
  | publish (row : Row)
  | emit (effect : Effect)

/-- What a statement answers when it succeeds. -/
def Reply : Op Key Row Effect → Type
  | .begin => Int
  | .lock _ => Unit
  | .select => List Row
  | .insert _ => Unit
  | .commit => Unit
  | .publish _ => Unit
  | .emit _ => Unit

/-- The interface of the database: any statement may fail with a fault. -/
def database (Key Row Effect Fault : Type) : Interface where
  Op := Op Key Row Effect
  Answer := fun op => Except Fault (Reply op)

/-- Send one statement, raising a fault as an error. -/
def attempt (op : Op Key Row Effect) (wrap : Fault → ε) :
    Program (database Key Row Effect Fault) ε (Reply op) :=
  .call op fun answer =>
    match answer with
    | .ok reply => .done reply
    | .error fault => .raise (wrap fault)

theorem onlyCalls_attempt
    {allowed : Op Key Row Effect → Prop} {op : Op Key Row Effect}
    {wrap : Fault → ε} (permitted : allowed op) :
    (attempt op wrap :
      Program (database Key Row Effect Fault) ε (Reply op)).OnlyCalls
      allowed := by
  refine ⟨permitted, fun answer => ?_⟩
  cases answer <;> trivial

/-! ### Programs on part of a database -/

/-- A statement about the rows of a part of the database. -/
def Op.embed {Part : Type} (inject : Part → Row) :
    Op Key Part Effect → Op Key Row Effect
  | .begin => .begin
  | .lock key => .lock key
  | .select => .select
  | .insert row => .insert (inject row)
  | .commit => .commit
  | .publish row => .publish (inject row)
  | .emit effect => .emit effect

/-- What a statement answers about a part of the database. -/
def Reply.embed {Part : Type} {inject : Part → Row}
    (part : Row → Option Part) :
    (op : Op Key Part Effect) → Reply (op.embed inject) → Reply op
  | .begin, now => now
  | .lock _, reply => reply
  | .select, rows => List.filterMap part rows
  | .insert _, reply => reply
  | .commit, reply => reply
  | .publish _, reply => reply
  | .emit _, reply => reply

/-- The answer of the database, seen from a part of it. -/
def answerOfPart {Part : Type} (inject : Part → Row)
    (part : Row → Option Part) (op : (database Key Part Effect Fault).Op)
    (answer : (database Key Row Effect Fault).Answer (op.embed inject)) :
    (database Key Part Effect Fault).Answer op :=
  match answer with
  | .ok reply => .ok (Reply.embed part op reply)
  | .error fault => .error fault

/-- Run a program on a part of the database. -/
def embed {Part ε' : Type} (inject : Part → Row)
    (part : Row → Option Part) (wrap : ε → ε')
    (program : Program (database Key Part Effect Fault) ε α) :
    Program (database Key Row Effect Fault) ε' α :=
  @Program.translate ε α (database Key Part Effect Fault)
    (database Key Row Effect Fault) ε' (Op.embed inject)
    (answerOfPart inject part) wrap program

/-- The shared state of the database. -/
structure State (Client Key Row Effect : Type) where
  committed : List Row
  pending : Client → List Row
  holder : Key → Option Client
  clock : Int
  emitted : List Effect

/-- The environment lets a statement succeed at a time, or fail. -/
inductive Choice (Fault : Type) where
  | succeed (now : Int)
  | fail (fault : Fault)

/-- A batch of rows is accepted row by row on top of the committed rows. -/
def acceptsAll (accepts : List Row → Row → Bool) :
    List Row → List Row → Bool
  | _, [] => true
  | committed, row :: rows =>
      accepts committed row && acceptsAll accepts (committed ++ [row]) rows

section Host

variable [DecidableEq Client] [DecidableEq Key]

/-- End the transaction of a client: its rows are gone, its locks are free. -/
def State.release
    (state : State Client Key Row Effect) (client : Client) :
    State Client Key Row Effect :=
  { state with
    pending := Function.update state.pending client []
    holder := fun key =>
      if state.holder key = some client then none else state.holder key }

/-- The answer of the database to a statement that does not fail. -/
def State.succeed
    (accepts : List Row → Row → Bool)
    (state : State Client Key Row Effect)
    (client : Client) (now : Int) :
    (op : Op Key Row Effect) →
      Option (Reply op × State Client Key Row Effect)
  | .begin =>
      if state.clock < now then some (now, { state with clock := now })
      else none
  | .lock key =>
      if state.holder key = none ∨ state.holder key = some client then
        some ((),
          { state with
            holder := Function.update state.holder key (some client) })
      else none
  | .select => some (state.committed ++ state.pending client, state)
  | .insert row =>
      if accepts (state.committed ++ state.pending client) row then
        some ((),
          { state with
            pending :=
              Function.update state.pending client
                (state.pending client ++ [row]) })
      else none
  | .commit =>
      if acceptsAll accepts state.committed (state.pending client) then
        some ((),
          { state.release client with
            committed := state.committed ++ state.pending client })
      else none
  | .publish row =>
      if accepts state.committed row then
        some ((), { state with committed := state.committed ++ [row] })
      else none
  | .emit effect =>
      some ((), { state with emitted := state.emitted ++ [effect] })

/-- The database as a host; `accepts` are its schema constraints. -/
def host (accepts : List Row → Row → Bool) :
    Host (database Key Row Effect Fault) Client (Choice Fault)
      (State Client Key Row Effect) where
  respond := fun client choice op state =>
    match choice with
    | .fail fault => some (.error fault, state)
    | .succeed now =>
        match state.succeed accepts client now op with
        | none => none
        | some (reply, after) => some (.ok reply, after)
  depart := fun client state => state.release client

/-- The statements that do not fail, each with its guard and what it does. -/
inductive State.Succeeds (accepts : List Row → Row → Bool)
    (state : State Client Key Row Effect) (client : Client) (now : Int) :
    (op : Op Key Row Effect) → Reply op → State Client Key Row Effect →
      Prop where
  | begin (later : state.clock < now) :
      state.Succeeds accepts client now .begin now
        { state with clock := now }
  | lock (key : Key)
      (free : state.holder key = none ∨ state.holder key = some client) :
      state.Succeeds accepts client now (.lock key) ()
        { state with
          holder := Function.update state.holder key (some client) }
  | select :
      state.Succeeds accepts client now .select
        (state.committed ++ state.pending client) state
  | insert (row : Row)
      (accepted :
        accepts (state.committed ++ state.pending client) row = true) :
      state.Succeeds accepts client now (.insert row) ()
        { state with
          pending :=
            Function.update state.pending client
              (state.pending client ++ [row]) }
  | commit
      (accepted :
        acceptsAll accepts state.committed (state.pending client) = true) :
      state.Succeeds accepts client now .commit ()
        { state.release client with
          committed := state.committed ++ state.pending client }
  | publish (row : Row) (accepted : accepts state.committed row = true) :
      state.Succeeds accepts client now (.publish row) ()
        { state with committed := state.committed ++ [row] }
  | emit (effect : Effect) :
      state.Succeeds accepts client now (.emit effect) ()
        { state with emitted := state.emitted ++ [effect] }

theorem State.succeeds_of_succeed
    {accepts : List Row → Row → Bool}
    {state after : State Client Key Row Effect}
    {client : Client} {now : Int} {op : Op Key Row Effect}
    {reply : Reply op}
    (succeeded : state.succeed accepts client now op = some (reply, after)) :
    state.Succeeds accepts client now op reply after := by
  cases op with
  | begin =>
      simp only [State.succeed, Option.ite_none_right_eq_some,
        Option.some.injEq] at succeeded
      rcases succeeded with ⟨later, rfl, rfl⟩
      exact .begin later
  | lock key =>
      simp only [State.succeed, Option.ite_none_right_eq_some,
        Option.some.injEq] at succeeded
      rcases succeeded with ⟨free, rfl, rfl⟩
      exact .lock key free
  | select =>
      simp only [State.succeed, Option.some.injEq] at succeeded
      rcases succeeded with ⟨rfl, rfl⟩
      exact .select
  | insert row =>
      simp only [State.succeed, Option.ite_none_right_eq_some,
        Option.some.injEq] at succeeded
      rcases succeeded with ⟨accepted, rfl, rfl⟩
      exact .insert row accepted
  | commit =>
      simp only [State.succeed, Option.ite_none_right_eq_some,
        Option.some.injEq] at succeeded
      rcases succeeded with ⟨accepted, rfl, rfl⟩
      exact .commit accepted
  | publish row =>
      simp only [State.succeed, Option.ite_none_right_eq_some,
        Option.some.injEq] at succeeded
      rcases succeeded with ⟨accepted, rfl, rfl⟩
      exact .publish row accepted
  | emit effect =>
      simp only [State.succeed, Option.some.injEq] at succeeded
      rcases succeeded with ⟨rfl, rfl⟩
      exact .emit effect

/-- A statement fails and changes nothing, or it succeeds. -/
theorem respond_cases
    {accepts : List Row → Row → Bool} {client : Client}
    {choice : Choice Fault} {op : Op Key Row Effect}
    {answer : (database Key Row Effect Fault).Answer op}
    {before after : State Client Key Row Effect}
    (responded :
      (host accepts).respond client choice op before =
        some (answer, after)) :
    (∃ fault, choice = .fail fault ∧ answer = .error fault ∧ after = before) ∨
      ∃ now reply,
        choice = .succeed now ∧ answer = .ok reply ∧
          before.succeed accepts client now op = some (reply, after) := by
  cases choice with
  | fail fault =>
      simp only [host, Option.some.injEq] at responded
      rcases responded with ⟨rfl, rfl⟩
      exact Or.inl ⟨fault, rfl, rfl, rfl⟩
  | succeed now =>
      cases succeeded : before.succeed accepts client now op with
      | none => simp [host, succeeded] at responded
      | some result =>
          rcases result with ⟨reply, after'⟩
          simp only [host, succeeded, Option.some.injEq] at responded
          rcases responded with ⟨rfl, rfl⟩
          exact Or.inr ⟨now, reply, rfl, rfl, succeeded⟩

/-! ## Frame -/

/-- What no other client can do to the transaction of `client`. -/
structure Undisturbed (client : Client)
    (before after : State Client Key Row Effect) : Prop where
  pending : after.pending client = before.pending client
  holder :
    ∀ key, after.holder key = some client ↔ before.holder key = some client

omit [DecidableEq Client] [DecidableEq Key] in
theorem Undisturbed.refl (client : Client)
    (state : State Client Key Row Effect) :
    Undisturbed client state state :=
  ⟨rfl, fun _ => Iff.rfl⟩

omit [DecidableEq Client] [DecidableEq Key] in
theorem Undisturbed.trans {client : Client}
    {first second third : State Client Key Row Effect}
    (one : Undisturbed client first second)
    (two : Undisturbed client second third) :
    Undisturbed client first third :=
  ⟨two.pending.trans one.pending,
    fun key => (two.holder key).trans (one.holder key)⟩

omit [DecidableEq Key] in
/-- Ending a transaction disturbs no other client. -/
theorem State.release_undisturbed
    (state : State Client Key Row Effect)
    {client other : Client} (different : other ≠ client) :
    Undisturbed other state (state.release client) := by
  constructor
  · simp [State.release, different]
  · intro key
    simp only [State.release]
    split_ifs with held
    · constructor
      · intro absurdity
        cases absurdity
      · intro held'
        rw [held'] at held
        exact absurd (Option.some.inj held) different
    · exact Iff.rfl

/-- The statement writes no other rows than the allowed ones. -/
def Op.Writes (allowed : Row → Prop) : Op Key Row Effect → Prop
  | .insert row => allowed row
  | .publish row => allowed row
  | _ => True

/-- The statement also makes no other effects than the allowed ones. -/
def Op.Does (allowed : Row → Prop) (effects : Effect → Prop) :
    Op Key Row Effect → Prop
  | .insert row => allowed row
  | .publish row => allowed row
  | .emit effect => effects effect
  | _ => True

omit [DecidableEq Key] in
theorem Op.Does.writes {allowed : Row → Prop} {effects : Effect → Prop}
    {op : Op Key Row Effect} (does : op.Does allowed effects) :
    op.Writes allowed := by
  cases op with
  | insert row | publish row => exact does
  | begin | lock | select | commit | emit => trivial

omit [DecidableEq Key] in
/-- A program on a part of the database writes the rows of that part. -/
theorem onlyCalls_embed {Part ε' : Type} {inject : Part → Row}
    {part : Row → Option Part} {wrap : ε → ε'}
    {allowed : Part → Prop} {permitted : Row → Prop}
    {program : Program (database Key Part Effect Fault) ε α}
    (included : ∀ row, allowed row → permitted (inject row))
    (only : program.OnlyCalls (Op.Writes allowed)) :
    (embed inject part wrap program).OnlyCalls
      (Op.Writes permitted) := by
  refine Program.onlyCalls_translate (fun call writes => ?_) only
  cases call with
  | insert row => exact included row writes
  | publish row => exact included row writes
  | begin | lock | select | commit | emit => trivial

/-- The rows the statements of an execution wrote. -/
def written :
    List (Program.Event (database Key Row Effect Fault)) → List Row
  | [] => []
  | ⟨.insert row, .ok _⟩ :: events => row :: written events
  | ⟨.publish row, .ok _⟩ :: events => row :: written events
  | _ :: events => written events

omit [DecidableEq Key] in
theorem written_append
    (first second : List (Program.Event (database Key Row Effect Fault))) :
    written (first ++ second) = written first ++ written second := by
  induction first with
  | nil => rfl
  | cons event first induction =>
      rcases event with ⟨op, answer⟩
      cases op with
      | insert row | publish row =>
          cases answer with
          | error fault => exact induction
          | ok reply => exact congrArg (row :: ·) induction
      | begin | lock | select | commit | emit => exact induction

omit [DecidableEq Key] in
/-- What a program may write is what its executions do write. -/
theorem forall_mem_written {allowed : Row → Prop}
    {events : List (Program.Event (database Key Row Effect Fault))}
    (only : ∀ event ∈ events, event.op.Writes allowed) :
    ∀ row ∈ written events, allowed row := by
  induction events with
  | nil => simp [written]
  | cons event events induction =>
      rcases List.forall_mem_cons.mp only with ⟨first, rest⟩
      rcases event with ⟨op, answer⟩
      cases op with
      | insert row | publish row =>
          cases answer with
          | error fault => exact induction rest
          | ok reply => exact List.forall_mem_cons.mpr ⟨first, induction rest⟩
      | begin | lock | select | commit | emit => exact induction rest

/-- The rows a statement makes visible to everyone. -/
def Op.visible (pending : List Row) : Op Key Row Effect → List Row
  | .commit => pending
  | .publish row => [row]
  | _ => []

/-- A statement disturbs no other client and only appends to the history. -/
theorem State.succeed_frame
    {accepts : List Row → Row → Bool}
    {state after : State Client Key Row Effect}
    {client : Client} {now : Int} {op : Op Key Row Effect}
    {reply : Reply op}
    (succeeded : state.succeed accepts client now op = some (reply, after)) :
    after.committed = state.committed ++ op.visible (state.pending client) ∧
      ∀ other, other ≠ client → Undisturbed other state after := by
  cases State.succeeds_of_succeed succeeded with
  | begin | emit =>
      exact ⟨by simp [Op.visible], fun other _ => ⟨rfl, fun _ => Iff.rfl⟩⟩
  | lock key free =>
      refine ⟨by simp [Op.visible], fun other different => ⟨rfl, ?_⟩⟩
      intro key'
      by_cases same : key' = key
      · subst key'
        have notHeld : state.holder key ≠ some other := by
          rcases free with free | held
          · simp [free]
          · rw [held]
            exact fun equal => different (Option.some.inj equal).symm
        simp [notHeld, Ne.symm different]
      · simp [same]
  | select => exact ⟨by simp [Op.visible], fun other _ => .refl other _⟩
  | insert row =>
      exact ⟨by simp [Op.visible], fun other different =>
        ⟨by simp [different], fun _ => Iff.rfl⟩⟩
  | commit =>
      refine ⟨rfl, fun other different => ?_⟩
      have released := state.release_undisturbed different
      exact ⟨released.pending, released.holder⟩
  | publish row => exact ⟨rfl, fun other _ => ⟨rfl, fun _ => Iff.rfl⟩⟩

/-- An answered statement only appends to the committed rows. -/
theorem committed_grows
    {accepts : List Row → Row → Bool} {client : Client}
    {choice : Choice Fault} {op : Op Key Row Effect}
    {answer : (database Key Row Effect Fault).Answer op}
    {state after : State Client Key Row Effect}
    (responded :
      (host accepts).respond client choice op state = some (answer, after)) :
    state.committed <+: after.committed := by
  rcases respond_cases responded with
    ⟨fault, rfl, rfl, rfl⟩ | ⟨now, reply, rfl, rfl, succeeded⟩
  · exact List.prefix_rfl
  · rw [(State.succeed_frame succeeded).1]
    exact List.prefix_append _ _

/-- The committed rows only grow. -/
theorem committed_grows_of_step
    {accepts : List Row → Row → Bool}
    {serve : Request → Program (database Key Row Effect Fault) ε α}
    {initial : State Client Key Row Effect → Prop}
    (world :
      World (database Key Row Effect Fault) Client Request
        (State Client Key Row Effect) ε α)
    (move : Move Client Request (Choice Fault))
    (target :
      World (database Key Row Effect Fault) Client Request
        (State Client Key Row Effect) ε α)
    (moved :
      (system (host accepts) serve initial).step world move = some target) :
    world.shared.committed <+: target.shared.committed := by
  rcases World.step_cases moved with arrival | answer | departure
  · rcases arrival with ⟨client, request, rfl, _, rfl⟩
    exact List.prefix_rfl
  · rcases answer with
      ⟨client, choice, request, calls, op, next, answer, after, rfl, _,
        responded, rfl⟩
    exact committed_grows responded
  · rcases departure with ⟨client, session, rfl, _, rfl⟩
    exact List.prefix_rfl

omit [DecidableEq Client] [DecidableEq Key] in
/-- What a statement makes visible was written before or is written by it. -/
theorem Op.forall_mem_visible
    {allowed : Row → Prop} {op : Op Key Row Effect} {pending : List Row}
    (writes : op.Writes allowed) (before : ∀ row ∈ pending, allowed row) :
    ∀ row ∈ op.visible pending, allowed row := by
  cases op with
  | commit => exact before
  | publish row => simpa [Op.visible, Op.Writes] using writes
  | begin | lock | select | insert | emit => simp [Op.visible]

/-- The rows of a transaction were written before or are written now. -/
theorem State.succeed_pending
    {accepts : List Row → Row → Bool} {allowed : Row → Prop}
    {state after : State Client Key Row Effect}
    {client : Client} {now : Int} {op : Op Key Row Effect}
    {reply : Reply op}
    (succeeded : state.succeed accepts client now op = some (reply, after))
    (writes : op.Writes allowed)
    (before : ∀ row ∈ state.pending client, allowed row) :
    ∀ row ∈ after.pending client, allowed row := by
  cases State.succeeds_of_succeed succeeded with
  | insert row =>
      intro other member
      simp only [Function.update_self, List.mem_append,
        List.mem_singleton] at member
      rcases member with old | rfl
      · exact before other old
      · exact writes
  | commit => simp [State.release]
  | begin | lock | select | publish | emit => exact before

end Host

/-! ## Protocols of an append-only history -/

/-- Histories grown from an initial one by admissible batches. -/
inductive History (base : List Row → Prop)
    (admits : List Row → List Row → Prop) : List Row → Prop where
  | base {rows : List Row} (isBase : base rows) : History base admits rows
  | append {past rows : List Row}
      (grown : History base admits past) (admitted : admits past rows) :
      History base admits (past ++ rows)

/--
A protocol for the clients of an append-only database.

`admissible` says which batch a request may append to which history, `view`
is the part of the history that only the holder of `key` may change, `alone`
restricts the runs considered, and `steady` is what a request that has made
some number of calls expects of the growth of the history.
-/
structure Protocol (Request Key Row View : Type) where
  key : Key
  view : List Row → View
  base : List Row → Prop
  admissible : Request → List Row → List Row → Prop
  alone : List Row → List Row → Prop
  steady : Request → Nat → List Row → List Row → Prop
  steady_refl : ∀ request calls rows, steady request calls rows rows
  steady_trans :
    ∀ request calls first second third,
      steady request calls first second →
        steady request calls second third →
          steady request calls first third

namespace Protocol

variable (protocol : Protocol Request Key Row View)

/-- The batches that extend a history under the protocol. -/
def admits (past rows : List Row) : Prop :=
  (∃ request, protocol.admissible request past rows) ∧
    protocol.alone past rows

/-- What a client knows of a later state. -/
structure Since (client : Client) (request : Request) (calls : Nat)
    (before after : State Client Key Row Effect) : Prop where
  grown : before.committed <+: after.committed
  locks :
    ∀ key, before.holder key = some client →
      after.holder key = some client
  view :
    before.holder protocol.key = some client →
      protocol.view after.committed = protocol.view before.committed
  steady :
    protocol.steady request calls before.committed after.committed

/-- The rely-guarantee contract of the protocol. -/
def contract : Contract Client Request (State Client Key Row Effect) where
  invariant := fun state =>
    History protocol.base protocol.admits state.committed
  idle := fun client state =>
    state.pending client = [] ∧ ∀ key, state.holder key ≠ some client
  rely := fun client request calls before after =>
    Undisturbed client before after ∧
      protocol.Since client request calls before after
  guarantee := fun client request before after =>
    (∀ other, other ≠ client → Undisturbed other before after) ∧
      ∃ rows,
        after.committed = before.committed ++ rows ∧
          (rows ≠ [] →
            protocol.admissible request before.committed rows ∧
              (before.holder protocol.key = some client ∨
                protocol.view after.committed =
                  protocol.view before.committed))
  rely_refl := fun client request calls state =>
    ⟨.refl client state, List.prefix_rfl, fun _ held => held, fun _ => rfl,
      protocol.steady_refl request calls _⟩
  rely_trans := by
    rintro client request calls first second third
      ⟨undisturbed, one⟩ ⟨undisturbed', two⟩
    refine ⟨undisturbed.trans undisturbed', one.grown.trans two.grown,
      fun key held => two.locks key (one.locks key held), ?_,
      protocol.steady_trans _ _ _ _ _ one.steady two.steady⟩
    intro held
    exact (two.view (one.locks _ held)).trans (one.view held)

/-- The runs the protocol is about. -/
def discipline :
    Discipline Request (State Client Key Row Effect) where
  alone := fun before after =>
    ∀ rows, rows ≠ [] → after.committed = before.committed ++ rows →
      protocol.alone before.committed rows
  beside := fun request calls before after =>
    protocol.steady request calls before.committed after.committed

/-- A protocol that restricts nothing is about all runs. -/
theorem discipline_permits
    [DecidableEq Client]
    {interface : Interface} {Choice : Type}
    (alone : ∀ past rows, protocol.alone past rows)
    (steady : ∀ request calls before after,
      protocol.steady request calls before after)
    (host : Host interface Client Choice (State Client Key Row Effect))
    (world : World interface Client Request
      (State Client Key Row Effect) ε α)
    (move : Move Client Request Choice) :
    protocol.discipline.permits host world move := by
  cases move with
  | arrive client request => trivial
  | answer client choice =>
      intro session session' shared' present advanced
      exact
        ⟨fun rows _ _ => alone _ rows, fun other otherSession _ _ _ =>
          steady _ _ _ _⟩
  | depart client => trivial

/-! ## Rules for statements -/

section Rules

variable [DecidableEq Client] [DecidableEq Key]
variable {protocol}
variable {accepts : List Row → Row → Bool}
variable {client : Client} {request : Request} {wrap : Fault → ε}
variable {calls : Nat} {state : State Client Key Row Effect}

/--
The rule every statement rule is an instance of: the rows the statement makes
visible must be admissible, and only the holder of the lock may touch the
view.
-/
theorem wp_attempt
    {op : Op Key Row Effect}
    {post : Reply op → Nat → State Client Key Row Effect → Prop}
    (visible :
      ∀ before : State Client Key Row Effect,
        Undisturbed client state before →
          protocol.Since client request calls state before →
            op.visible (before.pending client) ≠ [] →
              protocol.admissible request before.committed
                  (op.visible (before.pending client)) ∧
                (before.holder protocol.key = some client ∨
                  protocol.view
                      (before.committed ++
                        op.visible (before.pending client)) =
                    protocol.view before.committed))
    (continues :
      ∀ (before : State Client Key Row Effect) now reply after,
        Undisturbed client state before →
          protocol.Since client request calls state before →
            before.succeed accepts client now op = some (reply, after) →
              post reply (calls + 1) after) :
    protocol.contract.wp (host accepts) client request
      (attempt op wrap) post calls state := by
  rintro before ⟨undisturbed, since⟩ _ choice answer after responded
  rcases respond_cases responded with
    ⟨fault, rfl, rfl, rfl⟩ | ⟨now, reply, rfl, rfl, succeeded⟩
  · refine ⟨⟨fun other _ => .refl other _, [], by simp, ?_⟩, trivial⟩
    intro nonempty
    exact absurd rfl nonempty
  · have frame := State.succeed_frame succeeded
    refine
      ⟨⟨frame.2, op.visible (before.pending client), frame.1, ?_⟩,
        continues before now reply after undisturbed since succeeded⟩
    intro nonempty
    rw [frame.1]
    exact visible before undisturbed since nonempty

theorem wp_begin
    {post : Int → Nat → State Client Key Row Effect → Prop}
    (continues :
      ∀ (now : Int) (after : State Client Key Row Effect),
        after.pending client = state.pending client →
          protocol.Since client request calls state after →
            post now (calls + 1) after) :
    protocol.contract.wp (host accepts) client request
      (attempt .begin wrap) post calls state := by
  apply wp_attempt
  · intro before _ _ nonempty
    exact absurd rfl nonempty
  · intro before now reply after undisturbed since succeeded
    cases State.succeeds_of_succeed succeeded
    exact continues _ _ undisturbed.pending
      ⟨since.grown, since.locks, since.view, since.steady⟩

theorem wp_lock
    {key : Key}
    {post : Unit → Nat → State Client Key Row Effect → Prop}
    (continues :
      ∀ after : State Client Key Row Effect,
        after.pending client = state.pending client →
          protocol.Since client request calls state after →
            after.holder key = some client →
              post () (calls + 1) after) :
    protocol.contract.wp (host accepts) client request
      (attempt (.lock key) wrap) post calls state := by
  apply wp_attempt
  · intro before _ _ nonempty
    exact absurd rfl nonempty
  · intro before now reply after undisturbed since succeeded
    cases State.succeeds_of_succeed succeeded
    refine continues _ undisturbed.pending
      ⟨since.grown, ?_, since.view, since.steady⟩ (by simp)
    intro other held
    by_cases same : other = key
    · simp [same]
    · simpa [same] using since.locks other held

theorem wp_select
    {post : List Row → Nat → State Client Key Row Effect → Prop}
    (continues :
      ∀ after : State Client Key Row Effect,
        after.pending client = state.pending client →
          protocol.Since client request calls state after →
            post (after.committed ++ after.pending client) (calls + 1)
              after) :
    protocol.contract.wp (host accepts) client request
      (attempt .select wrap) post calls state := by
  apply wp_attempt
  · intro before _ _ nonempty
    exact absurd rfl nonempty
  · intro before now reply after undisturbed since succeeded
    cases State.succeeds_of_succeed succeeded
    exact continues _ undisturbed.pending since

theorem wp_insert
    {row : Row}
    {post : Unit → Nat → State Client Key Row Effect → Prop}
    (continues :
      ∀ after : State Client Key Row Effect,
        after.pending client = state.pending client ++ [row] →
          protocol.Since client request calls state after →
            post () (calls + 1) after) :
    protocol.contract.wp (host accepts) client request
      (attempt (.insert row) wrap) post calls state := by
  apply wp_attempt
  · intro before _ _ nonempty
    exact absurd rfl nonempty
  · intro before now reply after undisturbed since succeeded
    cases State.succeeds_of_succeed succeeded
    exact continues _ (by simp [undisturbed.pending])
      ⟨since.grown, since.locks, since.view, since.steady⟩

theorem wp_emit
    {effect : Effect}
    {post : Unit → Nat → State Client Key Row Effect → Prop}
    (continues :
      ∀ after : State Client Key Row Effect,
        after.pending client = state.pending client →
          protocol.Since client request calls state after →
            post () (calls + 1) after) :
    protocol.contract.wp (host accepts) client request
      (attempt (.emit effect) wrap) post calls state := by
  apply wp_attempt
  · intro before _ _ nonempty
    exact absurd rfl nonempty
  · intro before now reply after undisturbed since succeeded
    cases State.succeeds_of_succeed succeeded
    exact continues _ undisturbed.pending
      ⟨since.grown, since.locks, since.view, since.steady⟩

/-- A transaction may commit rows that are admissible wherever it commits. -/
theorem wp_commit
    {post : Unit → Nat → State Client Key Row Effect → Prop}
    (visible :
      ∀ before : State Client Key Row Effect,
        before.pending client = state.pending client →
          protocol.Since client request calls state before →
            state.pending client ≠ [] →
              protocol.admissible request before.committed
                  (state.pending client) ∧
                (before.holder protocol.key = some client ∨
                  protocol.view
                      (before.committed ++ state.pending client) =
                    protocol.view before.committed))
    (continues :
      ∀ after : State Client Key Row Effect, post () (calls + 1) after) :
    protocol.contract.wp (host accepts) client request
      (attempt .commit wrap) post calls state := by
  apply wp_attempt
  · intro before undisturbed since nonempty
    simp only [Op.visible, undisturbed.pending] at nonempty ⊢
    exact visible before undisturbed.pending since nonempty
  · intro before now reply after _ _ _
    exact continues after

theorem wp_publish
    {row : Row}
    {post : Unit → Nat → State Client Key Row Effect → Prop}
    (visible :
      ∀ before : State Client Key Row Effect,
        protocol.Since client request calls state before →
          protocol.admissible request before.committed [row] ∧
            (before.holder protocol.key = some client ∨
              protocol.view (before.committed ++ [row]) =
                protocol.view before.committed))
    (continues :
      ∀ after : State Client Key Row Effect, post () (calls + 1) after) :
    protocol.contract.wp (host accepts) client request
      (attempt (.publish row) wrap) post calls state := by
  apply wp_attempt
  · intro before _ since _
    exact visible before since
  · intro before now reply after _ _ _
    exact continues after

/--
A program that writes harmless rows only keeps the protocol: any batch of them
is admissible and leaves the view as it is.
-/
theorem wp_of_onlyCalls
    {harmless : Row → Prop}
    {program : Program (database Key Row Effect Fault) ε α}
    (free :
      ∀ past rows : List Row, (∀ row ∈ rows, harmless row) →
        protocol.admissible request past rows ∧
          protocol.view (past ++ rows) = protocol.view past)
    (only : program.OnlyCalls (Op.Writes harmless))
    (pending : ∀ row ∈ state.pending client, harmless row) :
    protocol.contract.wp (host accepts) client request program
      (fun _ _ after => ∀ row ∈ after.pending client, harmless row) calls
      state := by
  induction program generalizing calls state with
  | done value => exact pending
  | raise error => trivial
  | call op next induction =>
      rintro before ⟨undisturbed, since⟩ _ choice answer after responded
      rw [← undisturbed.pending] at pending
      rcases respond_cases responded with
        ⟨fault, rfl, rfl, rfl⟩ | ⟨now, reply, rfl, rfl, succeeded⟩
      · refine ⟨⟨fun other _ => .refl other _, [], by simp, ?_⟩,
          induction _ (only.2 _) pending⟩
        intro nonempty
        exact absurd rfl nonempty
      · have frame := State.succeed_frame succeeded
        have visible :
            ∀ row ∈ op.visible (before.pending client), harmless row :=
          Op.forall_mem_visible only.1 pending
        refine
          ⟨⟨frame.2, op.visible (before.pending client), frame.1,
              fun _ => ?_⟩,
            induction _ (only.2 _)
              (State.succeed_pending succeeded only.1 pending)⟩
        rw [frame.1]
        exact ⟨(free _ _ visible).1, Or.inr (free _ _ visible).2⟩

end Rules

/-! ## Soundness -/

variable [DecidableEq Client] [DecidableEq Key]

/-- The contract of a protocol meets its obligations on the database. -/
theorem compatible (accepts : List Row → Row → Bool) :
    Contract.Compatible
      (protocol.contract :
        Contract Client Request (State Client Key Row Effect))
      (host accepts :
        Host (database Key Row Effect Fault) Client (Choice Fault) _)
      protocol.discipline where
  keeps_invariant := by
    rintro client request before after grown ⟨_, rows, same, admitted⟩ alone
    show History _ _ after.committed
    by_cases empty : rows = []
    · rw [same, empty, List.append_nil]
      exact grown
    · rw [same]
      exact .append grown
        ⟨⟨request, (admitted empty).1⟩, alone rows empty same⟩
  keeps_idle := by
    rintro client request before after ⟨frame, _⟩ other different
      ⟨quiet, unlocked⟩
    have undisturbed := frame other different
    refine ⟨undisturbed.pending.trans quiet, fun key held => ?_⟩
    exact unlocked key ((undisturbed.holder key).mp held)
  keeps_rely := by
    rintro client request before after _ ⟨frame, rows, same, admitted⟩
      other otherRequest calls different beside
    have undisturbed := frame other different
    refine ⟨undisturbed, ⟨rows, same.symm⟩,
      fun key held => (undisturbed.holder key).mpr held, ?_, beside⟩
    intro held
    by_cases empty : rows = []
    · rw [same, empty, List.append_nil]
    · rcases (admitted empty).2 with holds | unchanged
      · rw [holds] at held
        exact absurd (Option.some.inj held).symm different
      · exact unchanged
  depart_invariant := fun _ _ grown => grown
  depart_idle := by
    intro client state
    refine ⟨by simp [host, State.release], fun key => ?_⟩
    by_cases held : state.holder key = some client <;>
      simp [host, State.release, held]
  depart_keeps_idle := by
    rintro client other state ⟨quiet, unlocked⟩
    by_cases same : other = client
    · subst same
      refine ⟨by simp [host, State.release], fun key => ?_⟩
      simp [host, State.release, unlocked key]
    · have undisturbed := state.release_undisturbed same
      refine ⟨undisturbed.pending.trans quiet, fun key held => ?_⟩
      exact unlocked key ((undisturbed.holder key).mp held)
  depart_rely := by
    intro client other request calls state different
    have undisturbed := state.release_undisturbed different
    exact ⟨undisturbed, List.prefix_rfl,
      fun key held => (undisturbed.holder key).mpr held, fun _ => rfl,
      protocol.steady_refl request calls _⟩

/-- A database at rest whose history satisfies `base`. -/
def atRest (base : List Row → Prop)
    (state : State Client Key Row Effect) : Prop :=
  base state.committed ∧ (∀ client, state.pending client = []) ∧
    ∀ key, state.holder key = none

/--
If every request keeps the protocol in isolation, the history that any
disciplined interleaving commits is grown by admissible batches.
-/
theorem history
    {accepts : List Row → Row → Bool}
    {serve : Request → Program (database Key Row Effect Fault) ε α}
    (verified :
      ∀ (client : Client) request
        (state : State Client Key Row Effect),
        state.pending client = [] →
          (protocol.contract).wp (host accepts) client request
            (serve request) (fun _ _ _ => True) 0 state)
    {world : World (database Key Row Effect Fault) Client Request
      (State Client Key Row Effect) ε α}
    (reached :
      Reachable (system (host accepts) serve (atRest protocol.base))
        (protocol.discipline.permits (host accepts)) world) :
    History protocol.base protocol.admits world.shared.committed := by
  refine Contract.sound (protocol.compatible accepts) ?_ ?_ reached
  · rintro client request state _ ⟨quiet, _⟩
    exact verified client request state quiet
  · rintro state ⟨isBase, quiet, unlocked⟩
    exact ⟨.base isBase, fun client =>
      ⟨quiet client, fun key => by simp [unlocked key]⟩⟩

end Protocol

/-! ## Readers -/

/-- The statement reads and nothing else. -/
def Op.Reads : Op Key Row Effect → Prop
  | .select => True
  | _ => False

/-- The statement leaves no row that waits for a commit. -/
def Op.Immediate : Op Key Row Effect → Prop
  | .insert _ => False
  | _ => True

theorem Op.Reads.immediate {op : Op Key Row Effect} (reads : op.Reads) :
    op.Immediate := by
  cases op with
  | select => trivial
  | begin | lock | insert | commit | publish | emit => cases reads

section Readers

variable [DecidableEq Client] [DecidableEq Key]

/-- An answer disturbs no other client, and only inserts leave rows behind. -/
theorem respond_frame
    {accepts : List Row → Row → Bool} {client : Client}
    {choice : Choice Fault} {op : (database Key Row Effect Fault).Op}
    {before after : State Client Key Row Effect}
    {answer : (database Key Row Effect Fault).Answer op}
    (responded :
      (host accepts).respond client choice op before =
        some (answer, after)) :
    (∀ other, other ≠ client → Undisturbed other before after) ∧
      (op.Immediate → before.pending client = [] →
        after.pending client = []) := by
  rcases respond_cases responded with
    ⟨fault, rfl, rfl, rfl⟩ | ⟨now, reply, rfl, rfl, succeeded⟩
  · exact ⟨fun other _ => .refl other _, fun _ quiet => quiet⟩
  · refine ⟨(State.succeed_frame succeeded).2, fun immediate quiet => ?_⟩
    cases State.succeeds_of_succeed succeeded with
    | insert => exact immediate.elim
    | commit => simp [State.release]
    | begin | lock | select | publish | emit => exact quiet

/-- A read sees what is committed and what its own transaction inserted. -/
theorem rows_of_select
    {accepts : List Row → Row → Bool} {client : Client}
    {choice : Choice Fault} {rows : List Row}
    {before after : State Client Key Row Effect}
    (responded :
      (host accepts : Host (database Key Row Effect Fault) _ _ _).respond
          client choice .select before =
        some (.ok rows, after)) :
    rows = before.committed ++ before.pending client := by
  rcases respond_cases responded with
    ⟨fault, rfl, absurdity, rfl⟩ | ⟨now, reply, rfl, same, succeeded⟩
  · cases absurdity
  · cases same
    cases State.succeeds_of_succeed succeeded
    rfl

end Readers

end Trackward.Lib.Transactions
