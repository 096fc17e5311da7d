import Trackward.Lib.Transactions
import Mathlib.Logic.Relation

/-!
# Clients that wait for advisory locks

A client whose next statement asks for a lock that another client holds waits
for that client.  `Asks` checks along a program that every lock is asked for
while only permitted locks are held; a run turns this into a fact about all
clients that wait at the same time.

If the locks can be ranked so that every client asks for locks of a rank above
those it holds, the locks that are waited for along a chain of waiting clients
grow in rank, and no client waits for itself.
-/

namespace Trackward.Lib.LockWaits

open Trackward.Lib.Programs
open Trackward.Lib.Runs
open Trackward.Lib.Sessions
open Trackward.Lib.Transactions

variable {Client Request Key Row Effect Fault ε α β : Type}

/-! ## Waiting -/

/-- The lock a program asks for next. -/
def wants : Program (database Key Row Effect Fault) ε α → Option Key
  | .call (.lock key) _ => some key
  | _ => none

theorem wants_eq_some_iff
    {program : Program (database Key Row Effect Fault) ε α} {key : Key} :
    wants program = some key ↔ ∃ next, program = .call (.lock key) next := by
  constructor
  · intro asks
    unfold wants at asks
    split at asks
    · cases asks
      exact ⟨_, rfl⟩
    · cases asks
  · rintro ⟨next, rfl⟩
    rfl

/-- The clients of a database, with all of them in flight. -/
abbrev LockWorld
    (Client Request Key Row Effect Fault ε α : Type) :=
  World (database Key Row Effect Fault) Client Request
    (State Client Key Row Effect) ε α

/-- The lock a client asks for next. -/
def wantedBy
    (world : LockWorld Client Request Key Row Effect Fault ε α)
    (client : Client) : Option Key :=
  (world.sessions client).bind fun session => wants session.program

/-- A client asks for a lock that another client holds. -/
def Waits (world : LockWorld Client Request Key Row Effect Fault ε α)
    (client other : Client) : Prop :=
  client ≠ other ∧
    ∃ key, wantedBy world client = some key ∧
      world.shared.holder key = some other

/-- Some client waits for itself, through other clients or not. -/
def Deadlocked (world : LockWorld Client Request Key Row Effect Fault ε α) :
    Prop :=
  ∃ client, Relation.TransGen (Waits world) client client

/-! ## The locks a program asks for -/

/-- The locks a transaction holds after an answered statement. -/
def heldAfter (held : List Key) (op : Op Key Row Effect)
    (answer : Except Fault (Reply op)) : List Key :=
  match op, answer with
  | .lock key, .ok _ => key :: held
  | .commit, .ok _ => []
  | _, _ => held

/-- Wherever the program asks for a lock, the locks it holds permit it. -/
def Asks (permits : List Key → Key → Prop) :
    List Key → Program (database Key Row Effect Fault) ε α → Prop
  | _, .done _ => True
  | _, .raise _ => True
  | held, .call op next =>
      (∀ key, op = .lock key → permits held key) ∧
        ∀ answer, Asks permits (heldAfter held op answer) (next answer)

section Rules

variable {permits : List Key → Key → Prop} {held : List Key}

/-- The statement asks for no lock. -/
def NoLock : Op Key Row Effect → Prop
  | .lock _ => False
  | _ => True

theorem NoLock.ne {op : Op Key Row Effect} (noLock : NoLock op) (key : Key) :
    op ≠ .lock key := by
  rintro rfl
  exact noLock

/-- A lock, and then a program that holds it. -/
theorem asks_lock_bind {key : Key} {wrap : Fault → ε}
    {next : Unit → Program (database Key Row Effect Fault) ε α}
    (permitted : permits held key)
    (later : Asks permits (key :: held) (next ())) :
    Asks permits held (attempt (.lock key) wrap >>= next) := by
  refine ⟨?_, fun answer => ?_⟩
  · rintro wanted ⟨⟩
    exact permitted
  · cases answer with
    | ok reply => exact later
    | error fault => trivial

/-- Another statement, and then a program that holds the same locks. -/
theorem asks_attempt_bind {op : Op Key Row Effect} {wrap : Fault → ε}
    {next : Reply op → Program (database Key Row Effect Fault) ε α}
    (noLock : NoLock op)
    (later :
      ∀ reply,
        Asks permits
          (heldAfter held op (Except.ok reply : Except Fault (Reply op)))
          (next reply)) :
    Asks permits held (attempt op wrap >>= next) := by
  refine ⟨fun key asks => absurd asks (noLock.ne key), fun answer => ?_⟩
  cases answer with
  | ok reply => exact later reply
  | error fault => trivial

/-- A program that asks for no lock. -/
theorem asks_of_noLock
    {program : Program (database Key Row Effect Fault) ε α}
    (only : program.OnlyCalls NoLock) : Asks permits held program := by
  induction program generalizing held with
  | done value => trivial
  | raise error => trivial
  | call op next induction =>
      exact ⟨fun key asks => absurd asks (only.1.ne key),
        fun answer => induction answer (only.2 answer)⟩

/-- A program that asks for no lock does after one that does. -/
theorem asks_bind_noLock
    {first : Program (database Key Row Effect Fault) ε α}
    {second : α → Program (database Key Row Effect Fault) ε β}
    (asks : Asks permits held first)
    (only : ∀ value, (second value).OnlyCalls NoLock) :
    Asks permits held (first >>= second) := by
  induction first generalizing held with
  | done value => exact asks_of_noLock (only value)
  | raise error => trivial
  | call op next induction =>
      exact ⟨asks.1, fun answer => induction answer (asks.2 answer)⟩

end Rules

/-! ## What clients hold -/

section Runs

variable [DecidableEq Client] [DecidableEq Key]
variable {accepts : List Row → Row → Bool}
variable {permits : Request → List Key → Key → Prop}

/-- Without a session no lock is held, with one only those it asked for. -/
structure Held (permits : Request → List Key → Key → Prop)
    (world : LockWorld Client Request Key Row Effect Fault ε α) : Prop where
  absent :
    ∀ client, world.sessions client = none →
      ∀ key, world.shared.holder key ≠ some client
  present :
    ∀ client session, world.sessions client = some session →
      ∃ held,
        (∀ key, world.shared.holder key = some client → key ∈ held) ∧
          Asks (permits session.request) held session.program

omit [DecidableEq Key] in
/-- Who holds a lock after a client has left held it before. -/
theorem holder_of_release {state : State Client Key Row Effect}
    {client other : Client} {key : Key}
    (holder : (state.release client).holder key = some other) :
    other ≠ client ∧ state.holder key = some other := by
  simp only [State.release] at holder
  split at holder
  · cases holder
  · rename_i notHeld
    refine ⟨?_, holder⟩
    rintro rfl
    exact notHeld holder

/-- The locks of a client after a statement of its own. -/
theorem mem_heldAfter {client : Client} {choice : Choice Fault}
    {op : Op Key Row Effect}
    {answer : (database Key Row Effect Fault).Answer op}
    {before after : State Client Key Row Effect} {held : List Key}
    (responded :
      (host accepts).respond client choice op before = some (answer, after))
    (holds : ∀ key, before.holder key = some client → key ∈ held) :
    ∀ key, after.holder key = some client →
      key ∈ heldAfter held op answer := by
  rcases respond_cases responded with
    ⟨fault, rfl, rfl, rfl⟩ | ⟨now, reply, rfl, rfl, succeeded⟩
  · cases op <;> exact holds
  · cases State.succeeds_of_succeed succeeded with
    | lock wanted free =>
        intro key holder
        by_cases same : key = wanted
        · rw [same]
          exact List.mem_cons_self
        · dsimp only at holder
          rw [Function.update_of_ne same] at holder
          exact List.mem_cons_of_mem _ (holds key holder)
    | commit accepted =>
        intro key holder
        exact absurd rfl (holder_of_release holder).1
    | begin | select | insert | publish | emit => exact holds

/-- In every run clients hold the locks they have asked for, and no others. -/
theorem held_of_reachable
    {serve : Request → Program (database Key Row Effect Fault) ε α}
    (asks : ∀ request, Asks (permits request) [] (serve request))
    {base : List Row → Prop}
    {permitted :
      LockWorld Client Request Key Row Effect Fault ε α →
        Move Client Request (Choice Fault) → Prop}
    {world : LockWorld Client Request Key Row Effect Fault ε α}
    (reached :
      Reachable (system (host accepts) serve (Protocol.atRest base))
        permitted world) :
    Held permits world := by
  induction reached with
  | start isInitial =>
      refine ⟨fun client _ key => ?_, fun client session present => ?_⟩
      · rw [isInitial.1.2.2 key]
        rintro ⟨⟩
      · rw [isInitial.2 client] at present
        cases present
  | next earlier _ moved holds =>
      rcases World.step_cases moved with arrival | answered | departure
      · rcases arrival with ⟨client, request, rfl, absent, rfl⟩
        constructor
        · intro other gone
          by_cases same : other = client
          · rw [same]
            exact holds.absent client absent
          · dsimp only at gone
            rw [Function.update_of_ne same] at gone
            exact holds.absent other gone
        · intro other session present
          by_cases same : other = client
          · dsimp only at present
            rw [same, Function.update_self, Option.some.injEq] at present
            rw [← present]
            refine ⟨[], fun key holder => ?_, asks request⟩
            rw [same] at holder
            exact absurd holder (holds.absent client absent key)
          · dsimp only at present
            rw [Function.update_of_ne same] at present
            exact holds.present other session present
      · rcases answered with
          ⟨client, choice, request, calls, op, next, answer, after, rfl, here,
            responded, rfl⟩
        have frame := (respond_frame responded).1
        constructor
        · intro other gone key
          have different : other ≠ client := by
            rintro rfl
            dsimp only at gone
            rw [Function.update_self] at gone
            cases gone
          dsimp only at gone
          rw [Function.update_of_ne different] at gone
          intro holder
          exact holds.absent other gone key
            (((frame other different).holder key).mp holder)
        · intro other session present
          by_cases same : other = client
          · dsimp only at present
            rw [same, Function.update_self, Option.some.injEq] at present
            rw [← present]
            rcases holds.present client _ here with ⟨held, all, asking⟩
            refine ⟨heldAfter held op answer, ?_, asking.2 answer⟩
            rw [same]
            exact mem_heldAfter responded all
          · dsimp only at present
            rw [Function.update_of_ne same] at present
            rcases holds.present other session present with
              ⟨held, all, asking⟩
            refine ⟨held, fun key holder => all key ?_, asking⟩
            exact ((frame other same).holder key).mp holder
      · rcases departure with ⟨client, session, rfl, present, rfl⟩
        constructor
        · intro other gone key holder
          rcases holder_of_release holder with ⟨different, before⟩
          dsimp only at gone
          rw [Function.update_of_ne different] at gone
          exact holds.absent other gone key before
        · intro other session' there
          have different : other ≠ client := by
            rintro rfl
            dsimp only at there
            rw [Function.update_self] at there
            cases there
          dsimp only at there
          rw [Function.update_of_ne different] at there
          rcases holds.present other session' there with ⟨held, all, asking⟩
          exact ⟨held, fun key holder => all key (holder_of_release holder).2,
            asking⟩

omit [DecidableEq Client] [DecidableEq Key] in
/-- A client that asks for a lock may, whatever locks it holds. -/
theorem Held.permits_of_wants
    {world : LockWorld Client Request Key Row Effect Fault ε α}
    (held : Held permits world) {client : Client} {wanted : Key}
    (wants : wantedBy world client = some wanted) :
    ∃ session locks,
      world.sessions client = some session ∧
        permits session.request locks wanted ∧
          ∀ key, world.shared.holder key = some client → key ∈ locks := by
  rcases Option.bind_eq_some_iff.mp wants with ⟨session, present, asks⟩
  rcases held.present client session present with ⟨locks, all, asking⟩
  refine ⟨session, locks, present, ?_, all⟩
  rcases wants_eq_some_iff.mp asks with ⟨next, program⟩
  rw [program] at asking
  exact asking.1 wanted rfl

/-! ## Ranked locks -/

omit [DecidableEq Client] [DecidableEq Key] in
/-- Along waiting clients the locks that are asked for grow in rank. -/
theorem Held.rank_lt_of_waits
    {world : LockWorld Client Request Key Row Effect Fault ε α}
    (held : Held permits world) {rank : Key → Nat}
    (ranked :
      ∀ client session, world.sessions client = some session →
        ∀ locks wanted, permits session.request locks wanted →
          ∀ key ∈ locks, rank key < rank wanted)
    {client other : Client} {first second : Key}
    (waits : Waits world client other)
    (wantsFirst : wantedBy world client = some first)
    (wantsSecond : wantedBy world other = some second) :
    rank first < rank second := by
  rcases waits with ⟨_, key, wants, holder⟩
  rw [wantsFirst, Option.some.injEq] at wants
  subst wants
  rcases held.permits_of_wants wantsSecond with
    ⟨session, locks, present, permitted, all⟩
  exact ranked other session present locks second permitted first
    (all first holder)

omit [DecidableEq Client] [DecidableEq Key] in
/-- With ranked locks there is no deadlock. -/
theorem Held.not_deadlocked
    {world : LockWorld Client Request Key Row Effect Fault ε α}
    (held : Held permits world) {rank : Key → Nat}
    (ranked :
      ∀ client session, world.sessions client = some session →
        ∀ locks wanted, permits session.request locks wanted →
          ∀ key ∈ locks, rank key < rank wanted) :
    ¬ Deadlocked world := by
  have grows :
      ∀ {client other : Client},
        Relation.TransGen (Waits world) client other →
          ∀ first second,
            wantedBy world client = some first →
              wantedBy world other = some second →
                rank first < rank second := by
    intro client other chain
    induction chain with
    | single waits =>
        intro first second one two
        exact held.rank_lt_of_waits ranked waits one two
    | tail _ waits induction =>
        intro first second one two
        rcases waits.2 with ⟨key, wants, _⟩
        exact (induction first key one wants).trans
          (held.rank_lt_of_waits ranked waits wants two)
  rintro ⟨client, chain⟩
  have waiting : ∃ key, wantedBy world client = some key := by
    rcases Relation.TransGen.head'_iff.mp chain with ⟨_, waits, _⟩
    rcases waits.2 with ⟨key, wants, _⟩
    exact ⟨key, wants⟩
  rcases waiting with ⟨key, wants⟩
  exact lt_irrefl _ (grows chain key key wants wants)

/-! ## Two clients that wait for each other -/

omit [DecidableEq Client] [DecidableEq Key] in
theorem deadlocked_of_pair
    {world : LockWorld Client Request Key Row Effect Fault ε α}
    {client other : Client} (one : Waits world client other)
    (two : Waits world other client) : Deadlocked world :=
  ⟨client, .tail (.single one) two⟩

/--
While nobody else moves, a client is served from a reachable world on; the
other sessions stay as they are.
-/
theorem exists_reachable_of_alone
    {serve : Request → Program (database Key Row Effect Fault) ε α}
    {initial : State Client Key Row Effect → Prop}
    {permitted :
      LockWorld Client Request Key Row Effect Fault ε α →
        Move Client Request (Choice Fault) → Prop}
    (answers : ∀ world client choice, permitted world (.answer client choice))
    {client : Client} {request : Request}
    {program left : Program (database Key Row Effect Fault) ε α}
    {shared last : State Client Key Row Effect}
    (alone : Alone (host accepts) client program shared left last)
    {world : LockWorld Client Request Key Row Effect Fault ε α} {calls : Nat}
    (reached :
      Reachable (system (host accepts) serve initial) permitted world)
    (here : world.shared = shared)
    (present : world.sessions client = some ⟨request, calls, program⟩) :
    ∃ target calls',
      Reachable (system (host accepts) serve initial) permitted target ∧
        target.shared = last ∧
          target.sessions client = some ⟨request, calls', left⟩ ∧
            ∀ other, other ≠ client →
              target.sessions other = world.sessions other := by
  induction alone generalizing world calls with
  | stop program shared =>
      exact ⟨world, calls, reached, here, present, fun _ _ => rfl⟩
  | answer choice responded _ induction =>
      subst here
      have moved :
          (system (host accepts) serve initial).step world
              (.answer client choice) =
            some _ :=
        World.step_call serve present responded
      rcases
          induction (.next reached (answers _ _ _) moved) rfl
            (Function.update_self client _ _) with
        ⟨target, calls', reached', shared, there, others⟩
      refine ⟨target, calls', reached', shared, there, ?_⟩
      intro other different
      rw [others other different]
      exact Function.update_of_ne different _ _

end Runs

end Trackward.Lib.LockWaits
