import Trackward.Lib.Transactions

/-!
# What gets into an append-only database

A committed row has passed two gates.  The constraints accepted it on top of
all rows committed before it, whoever wrote it and whatever went on beside it.
And a request that was let in has written it, so what the requests let in may
write is all there is; a row that needs an effect before it has had it.
-/

namespace Trackward.Lib.Admission

open Trackward.Lib.Programs
open Trackward.Lib.Runs
open Trackward.Lib.Sessions
open Trackward.Lib.Transactions

variable {Client Request Key Row Effect Fault ε α : Type}

/-! ## Accepted rows -/

/-- Each row was accepted on top of the rows before it. -/
def Accepted (accepts : List Row → Row → Bool) (rows : List Row) : Prop :=
  acceptsAll accepts [] rows = true

section Accepted

variable {accepts : List Row → Row → Bool} {rows : List Row}

theorem acceptsAll_append (past before after : List Row) :
    acceptsAll accepts past (before ++ after) =
      (acceptsAll accepts past before &&
        acceptsAll accepts (past ++ before) after) := by
  induction before generalizing past with
  | nil => simp [acceptsAll]
  | cons row before induction =>
      rw [List.cons_append, acceptsAll, acceptsAll, induction,
        List.append_assoc, List.singleton_append, Bool.and_assoc]

theorem accepted_nil : Accepted accepts [] :=
  rfl

/-- A batch that is accepted on top of accepted rows. -/
theorem Accepted.append {batch : List Row} (accepted : Accepted accepts rows)
    (next : acceptsAll accepts rows batch = true) :
    Accepted accepts (rows ++ batch) := by
  unfold Accepted at accepted ⊢
  rw [acceptsAll_append, accepted, List.nil_append, next]
  rfl

/-- Where a row stands, the constraints accepted it. -/
theorem Accepted.accepts_of_split {before after : List Row} {row : Row}
    (accepted : Accepted accepts rows)
    (split : rows = before ++ row :: after) :
    accepts before row = true := by
  unfold Accepted at accepted
  rw [split, acceptsAll_append, List.nil_append, acceptsAll] at accepted
  simp only [Bool.and_eq_true] at accepted
  exact accepted.2.1

/-- Each row stands on top of rows that the constraints found. -/
theorem Accepted.accepts_of_mem {row : Row}
    (accepted : Accepted accepts rows) (member : row ∈ rows) :
    ∃ before after,
      rows = before ++ row :: after ∧ accepts before row = true := by
  rcases List.append_of_mem member with ⟨before, after, split⟩
  exact ⟨before, after, split, accepted.accepts_of_split split⟩

/-- What the constraints demand of every earlier row holds pairwise. -/
theorem Accepted.pairwise {related : Row → Row → Prop}
    (demanded :
      ∀ past row, accepts past row = true →
        ∀ other ∈ past, related other row)
    (accepted : Accepted accepts rows) : rows.Pairwise related := by
  induction rows using List.reverseRecOn with
  | nil => exact .nil
  | append_singleton rows row induction =>
      unfold Accepted at accepted
      rw [acceptsAll_append, Bool.and_eq_true, List.nil_append] at accepted
      have last : accepts rows row = true :=
        Accepted.accepts_of_split
          (show Accepted accepts (rows ++ [row]) by
            rw [Accepted, acceptsAll_append, accepted.1, List.nil_append,
              accepted.2]
            rfl)
          rfl
      rw [List.pairwise_append]
      refine ⟨induction accepted.1, List.pairwise_singleton _ _, ?_⟩
      intro other member row' isRow
      rw [List.mem_singleton] at isRow
      rw [isRow]
      exact demanded rows row last other member

/-- What the constraints demand of every earlier row, for a batch. -/
theorem pairwise_of_acceptsAll {related : Row → Row → Prop}
    (demanded :
      ∀ past row, accepts past row = true →
        ∀ other ∈ past, related other row)
    {past batch : List Row}
    (passed : acceptsAll accepts past batch = true) :
    batch.Pairwise related := by
  induction batch generalizing past with
  | nil => exact .nil
  | cons row batch induction =>
      rw [acceptsAll, Bool.and_eq_true] at passed
      refine .cons ?_ (induction passed.2)
      intro later member
      rcases List.append_of_mem member with ⟨before, after, rfl⟩
      have split := passed.2
      rw [acceptsAll_append, acceptsAll, Bool.and_eq_true, Bool.and_eq_true]
        at split
      exact demanded _ later split.2.1 row (by simp)

end Accepted

/-! ## Answers of the database -/

section Answers

variable [DecidableEq Client] [DecidableEq Key]
variable {accepts : List Row → Row → Bool}

/-- An answered call commits a batch of rows that the constraints accept. -/
theorem committed_of_respond
    {client : Client} {choice : Choice Fault}
    {op : (database Key Row Effect Fault).Op}
    {before after : State Client Key Row Effect}
    {answer : (database Key Row Effect Fault).Answer op}
    (responded :
      (host accepts).respond client choice op before =
        some (answer, after)) :
    ∃ batch,
      after.committed = before.committed ++ batch ∧
        acceptsAll accepts before.committed batch = true := by
  rcases respond_cases responded with
    ⟨fault, rfl, rfl, rfl⟩ | ⟨now, reply, rfl, rfl, succeeded⟩
  · exact ⟨[], (List.append_nil _).symm, rfl⟩
  · refine ⟨op.visible (before.pending client),
      (State.succeed_frame succeeded).1, ?_⟩
    cases State.succeeds_of_succeed succeeded with
    | commit accepted => exact accepted
    | publish row accepted => simpa [Op.visible, acceptsAll] using accepted
    | begin | lock | select | insert | emit => rfl

/-- Whatever clients do, the committed rows are accepted ones. -/
theorem accepted_of_reachable
    {serve : Request → Program (database Key Row Effect Fault) ε α}
    {initial : State Client Key Row Effect → Prop}
    (starts : ∀ state, initial state → Accepted accepts state.committed)
    {permitted :
      World (database Key Row Effect Fault) Client Request
          (State Client Key Row Effect) ε α →
        Move Client Request (Choice Fault) → Prop}
    {world : World (database Key Row Effect Fault) Client Request
      (State Client Key Row Effect) ε α}
    (reached : Reachable (system (host accepts) serve initial) permitted world) :
    Accepted accepts world.shared.committed := by
  induction reached with
  | start isInitial => exact starts _ isInitial.1
  | next _ _ moved accepted =>
      rcases World.step_cases moved with arrival | answered | departure
      · rcases arrival with ⟨client, request, rfl, _, rfl⟩
        exact accepted
      · rcases answered with
          ⟨client, choice, request, calls, op, next, answer, after, rfl, _,
            responded, rfl⟩
        rcases committed_of_respond responded with ⟨batch, grown, passed⟩
        show Accepted accepts after.committed
        rw [grown]
        exact accepted.append passed
      · rcases departure with ⟨client, session, rfl, _, rfl⟩
        exact accepted

/-- What is committed since the start was accepted on top of it. -/
theorem exists_batch_of_reachable
    {serve : Request → Program (database Key Row Effect Fault) ε α}
    {initial : State Client Key Row Effect → Prop}
    {permitted :
      World (database Key Row Effect Fault) Client Request
          (State Client Key Row Effect) ε α →
        Move Client Request (Choice Fault) → Prop}
    {world : World (database Key Row Effect Fault) Client Request
      (State Client Key Row Effect) ε α}
    (reached : Reachable (system (host accepts) serve initial) permitted world) :
    ∃ start batch, initial start ∧
      world.shared.committed = start.committed ++ batch ∧
        acceptsAll accepts start.committed batch = true := by
  induction reached with
  | start isInitial =>
      exact ⟨_, [], isInitial.1, (List.append_nil _).symm, rfl⟩
  | next _ _ moved induction =>
      rcases induction with ⟨start, batch, isInitial, grown, passed⟩
      rcases World.step_cases moved with arrival | answered | departure
      · rcases arrival with ⟨client, request, rfl, _, rfl⟩
        exact ⟨start, batch, isInitial, grown, passed⟩
      · rcases answered with
          ⟨client, choice, request, calls, op, next, answer, after, rfl, _,
            responded, rfl⟩
        rcases committed_of_respond responded with ⟨more, committed, accepted⟩
        refine ⟨start, batch ++ more, isInitial, ?_, ?_⟩
        · rw [committed, grown, List.append_assoc]
        · rw [grown] at accepted
          rw [acceptsAll_append, passed, accepted]
          rfl
      · rcases departure with ⟨client, session, rfl, _, rfl⟩
        exact ⟨start, batch, isInitial, grown, passed⟩

/-! ## Gates -/

/-- What a row needs of the effects before it, and which effects are made. -/
structure Gate (Row Effect : Type) where
  row : List Effect → Row → Prop
  effect : Effect → Prop
  monotone :
    ∀ fewer more, fewer ⊆ more → ∀ value, row fewer value → row more value

/-- The gate for rows that need nothing. -/
def Gate.rows (allowed : Row → Prop) : Gate Row Effect where
  row := fun _ => allowed
  effect := fun _ => True
  monotone := fun _ _ _ _ holds => holds

/-- The effect of an answered statement. -/
def made (op : Op Key Row Effect)
    (answer : (database Key Row Effect Fault).Answer op) : List Effect :=
  match op, answer with
  | .emit effect, .ok _ => [effect]
  | _, _ => []

/-- After these effects, the program writes each row when it may. -/
def Gated (gate : Gate Row Effect) :
    List Effect → Program (database Key Row Effect Fault) ε α → Prop
  | _, .done _ => True
  | _, .raise _ => True
  | emitted, .call op next =>
      op.Does (gate.row emitted) gate.effect ∧
        ∀ answer, Gated gate (emitted ++ made op answer) (next answer)

section Gated

variable {gate : Gate Row Effect} {fewer more emitted : List Effect}
variable {program : Program (database Key Row Effect Fault) ε α}

omit [DecidableEq Client] [DecidableEq Key] in
theorem effect_of_made {op : Op Key Row Effect}
    {answer : (database Key Row Effect Fault).Answer op} {effect : Effect}
    (does : op.Does (gate.row emitted) gate.effect)
    (member : effect ∈ made op answer) : gate.effect effect := by
  cases op with
  | emit other =>
      cases answer with
      | ok reply =>
          rw [List.mem_singleton.mp member]
          exact does
      | error fault => cases member
  | begin | lock | select | insert | commit | publish => cases member

omit [DecidableEq Client] [DecidableEq Key] in
theorem does_mono {op : Op Key Row Effect} (included : fewer ⊆ more)
    (does : op.Does (gate.row fewer) gate.effect) :
    op.Does (gate.row more) gate.effect := by
  cases op with
  | insert row | publish row =>
      exact gate.monotone fewer more included row does
  | emit effect => exact does
  | begin | lock | select | commit => trivial

omit [DecidableEq Client] [DecidableEq Key] in
/-- Effects that others make in between do no harm. -/
theorem Gated.mono (included : fewer ⊆ more) (gated : Gated gate fewer program) :
    Gated gate more program := by
  induction program generalizing fewer more with
  | done value => trivial
  | raise error => trivial
  | call op next induction =>
      refine ⟨does_mono included gated.1, fun answer => ?_⟩
      exact
        induction answer
          (List.append_subset.mpr
            ⟨List.subset_append_of_subset_left _ included,
              List.subset_append_right _ _⟩)
          (gated.2 answer)

omit [DecidableEq Client] [DecidableEq Key] in
/-- A program all of whose rows may be written already. -/
theorem gated_of_onlyCalls
    (only : program.OnlyCalls (Op.Does (gate.row emitted) gate.effect)) :
    Gated gate emitted program := by
  induction program generalizing emitted with
  | done value => trivial
  | raise error => trivial
  | call op next induction =>
      refine ⟨only.1, fun answer => induction answer ?_⟩
      exact
        (only.2 answer).mono fun _ =>
          does_mono (List.subset_append_left _ _)

omit [DecidableEq Client] [DecidableEq Key] in
theorem gated_of_writes {allowed : Row → Prop}
    (only : program.OnlyCalls (Op.Writes allowed)) :
    Gated (Gate.rows allowed) emitted program := by
  apply gated_of_onlyCalls
  refine only.mono fun op writes => ?_
  cases op with
  | insert row | publish row => exact writes
  | begin | lock | select | commit | emit => trivial

omit [DecidableEq Client] [DecidableEq Key] in
theorem gated_bind {β : Type}
    {next : α → Program (database Key Row Effect Fault) ε β}
    (gated : Gated gate emitted program)
    (later : ∀ value after, emitted ⊆ after → Gated gate after (next value)) :
    Gated gate emitted (program >>= next) := by
  induction program generalizing emitted with
  | done value => exact later value emitted (List.Subset.refl _)
  | raise error => trivial
  | call op rest induction =>
      refine ⟨gated.1, fun answer => induction answer (gated.2 answer) ?_⟩
      intro value after included
      exact
        later value after
          (List.Subset.trans (List.subset_append_left _ _) included)

omit [DecidableEq Client] [DecidableEq Key] in
/-- A statement, and then a program that counts on its effect. -/
theorem gated_attempt_bind {op : Op Key Row Effect} {wrap : Fault → ε}
    {next : Reply op → Program (database Key Row Effect Fault) ε α}
    (does : op.Does (gate.row emitted) gate.effect)
    (later :
      ∀ reply,
        Gated gate
          (emitted ++ made op (Except.ok reply : Except Fault (Reply op)))
          (next reply)) :
    Gated gate emitted (attempt op wrap >>= next) := by
  refine ⟨does, fun answer => ?_⟩
  cases answer with
  | ok reply => exact later reply
  | error fault => trivial

end Gated

/-! ## Requests that are let in -/

/-- All rows and effects have passed the gate, and all that come will. -/
structure Kept (gate : Gate Row Effect)
    (world : World (database Key Row Effect Fault) Client Request
      (State Client Key Row Effect) ε α) : Prop where
  committed :
    ∀ row ∈ world.shared.committed, gate.row world.shared.emitted row
  pending :
    ∀ client, ∀ row ∈ world.shared.pending client,
      gate.row world.shared.emitted row
  emitted : ∀ effect ∈ world.shared.emitted, gate.effect effect
  sessions :
    ∀ client session, world.sessions client = some session →
      Gated gate world.shared.emitted session.program

omit [DecidableEq Key] in
/-- What holds of all sessions, and of one that changes. -/
theorem forall_sessions_update
    {holds : Session (database Key Row Effect Fault) Request ε α → Prop}
    {sessions :
      Client →
        Option (Session (database Key Row Effect Fault) Request ε α)}
    (others :
      ∀ client session, sessions client = some session → holds session)
    {client : Client}
    {session : Option (Session (database Key Row Effect Fault) Request ε α)}
    (here : ∀ changed, session = some changed → holds changed) :
    ∀ other changed,
      Function.update sessions client session other = some changed →
        holds changed := by
  intro other changed present
  by_cases same : other = client
  · rw [same, Function.update_self] at present
    exact here changed present
  · rw [Function.update_of_ne same] at present
    exact others other changed present

/-- An answer to a statement that writes allowed rows commits only such. -/
theorem batch_of_respond {allowed : Row → Prop}
    {client : Client} {choice : Choice Fault}
    {op : (database Key Row Effect Fault).Op}
    {before after : State Client Key Row Effect}
    {answer : (database Key Row Effect Fault).Answer op}
    (responded :
      (host accepts).respond client choice op before =
        some (answer, after))
    (writes : op.Writes allowed)
    (pending : ∀ client, ∀ row ∈ before.pending client, allowed row) :
    (∃ batch,
        after.committed = before.committed ++ batch ∧
          ∀ row ∈ batch, allowed row) ∧
      ∀ client, ∀ row ∈ after.pending client, allowed row := by
  rcases respond_cases responded with
    ⟨fault, rfl, rfl, rfl⟩ | ⟨now, reply, rfl, rfl, succeeded⟩
  · exact ⟨⟨[], (List.append_nil _).symm, by simp⟩, pending⟩
  · have frame := State.succeed_frame succeeded
    constructor
    · exact
        ⟨op.visible (before.pending client), frame.1,
          Op.forall_mem_visible writes (pending client)⟩
    · intro other
      by_cases same : other = client
      · rw [same]
        exact State.succeed_pending succeeded writes (pending client)
      · rw [(frame.2 other same).pending]
        exact pending other

theorem allowed_of_respond {allowed : Row → Prop}
    {client : Client} {choice : Choice Fault}
    {op : (database Key Row Effect Fault).Op}
    {before after : State Client Key Row Effect}
    {answer : (database Key Row Effect Fault).Answer op}
    (responded :
      (host accepts).respond client choice op before =
        some (answer, after))
    (writes : op.Writes allowed)
    (committed : ∀ row ∈ before.committed, allowed row)
    (pending : ∀ client, ∀ row ∈ before.pending client, allowed row) :
    (∀ row ∈ after.committed, allowed row) ∧
      ∀ client, ∀ row ∈ after.pending client, allowed row := by
  rcases batch_of_respond responded writes pending with
    ⟨⟨batch, grown, inside⟩, pending'⟩
  refine ⟨fun row member => ?_, pending'⟩
  rw [grown] at member
  rcases List.mem_append.mp member with old | new
  · exact committed row old
  · exact inside row new

/-- An answered statement makes its effect. -/
theorem emitted_of_respond
    {client : Client} {choice : Choice Fault}
    {op : (database Key Row Effect Fault).Op}
    {before after : State Client Key Row Effect}
    {answer : (database Key Row Effect Fault).Answer op}
    (responded :
      (host accepts).respond client choice op before =
        some (answer, after)) :
    after.emitted = before.emitted ++ made op answer := by
  rcases respond_cases responded with
    ⟨fault, rfl, rfl, rfl⟩ | ⟨now, reply, rfl, rfl, succeeded⟩
  · cases op <;> exact (List.append_nil _).symm
  · cases State.succeeds_of_succeed succeeded with
    | emit effect => rfl
    | begin | lock | select | insert | commit | publish =>
        exact (List.append_nil _).symm

/-- If the requests that are let in pass the gate, so does everything. -/
theorem kept_of_permitted {gate : Gate Row Effect}
    {serve : Request → Program (database Key Row Effect Fault) ε α}
    {initial : State Client Key Row Effect → Prop}
    (starts :
      ∀ state, initial state →
        (∀ row ∈ state.committed, gate.row state.emitted row) ∧
          (∀ client, state.pending client = []) ∧
            ∀ effect ∈ state.emitted, gate.effect effect)
    {permitted :
      World (database Key Row Effect Fault) Client Request
          (State Client Key Row Effect) ε α →
        Move Client Request (Choice Fault) → Prop}
    (serves :
      ∀ world client request, permitted world (.arrive client request) →
        Gated gate [] (serve request))
    {world : World (database Key Row Effect Fault) Client Request
      (State Client Key Row Effect) ε α}
    (reached : Reachable (system (host accepts) serve initial) permitted world) :
    Kept gate world := by
  induction reached with
  | start isInitial =>
      rcases starts _ isInitial.1 with ⟨committed, quiet, emitted⟩
      refine ⟨committed, fun client row member => ?_, emitted,
        fun client session here => ?_⟩
      · rw [quiet client] at member
        cases member
      · rw [isInitial.2 client] at here
        cases here
  | @next before target move _ letIn moved holds =>
      rcases World.step_cases moved with arrival | answered | departure
      · rcases arrival with ⟨client, request, rfl, _, rfl⟩
        refine ⟨holds.committed, holds.pending, holds.emitted, ?_⟩
        apply forall_sessions_update holds.sessions
        rintro changed ⟨⟩
        exact (serves _ _ _ letIn).mono (List.nil_subset _)
      · rcases answered with
          ⟨client, choice, request, calls, op, next, answer, after, rfl, here,
            responded, rfl⟩
        have gated := holds.sessions client _ here
        have emitted := emitted_of_respond responded
        have included : before.shared.emitted ⊆ after.emitted := by
          rw [emitted]
          exact List.subset_append_left _ (made op answer)
        rcases
            allowed_of_respond responded (gated.1.writes)
              holds.committed holds.pending with
          ⟨committed, pending⟩
        refine ⟨?_, ?_, ?_, ?_⟩
        · intro row member
          exact gate.monotone _ _ included row (committed row member)
        · intro other row member
          exact gate.monotone _ _ included row (pending other row member)
        · intro effect member
          rw [emitted] at member
          rcases List.mem_append.mp member with old | new
          · exact holds.emitted effect old
          · exact effect_of_made gated.1 new
        · refine forall_sessions_update
            (fun other session' there =>
              (holds.sessions other session' there).mono included) ?_
          rintro changed ⟨⟩
          show Gated gate after.emitted (next answer)
          rw [emitted]
          exact gated.2 answer
      · rcases departure with ⟨client, session, rfl, _, rfl⟩
        refine ⟨holds.committed, fun other row member => ?_, holds.emitted, ?_⟩
        · apply holds.pending other
          by_cases same : other = client
          · simp [same, host, State.release] at member
          · simpa [host, State.release, same] using member
        · apply forall_sessions_update holds.sessions
          rintro changed ⟨⟩

end Answers

end Trackward.Lib.Admission
