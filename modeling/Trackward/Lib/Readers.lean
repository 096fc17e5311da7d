import Trackward.Lib.Traces
import Trackward.Lib.Transactions

/-!
# What a client reads along a run

A statement reads the committed rows and those its own transaction has
inserted.  A client that never inserts in a transaction has none of its own, so
each of its reads is a state of the database that all clients share, at the
moment the read is answered.
-/

namespace Trackward.Lib.Readers

open Trackward.Lib.Programs
open Trackward.Lib.Runs
open Trackward.Lib.Sessions
open Trackward.Lib.Traces
open Trackward.Lib.Transactions

variable {Client Request Key Row Effect Fault ε α : Type}

/-! ## Clients without rows of their own -/

/-- The client has no rows of its own if it only sends such statements. -/
def Calm (sends : Op Key Row Effect → Prop)
    (serve : Request → Program (database Key Row Effect Fault) ε α)
    (state : State Client Key Row Effect) (client : Client) :
    Option (Session (database Key Row Effect Fault) Request ε α) → Prop
  | none => state.pending client = []
  | some session =>
      (serve session.request).OnlyCalls sends →
        session.program.OnlyCalls sends ∧ state.pending client = []

variable {sends : Op Key Row Effect → Prop}

/-- What does not disturb a client leaves it calm. -/
theorem Calm.undisturbed
    {serve : Request → Program (database Key Row Effect Fault) ε α}
    {before after : State Client Key Row Effect} {client : Client}
    {session : Option (Session (database Key Row Effect Fault) Request ε α)}
    (calm : Calm sends serve before client session)
    (undisturbed : Undisturbed client before after) :
    Calm sends serve after client session := by
  cases session with
  | none => exact undisturbed.pending.trans calm
  | some session =>
      intro only
      exact ⟨(calm only).1, undisturbed.pending.trans (calm only).2⟩

variable [DecidableEq Client] [DecidableEq Key]

/-- A client that only sends immediate statements has no rows of its own. -/
theorem calm_of_reachable
    (immediate : ∀ op, sends op → op.Immediate)
    {accepts : List Row → Row → Bool}
    {serve : Request → Program (database Key Row Effect Fault) ε α}
    {base : List Row → Prop}
    {world : World (database Key Row Effect Fault) Client Request
      (State Client Key Row Effect) ε α}
    (reached :
      Reachable (system (host accepts) serve (Protocol.atRest base))
        unrestricted world) :
    ∀ client,
      Calm sends serve world.shared client (world.sessions client) := by
  induction reached with
  | start isInitial =>
      intro client
      rw [isInitial.2 client]
      exact isInitial.1.2.1 client
  | next _ _ moved holds =>
      rcases World.step_cases moved with arrival | answer | departure
      · rcases arrival with ⟨client, request, rfl, absent, rfl⟩
        rw [Function.forall_update_iff _
          fun client => Calm sends serve _ client]
        refine ⟨fun only => ⟨only, ?_⟩, fun other _ => holds other⟩
        have quiet := holds client
        rw [absent] at quiet
        exact quiet
      · rcases answer with
          ⟨client, choice, request, calls, op, next, reply, after, rfl, here,
            responded, rfl⟩
        have frame := respond_frame responded
        rw [Function.forall_update_iff _
          fun client => Calm sends serve after client]
        refine ⟨fun only => ?_, fun other different =>
          (holds other).undisturbed (frame.1 other different)⟩
        have before := holds client
        rw [here, Calm] at before
        rcases before only with ⟨onlyHere, quiet⟩
        exact ⟨onlyHere.2 reply, frame.2 (immediate op onlyHere.1) quiet⟩
      · rcases departure with ⟨client, session, rfl, _, rfl⟩
        rw [Function.forall_update_iff _
          fun client => Calm sends serve _ client]
        constructor
        · simp [Calm, host, State.release]
        · intro other different
          exact
            (holds other).undisturbed
              (State.release_undisturbed _ different)

/-! ## Reads -/

/-- What a client without rows of its own reads is what is committed then. -/
theorem committed_of_read
    (immediate : ∀ op, sends op → op.Immediate)
    {accepts : List Row → Row → Bool}
    {serve : Request → Program (database Key Row Effect Fault) ε α}
    {base : List Row → Prop}
    {arrived finished : World (database Key Row Effect Fault) Client Request
      (State Client Key Row Effect) ε α}
    {steps :
      List (World (database Key Row Effect Fault) Client Request
          (State Client Key Row Effect) ε α ×
        Move Client Request (Choice Fault))}
    {client : Client}
    {session : Session (database Key Row Effect Fault) Request ε α}
    {left : Program (database Key Row Effect Fault) ε α}
    {visits :
      List
        (Visit (database Key Row Effect Fault)
          (State Client Key Row Effect))}
    (reached :
      Reachable (system (host accepts) serve (Protocol.atRest base))
        unrestricted arrived)
    (asked : arrived.sessions client = some session)
    (only : (serve session.request).OnlyCalls sends)
    (path :
      Path (system (host accepts) serve (Protocol.atRest base)) arrived
        steps finished)
    (stays : Stays client steps)
    (visited :
      Visited (host accepts :
        Host (database Key Row Effect Fault) Client (Choice Fault) _)
        client session.program visits left)
    (befores :
      visits.map Visit.before =
        (answered client steps).map fun step => step.1.shared)
    {index : Nat} {rows : List Row}
    (read : (visits.map Visit.event)[index]? = some ⟨.select, .ok rows⟩) :
    answeredAt client steps index < steps.length ∧
      (stateAt steps finished
          (answeredAt client steps index)).shared.committed = rows := by
  rw [List.getElem?_map, Option.map_eq_some_iff] at read
  rcases read with ⟨visit, here, isRead⟩
  have before : (visits.map Visit.before)[index]? = some visit.before := by
    rw [List.getElem?_map, here]
    rfl
  rw [befores, List.getElem?_map, Option.map_eq_some_iff] at before
  rcases before with ⟨step, isStep, shared⟩
  rcases stateAt_answeredAt finished isStep with ⟨inside, there⟩
  refine ⟨inside, ?_⟩
  have member : step ∈ steps :=
    (List.mem_filter.mp (List.mem_of_getElem? isStep)).1
  rcases path.present stays asked step member with
    ⟨calls, program, present⟩
  have calm :=
    calm_of_reachable immediate
      ((path.reachable reached).2 step member) client
  rw [present] at calm
  have quiet := (calm only).2
  rcases visited.responded visit (List.mem_of_getElem? here) with
    ⟨choice, responded⟩
  rcases visit with ⟨before, event, after⟩
  subst isRead
  have seen := rows_of_select responded
  change step.1.shared = before at shared
  rw [← shared, quiet, List.append_nil] at seen
  rw [seen]
  exact congrArg (fun world => world.shared.committed) there

/-- What is read is committed in some state between request and answer. -/
theorem exists_state_of_read
    (immediate : ∀ op, sends op → op.Immediate)
    {accepts : List Row → Row → Bool}
    {serve : Request → Program (database Key Row Effect Fault) ε α}
    {base : List Row → Prop}
    {arrived finished : World (database Key Row Effect Fault) Client Request
      (State Client Key Row Effect) ε α}
    {steps :
      List (World (database Key Row Effect Fault) Client Request
          (State Client Key Row Effect) ε α ×
        Move Client Request (Choice Fault))}
    {client : Client}
    {session : Session (database Key Row Effect Fault) Request ε α}
    {left : Program (database Key Row Effect Fault) ε α}
    {visits :
      List
        (Visit (database Key Row Effect Fault)
          (State Client Key Row Effect))}
    (reached :
      Reachable (system (host accepts) serve (Protocol.atRest base))
        unrestricted arrived)
    (asked : arrived.sessions client = some session)
    (only : (serve session.request).OnlyCalls sends)
    (path :
      Path (system (host accepts) serve (Protocol.atRest base)) arrived
        steps finished)
    (stays : Stays client steps)
    (visited :
      Visited (host accepts :
        Host (database Key Row Effect Fault) Client (Choice Fault) _)
        client session.program visits left)
    (befores :
      visits.map Visit.before =
        (answered client steps).map fun step => step.1.shared)
    {rows : List Row}
    (read :
      (⟨.select, .ok rows⟩ :
          Program.Event (database Key Row Effect Fault)) ∈
        visits.map Visit.event) :
    ∃ world ∈ states steps finished,
      world.shared.committed = rows ∧
        arrived.shared.committed <+: rows ∧
          rows <+: finished.shared.committed := by
  rcases List.getElem?_of_mem read with ⟨index, here⟩
  rcases
      committed_of_read immediate reached asked only path stays visited
        befores here with
    ⟨inside, seen⟩
  have grows {earlier later : Nat} (ordered : earlier ≤ later) :
      (stateAt steps finished earlier).shared.committed <+:
        (stateAt steps finished later).shared.committed :=
    @Path.grows_stateAt _ _ _
      (fun world world' => world.shared.committed <+: world'.shared.committed)
      (fun _ => List.prefix_rfl) (fun _ _ _ => List.IsPrefix.trans)
      committed_grows_of_step arrived finished steps path earlier later ordered
  have first := grows (Nat.zero_le (answeredAt client steps index))
  have last := grows inside.le
  rw [path.stateAt_zero, seen] at first
  rw [stateAt_eq_last (Nat.le_refl _), seen] at last
  exact ⟨_, stateAt_mem_states _ _ _, seen, first, last⟩

end Trackward.Lib.Readers
