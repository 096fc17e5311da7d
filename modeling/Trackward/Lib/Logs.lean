import Trackward.Lib.Progress
import Trackward.Lib.Sessions
import Mathlib.Data.List.Induction

/-!
# Logs of interleaved runs

The log of a run lists who arrived with which request, which calls were
answered how, and who departed, in order.  The part of a log that belongs to a
session is what its program was answered so far; so what a session may still
do is read off its handler alone.

What the handlers do to each other is then a matter of the order of entries.
-/

namespace Trackward.Lib.Logs

open Trackward.Lib.Programs
open Trackward.Lib.Runs
open Trackward.Lib.Sessions

variable {Client Request Choice Shared : Type}
variable {interface : Interface} {ε α : Type}

/-- Something that happens in a run. -/
inductive Entry (interface : Interface) (Client Request Choice : Type) where
  | arrived (client : Client) (request : Request)
  | called (client : Client) (choice : Choice)
      (event : Program.Event interface)
  | departed (client : Client)

variable [DecidableEq Client]

/-- A run with its log, and the world it reaches. -/
inductive Logged (host : Host interface Client Choice Shared)
    (serve : Request → Program interface ε α) (initial : Shared → Prop) :
    List (Entry interface Client Request Choice) →
      World interface Client Request Shared ε α → Prop where
  | start {world : World interface Client Request Shared ε α}
      (isInitial : (system host serve initial).initial world) :
      Logged host serve initial [] world
  | arrive {log : List (Entry interface Client Request Choice)}
      {world : World interface Client Request Shared ε α}
      (logged : Logged host serve initial log world)
      {client : Client} (request : Request)
      (absent : world.sessions client = none) :
      Logged host serve initial (log ++ [.arrived client request])
        { world with
          sessions :=
            Function.update world.sessions client
              (some ⟨request, 0, serve request⟩) }
  | call {log : List (Entry interface Client Request Choice)}
      {world : World interface Client Request Shared ε α}
      (logged : Logged host serve initial log world)
      {client : Client} {request : Request} {calls : Nat}
      {op : interface.Op} {next : interface.Answer op → Program interface ε α}
      (present :
        world.sessions client = some ⟨request, calls, .call op next⟩)
      {choice : Choice} {answer : interface.Answer op} {shared : Shared}
      (responded :
        host.respond client choice op world.shared = some (answer, shared)) :
      Logged host serve initial
        (log ++ [.called client choice ⟨op, answer⟩])
        ⟨shared,
          Function.update world.sessions client
            (some ⟨request, calls + 1, next answer⟩)⟩
  | depart {log : List (Entry interface Client Request Choice)}
      {world : World interface Client Request Shared ε α}
      (logged : Logged host serve initial log world)
      {client : Client} {session : Session interface Request ε α}
      (present : world.sessions client = some session) :
      Logged host serve initial (log ++ [.departed client])
        ⟨host.depart client world.shared,
          Function.update world.sessions client none⟩

variable {host : Host interface Client Choice Shared}
variable {serve : Request → Program interface ε α} {initial : Shared → Prop}

/-- A run with a log is a run. -/
theorem Logged.reachable
    {log : List (Entry interface Client Request Choice)}
    {world : World interface Client Request Shared ε α}
    (logged : Logged host serve initial log world) :
    Reachable (system host serve initial) unrestricted world := by
  induction logged with
  | start isInitial => exact .start isInitial
  | @arrive log world logged client request absent induction =>
      apply @Reachable.next _ _ _ _ _ _ (.arrive client request) induction
        trivial
      simp [system, World.step, absent]
  | @call log world logged client request calls op next present choice answer
      shared responded induction =>
      apply @Reachable.next _ _ _ _ _ _ (.answer client choice) induction
        trivial
      exact World.step_call serve present responded
  | @depart log world logged client session present induction =>
      apply @Reachable.next _ _ _ _ _ _ (.depart client) induction trivial
      simp [system, World.step, present]

/-- Every run has a log. -/
theorem exists_logged
    {world : World interface Client Request Shared ε α}
    (reached : Reachable (system host serve initial) unrestricted world) :
    ∃ log : List (Entry interface Client Request Choice),
      Logged host serve initial log world := by
  induction reached with
  | start isInitial => exact ⟨[], .start isInitial⟩
  | next _ _ moved induction =>
      rcases induction with ⟨log, logged⟩
      rcases World.step_cases moved with arrival | answered | departure
      · rcases arrival with ⟨client, request, rfl, absent, rfl⟩
        exact ⟨_, .arrive logged request absent⟩
      · rcases answered with
          ⟨client, choice, request, calls, op, next, answer, shared', rfl,
            present, responded, rfl⟩
        exact ⟨_, .call logged present responded⟩
      · rcases departure with ⟨client, session, rfl, present, rfl⟩
        exact ⟨_, .depart logged present⟩

/-! ## Parts of a log -/

/-- A run without its last entry. -/
theorem Logged.butLast
    {log : List (Entry interface Client Request Choice)}
    {entry : Entry interface Client Request Choice}
    {world : World interface Client Request Shared ε α}
    (logged : Logged host serve initial (log ++ [entry]) world) :
    ∃ before, Logged host serve initial log before := by
  generalize whole : log ++ [entry] = full at logged
  cases logged with
  | start isInitial => simp at whole
  | arrive logged request absent =>
      rw [(List.append_inj' whole rfl).1]
      exact ⟨_, logged⟩
  | call logged present responded =>
      rw [(List.append_inj' whole rfl).1]
      exact ⟨_, logged⟩
  | depart logged present =>
      rw [(List.append_inj' whole rfl).1]
      exact ⟨_, logged⟩

/-- The run up to some point of its log. -/
theorem Logged.upTo
    {earlier later : List (Entry interface Client Request Choice)}
    {world : World interface Client Request Shared ε α}
    (logged : Logged host serve initial (earlier ++ later) world) :
    ∃ middle, Logged host serve initial earlier middle := by
  induction later using List.reverseRecOn generalizing world with
  | nil =>
      rw [List.append_nil] at logged
      exact ⟨world, logged⟩
  | append_singleton later entry induction =>
      rw [← List.append_assoc] at logged
      rcases logged.butLast with ⟨before, shorter⟩
      exact induction shorter

/-- Where the last entry is an answered call, a session was waiting for it. -/
theorem Logged.call_cases
    {log : List (Entry interface Client Request Choice)}
    {client : Client} {choice : Choice} {event : Program.Event interface}
    {world : World interface Client Request Shared ε α}
    (logged :
      Logged host serve initial (log ++ [.called client choice event])
        world) :
    ∃ before request calls next,
      Logged host serve initial log before ∧
        before.sessions client =
            some ⟨request, calls, .call event.op next⟩ ∧
          host.respond client choice event.op before.shared =
              some (event.answer, world.shared) ∧
            world.sessions =
              Function.update before.sessions client
                (some ⟨request, calls + 1, next event.answer⟩) := by
  generalize whole : log ++ [.called client choice event] = full at logged
  cases logged with
  | start isInitial => simp at whole
  | arrive logged request absent =>
      cases (List.append_inj' whole rfl).2
  | call logged present responded =>
      rcases List.append_inj' whole rfl with ⟨rfl, last⟩
      cases last
      exact ⟨_, _, _, _, logged, present, responded, rfl⟩
  | depart logged present =>
      cases (List.append_inj' whole rfl).2

/-- The world in which a call of the log was answered. -/
theorem Logged.called
    {earlier later : List (Entry interface Client Request Choice)}
    {client : Client} {choice : Choice} {event : Program.Event interface}
    {world : World interface Client Request Shared ε α}
    (logged :
      Logged host serve initial
        (earlier ++ .called client choice event :: later) world) :
    ∃ before request calls next shared,
      Logged host serve initial earlier before ∧
        before.sessions client =
            some ⟨request, calls, .call event.op next⟩ ∧
          host.respond client choice event.op before.shared =
            some (event.answer, shared) := by
  rw [List.append_cons] at logged
  rcases logged.upTo with ⟨middle, shorter⟩
  rcases shorter.call_cases with
    ⟨before, request, calls, next, logged, present, responded, _⟩
  exact ⟨before, request, calls, next, _, logged, present, responded⟩

/-- No answer and no departure makes the fact untrue. -/
structure Stable (host : Host interface Client Choice Shared)
    (fact : Shared → Prop) : Prop where
  respond :
    ∀ {client choice op before answer after},
      host.respond client choice op before = some (answer, after) →
        fact before → fact after
  depart : ∀ client shared, fact shared → fact (host.depart client shared)

/-- The run up to some point, and what stays true from there. -/
theorem Logged.upTo_stable
    {earlier later : List (Entry interface Client Request Choice)}
    {world : World interface Client Request Shared ε α}
    (logged : Logged host serve initial (earlier ++ later) world) :
    ∃ middle,
      Logged host serve initial earlier middle ∧
        ∀ fact, Stable host fact → fact middle.shared → fact world.shared := by
  induction later using List.reverseRecOn generalizing world with
  | nil =>
      rw [List.append_nil] at logged
      exact ⟨world, logged, fun _ _ here => here⟩
  | append_singleton later entry induction =>
      rw [← List.append_assoc] at logged
      generalize whole : earlier ++ later ++ [entry] = full at logged
      cases logged with
      | start isInitial => simp at whole
      | arrive logged request absent =>
          rw [← (List.append_inj' whole rfl).1] at logged
          rcases induction logged with ⟨middle, shorter, stays⟩
          exact ⟨middle, shorter, stays⟩
      | call logged present responded =>
          rw [← (List.append_inj' whole rfl).1] at logged
          rcases induction logged with ⟨middle, shorter, stays⟩
          exact
            ⟨middle, shorter, fun fact stable here =>
              stable.respond responded (stays fact stable here)⟩
      | depart logged present =>
          rw [← (List.append_inj' whole rfl).1] at logged
          rcases induction logged with ⟨middle, shorter, stays⟩
          exact
            ⟨middle, shorter, fun fact stable here =>
              stable.depart _ _ (stays fact stable here)⟩

/-- The world in which a call was answered, and what stays true from there. -/
theorem Logged.called_stable
    {earlier later : List (Entry interface Client Request Choice)}
    {client : Client} {choice : Choice} {event : Program.Event interface}
    {world : World interface Client Request Shared ε α}
    (logged :
      Logged host serve initial
        (earlier ++ .called client choice event :: later) world) :
    ∃ before request calls next shared,
      Logged host serve initial earlier before ∧
        before.sessions client =
            some ⟨request, calls, .call event.op next⟩ ∧
          host.respond client choice event.op before.shared =
              some (event.answer, shared) ∧
            ∀ fact, Stable host fact → fact shared → fact world.shared := by
  rw [List.append_cons] at logged
  rcases logged.upTo_stable with ⟨middle, shorter, stays⟩
  rcases shorter.call_cases with
    ⟨before, request, calls, next, logged, present, responded, _⟩
  exact
    ⟨before, request, calls, next, middle.shared, logged, present, responded,
      stays⟩

/-! ## The part of a session -/

/-- What a session was answered, and an entry after that. -/
def keep (client : Client) (events : List (Program.Event interface)) :
    Entry interface Client Request Choice → List (Program.Event interface)
  | .arrived newcomer _ => if newcomer = client then [] else events
  | .called caller _ event =>
      if caller = client then events ++ [event] else events
  | .departed _ => events

/-- What a client was answered since it arrived last. -/
def own (client : Client)
    (log : List (Entry interface Client Request Choice)) :
    List (Program.Event interface) :=
  log.foldl (keep client) []

theorem own_concat (client : Client)
    (log : List (Entry interface Client Request Choice))
    (entry : Entry interface Client Request Choice) :
    own client (log ++ [entry]) = keep client (own client log) entry := by
  rw [own, own, List.foldl_append]
  rfl

/-- What a session was answered is in the log. -/
theorem exists_called_of_mem_own {client : Client}
    {log : List (Entry interface Client Request Choice)}
    {event : Program.Event interface} (member : event ∈ own client log) :
    ∃ choice, .called client choice event ∈ log := by
  induction log using List.reverseRecOn with
  | nil => cases member
  | append_singleton log entry induction =>
      have further (inside : event ∈ own client log) :
          ∃ choice, Entry.called client choice event ∈ log ++ [entry] := by
        rcases induction inside with ⟨choice, earlier⟩
        exact ⟨choice, List.mem_append_left _ earlier⟩
      rw [own_concat] at member
      cases entry with
      | arrived newcomer request =>
          rw [keep] at member
          split at member
          · cases member
          · exact further member
      | called caller choice last =>
          rw [keep] at member
          split at member
          · rename_i same
            subst same
            rcases List.mem_append.mp member with inside | new
            · exact further inside
            · rw [List.mem_singleton.mp new]
              exact ⟨choice, by simp⟩
          · exact further member
      | departed leaver => exact further member

/-- Where in the log a session was answered; it has not arrived since. -/
theorem exists_split_of_own {client : Client}
    {log : List (Entry interface Client Request Choice)}
    {before after : List (Program.Event interface)}
    {event : Program.Event interface}
    (split : own client log = before ++ event :: after) :
    ∃ earlier choice later,
      log = earlier ++ .called client choice event :: later ∧
        own client earlier = before ∧
          ∀ request, .arrived client request ∉ later := by
  induction log using List.reverseRecOn generalizing after with
  | nil =>
      have absurdity : [] = before ++ event :: after := split
      simp at absurdity
  | append_singleton log entry induction =>
      have further {rest : List (Program.Event interface)}
          (inside : own client log = before ++ event :: rest)
          (different : ∀ request, entry ≠ .arrived client request) :
          ∃ earlier choice later,
            log ++ [entry] =
                earlier ++ .called client choice event :: later ∧
              own client earlier = before ∧
                ∀ request, .arrived client request ∉ later := by
        rcases induction inside with
          ⟨earlier, choice, later, rfl, here, absent⟩
        refine
          ⟨earlier, choice, later ++ [entry], by simp, here,
            fun request member => ?_⟩
        rcases List.mem_append.mp member with inside | last
        · exact absent request inside
        · exact different request (List.mem_singleton.mp last).symm
      rw [own_concat] at split
      cases entry with
      | arrived newcomer request =>
          rw [keep] at split
          split at split
          · simp at split
          · rename_i other
            refine further split fun request same => ?_
            cases same
            exact other rfl
      | called caller choice last =>
          rw [keep] at split
          split at split
          · rename_i same
            subst same
            rcases List.eq_nil_or_concat after with rfl | ⟨rest, final, rfl⟩
            · rcases List.append_inj' split rfl with ⟨here, there⟩
              cases there
              exact ⟨log, choice, [], rfl, here, by simp⟩
            · rw [List.concat_eq_append, ← List.cons_append,
                ← List.append_assoc] at split
              refine further (List.append_inj' split rfl).1 fun request same => ?_
              cases same
          · refine further split fun request same => ?_
            cases same
      | departed leaver =>
          refine further split fun request same => ?_
          cases same

/-- What a session was answered first stays first until it arrives again. -/
theorem own_eq_cons {client : Client}
    {before between : List (Entry interface Client Request Choice)}
    {choice : Choice} {event : Program.Event interface}
    (first : own client before = [])
    (absent : ∀ request, .arrived client request ∉ between) :
    ∃ rest,
      own client (before ++ .called client choice event :: between) =
        event :: rest := by
  induction between using List.reverseRecOn with
  | nil =>
      refine ⟨[], ?_⟩
      rw [own_concat, keep, if_pos rfl, first]
      rfl
  | append_singleton between entry induction =>
      have stays (request : Request) :
          .arrived client request ∉ between ∧
            entry ≠ .arrived client request :=
        ⟨fun inside => absent request (List.mem_append_left _ inside),
          fun same => absent request (by simp [same])⟩
      rcases induction fun request => (stays request).1 with ⟨rest, same⟩
      rw [← List.cons_append, ← List.append_assoc, own_concat, same]
      cases entry with
      | arrived newcomer request =>
          have other : newcomer ≠ client := by
            rintro rfl
            exact (stays request).2 rfl
          rw [keep, if_neg other]
          exact ⟨rest, rfl⟩
      | called caller choice' event' =>
          rw [keep]
          split
          · exact ⟨rest ++ [event'], rfl⟩
          · exact ⟨rest, rfl⟩
      | departed leaver => exact ⟨rest, rfl⟩

/-- What is left of a session's handler after its part of the log. -/
theorem Logged.leaves
    {log : List (Entry interface Client Request Choice)}
    {world : World interface Client Request Shared ε α}
    (logged : Logged host serve initial log world) {client : Client}
    {session : Session interface Request ε α}
    (present : world.sessions client = some session) :
    (serve session.request).Leaves (own client log) session.program := by
  induction logged generalizing session with
  | start isInitial =>
      rw [isInitial.2 client] at present
      cases present
  | @arrive log world logged newcomer request absent induction =>
      rw [own_concat, keep]
      by_cases same : newcomer = client
      · subst same
        simp only [Function.update_self, Option.some.injEq] at present
        subst present
        rw [if_pos rfl]
        exact .stop _
      · rw [if_neg same]
        simp only [Function.update_of_ne (Ne.symm same)] at present
        exact induction present
  | @call log world logged caller request calls op next here choice answer
      shared responded induction =>
      rw [own_concat, keep]
      by_cases same : caller = client
      · subst same
        simp only [Function.update_self, Option.some.injEq] at present
        subst present
        rw [if_pos rfl]
        exact (induction here).concat answer
      · rw [if_neg same]
        simp only [Function.update_of_ne (Ne.symm same)] at present
        exact induction present
  | @depart log world logged leaver leaving here induction =>
      rw [own_concat, keep]
      by_cases same : client = leaver
      · subst same
        simp at present
      · simp only [Function.update_of_ne same] at present
        exact induction present

/-- A call in a log suits what its session was answered before. -/
theorem Logged.tracked
    {each : List (Program.Event interface) → interface.Op → Prop}
    {ends : List (Program.Event interface) → Except ε α → Prop}
    (tracks : ∀ request, (serve request).Tracks each ends [])
    {earlier later : List (Entry interface Client Request Choice)}
    {client : Client} {choice : Choice} {event : Program.Event interface}
    {world : World interface Client Request Shared ε α}
    (logged :
      Logged host serve initial
        (earlier ++ .called client choice event :: later) world) :
    each (own client earlier) event.op := by
  rcases logged.called with
    ⟨before, request, calls, next, shared, shorter, present, _⟩
  exact ((shorter.leaves present).tracks (tracks request)).1

/-- How a session's handler has ended suits what it was answered. -/
theorem Logged.ended
    {each : Request → List (Program.Event interface) → interface.Op → Prop}
    {ends :
      Request → List (Program.Event interface) → Except ε α → Prop}
    (tracks :
      ∀ request, (serve request).Tracks (each request) (ends request) [])
    {log : List (Entry interface Client Request Choice)}
    {world : World interface Client Request Shared ε α}
    (logged : Logged host serve initial log world) {client : Client}
    {session : Session interface Request ε α} {outcome : Except ε α}
    (present : world.sessions client = some session)
    (returned : session.program.ended = some outcome) :
    ends session.request (own client log) outcome :=
  ((logged.leaves present).tracks (tracks session.request)).ended returned

/-! ## Playing schedules -/

/-- One move of the world, with its entry in the log. -/
def step (host : Host interface Client Choice Shared)
    (serve : Request → Program interface ε α)
    (world : World interface Client Request Shared ε α) :
    Move Client Request Choice →
      Option
        (Entry interface Client Request Choice ×
          World interface Client Request Shared ε α)
  | .arrive client request =>
      match world.sessions client with
      | some _ => none
      | none =>
          some
            (.arrived client request,
              { world with
                sessions :=
                  Function.update world.sessions client
                    (some ⟨request, 0, serve request⟩) })
  | .answer client choice =>
      match world.sessions client with
      | some ⟨request, calls, .call op next⟩ =>
          match host.respond client choice op world.shared with
          | some (answer, shared) =>
              some
                (.called client choice ⟨op, answer⟩,
                  ⟨shared,
                    Function.update world.sessions client
                      (some ⟨request, calls + 1, next answer⟩)⟩)
          | none => none
      | _ => none
  | .depart client =>
      match world.sessions client with
      | some _ =>
          some
            (.departed client,
              ⟨host.depart client world.shared,
                Function.update world.sessions client none⟩)
      | none => none

theorem Logged.step
    {log : List (Entry interface Client Request Choice)}
    {world target : World interface Client Request Shared ε α}
    (logged : Logged host serve initial log world)
    {move : Move Client Request Choice}
    {entry : Entry interface Client Request Choice}
    (moved : Logs.step host serve world move = some (entry, target)) :
    Logged host serve initial (log ++ [entry]) target := by
  unfold Logs.step at moved
  split at moved
  · split at moved
    · cases moved
    · rename_i absent
      cases moved
      exact .arrive logged _ absent
  · split at moved
    · rename_i present
      split at moved
      · rename_i responded
        cases moved
        exact .call logged present responded
      · cases moved
    · cases moved
  · split at moved
    · rename_i present
      cases moved
      exact .depart logged present
    · cases moved

/-- Play a schedule and keep the log. -/
def play (host : Host interface Client Choice Shared)
    (serve : Request → Program interface ε α) :
    List (Entry interface Client Request Choice) →
      World interface Client Request Shared ε α →
        List (Move Client Request Choice) →
          Option
            (List (Entry interface Client Request Choice) ×
              World interface Client Request Shared ε α)
  | log, world, [] => some (log, world)
  | log, world, move :: moves =>
      match Logs.step host serve world move with
      | none => none
      | some (entry, target) =>
          play host serve (log ++ [entry]) target moves

theorem Logged.play
    {log log' : List (Entry interface Client Request Choice)}
    {world world' : World interface Client Request Shared ε α}
    (logged : Logged host serve initial log world)
    {moves : List (Move Client Request Choice)}
    (played : Logs.play host serve log world moves = some (log', world')) :
    Logged host serve initial log' world' := by
  induction moves generalizing log world with
  | nil =>
      cases played
      exact logged
  | cons move moves induction =>
      rw [Logs.play] at played
      split at played
      · cases played
      · rename_i moved
        exact induction (logged.step moved) played

/-- A schedule that plays through and passes a check is such a run. -/
theorem exists_logged_of_play
    {world : World interface Client Request Shared ε α}
    (isInitial : (system host serve initial).initial world)
    (moves : List (Move Client Request Choice))
    (check :
      List (Entry interface Client Request Choice) →
        World interface Client Request Shared ε α → Bool)
    (played :
      (Logs.play host serve [] world moves).any
          (fun run => check run.1 run.2) =
        true) :
    ∃ log last, Logged host serve initial log last ∧ check log last = true := by
  cases result : Logs.play host serve [] world moves with
  | none =>
      rw [result] at played
      cases played
  | some run =>
      rw [result, Option.any_some] at played
      exact ⟨run.1, run.2, (Logged.start isInitial).play result, played⟩

end Trackward.Lib.Logs
