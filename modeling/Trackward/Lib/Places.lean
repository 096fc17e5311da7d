import Trackward.Lib.Logs

/-!
# Places in a log

A place of a log is the number of entries before it.  What a session was
answered before a place is at earlier places, and its client has not departed
since; a call that was answered at a place is among the answers of the session
for as long as its client does not depart.
-/

namespace Trackward.Lib.Logs

open Trackward.Lib.Programs
open Trackward.Lib.Sessions

variable {Client Request Choice Shared : Type}
variable {interface : Interface} {ε α : Type}
variable {host : Host interface Client Choice Shared}
variable {serve : Request → Program interface ε α} {initial : Shared → Prop}
variable {log : List (Entry interface Client Request Choice)}
variable {world : World interface Client Request Shared ε α}

/-- A client does not depart between two places. -/
def Remains (client : Client)
    (log : List (Entry interface Client Request Choice))
    (first last : Nat) : Prop :=
  ∀ place, first < place → place < last →
    log[place]? ≠ some (.departed client)

theorem split_at {place : Nat}
    {entry : Entry interface Client Request Choice}
    (here : log[place]? = some entry) :
    log = log.take place ++ entry :: log.drop (place + 1) := by
  rcases List.getElem?_eq_some_iff.mp here with ⟨small, rfl⟩
  rw [← List.drop_eq_getElem_cons, List.take_append_drop]

theorem lt_length_of_at {place : Nat}
    {entry : Entry interface Client Request Choice}
    (here : log[place]? = some entry) : place < log.length :=
  (List.getElem?_eq_some_iff.mp here).1

theorem at_take {place last : Nat}
    {entry : Entry interface Client Request Choice}
    (before : place < last) (here : log[place]? = some entry) :
    (log.take last)[place]? = some entry := by
  rw [List.getElem?_take_of_lt before]
  exact here

theorem at_of_take {place last : Nat}
    {entry : Entry interface Client Request Choice}
    (here : (log.take last)[place]? = some entry) :
    place < last ∧ log[place]? = some entry := by
  rw [List.getElem?_take] at here
  split at here
  · rename_i before
    exact ⟨before, here⟩
  · cases here

/-- At a place one call is answered. -/
theorem called_inj {place : Nat} {client client' : Client}
    {choice choice' : Choice} {event event' : Program.Event interface}
    (here : log[place]? = some (.called client choice event))
    (there : log[place]? = some (.called client' choice' event')) :
    client = client' ∧ choice = choice' ∧ event = event' := by
  rw [here, Option.some.injEq, Entry.called.injEq] at there
  exact there

section Concat

variable {entry found : Entry interface Client Request Choice} {place : Nat}

theorem at_concat (here : log[place]? = some found) :
    (log ++ [entry])[place]? = some found := by
  rw [List.getElem?_append_left (lt_length_of_at here)]
  exact here

/-- An entry of a longer log is an entry of the log or the new one. -/
theorem at_concat_cases (here : (log ++ [entry])[place]? = some found) :
    log[place]? = some found ∨ place = log.length ∧ entry = found := by
  rw [List.getElem?_append] at here
  split at here
  · exact Or.inl here
  · rw [List.getElem?_singleton] at here
    split at here
    · cases here
      exact Or.inr ⟨by omega, rfl⟩
    · cases here

end Concat

theorem arrived_ne_departed {client leaver : Client} {request : Request} :
    (.arrived client request : Entry interface Client Request Choice) ≠
      .departed leaver := by
  intro same
  cases same

theorem called_ne_departed {client leaver : Client} {choice : Choice}
    {event : Program.Event interface} :
    (.called client choice event : Entry interface Client Request Choice) ≠
      .departed leaver := by
  intro same
  cases same

/-- A client that has not departed stays if the next entry is no departure. -/
theorem Remains.concat {client : Client} {first : Nat}
    {entry : Entry interface Client Request Choice}
    (remains : Remains client log first log.length)
    (stays : entry ≠ .departed client) :
    Remains client (log ++ [entry]) first (log ++ [entry]).length := by
  intro place later _ departed
  rcases at_concat_cases departed with earlier | ⟨_, last⟩
  · exact remains place later (lt_length_of_at earlier) earlier
  · exact stays last

/-- Before a client departs first, it stays. -/
theorem remains_or_departs
    (log : List (Entry interface Client Request Choice)) (client : Client)
    (first last : Nat) :
    Remains client log first last ∨
      ∃ place, first < place ∧ place < last ∧
        log[place]? = some (.departed client) ∧
          Remains client log first place := by
  induction last with
  | zero =>
      refine Or.inl fun place _ within => ?_
      omega
  | succ last induction =>
      rcases induction with remains | ⟨place, later, within, departed, stays⟩
      · by_cases departs :
          first < last ∧ log[last]? = some (.departed client)
        · exact
            Or.inr
              ⟨last, departs.1, Nat.lt_succ_self last, departs.2, remains⟩
        · refine Or.inl fun place later within departed => ?_
          rcases Nat.lt_or_eq_of_le (Nat.le_of_lt_succ within) with less | rfl
          · exact remains place later less departed
          · exact departs ⟨later, departed⟩
      · exact
          Or.inr
            ⟨place, later, Nat.lt_succ_of_lt within, departed, stays⟩

/-- A call is no departure, so staying before and after it is staying. -/
theorem Remains.trans {client caller : Client} {choice : Choice}
    {event : Program.Event interface} {first middle last : Nat}
    (before : Remains client log first middle)
    (here : log[middle]? = some (.called caller choice event))
    (after : Remains client log middle last) :
    Remains client log first last := by
  intro place later earlier departed
  rcases Nat.lt_trichotomy place middle with less | rfl | more
  · exact before place later less departed
  · rw [here] at departed
    cases departed
  · exact after place more earlier departed

variable [DecidableEq Client]

/-- The world before a call that was answered at a place. -/
theorem Logged.at (logged : Logged host serve initial log world)
    {place : Nat} {client : Client} {choice : Choice}
    {event : Program.Event interface}
    (here : log[place]? = some (.called client choice event)) :
    ∃ before request calls next shared,
      Logged host serve initial (log.take place) before ∧
        before.sessions client =
            some ⟨request, calls, .call event.op next⟩ ∧
          host.respond client choice event.op before.shared =
            some (event.answer, shared) := by
  rw [split_at here] at logged
  exact logged.called

/-- A call at a place suits what its session was answered before. -/
theorem Logged.tracked_at
    {each : List (Program.Event interface) → interface.Op → Prop}
    {ends : List (Program.Event interface) → Except ε α → Prop}
    (tracks : ∀ request, (serve request).Tracks each ends [])
    (logged : Logged host serve initial log world) {place : Nat}
    {client : Client} {choice : Choice} {event : Program.Event interface}
    (here : log[place]? = some (.called client choice event)) :
    each (own client (log.take place)) event.op := by
  rw [split_at here] at logged
  exact logged.tracked tracks

/-- A call at a place, what its session was answered before, and no departure. -/
def AnsweredAt (client : Client)
    (log : List (Entry interface Client Request Choice))
    (before : List (Program.Event interface))
    (event : Program.Event interface) (place : Nat) : Prop :=
  (∃ choice, log[place]? = some (.called client choice event)) ∧
    own client (log.take place) = before ∧
      Remains client log place log.length

theorem AnsweredAt.concat {client : Client}
    {before : List (Program.Event interface)}
    {event : Program.Event interface} {place : Nat}
    {entry : Entry interface Client Request Choice}
    (answered : AnsweredAt client log before event place)
    (stays : entry ≠ .departed client) :
    AnsweredAt client (log ++ [entry]) before event place := by
  rcases answered with ⟨⟨choice, here⟩, earlier, remains⟩
  refine ⟨⟨choice, at_concat here⟩, ?_, remains.concat stays⟩
  rw [List.take_append_of_le_length (Nat.le_of_lt (lt_length_of_at here))]
  exact earlier

/-- What a session was answered is at places since its arrival. -/
theorem Logged.exists_answered
    (logged : Logged host serve initial log world) {client : Client}
    {session : Session interface Request ε α}
    (present : world.sessions client = some session)
    {before after : List (Program.Event interface)}
    {event : Program.Event interface}
    (split : own client log = before ++ event :: after) :
    ∃ place, AnsweredAt client log before event place := by
  induction logged generalizing session after with
  | start isInitial =>
      rw [isInitial.2 client] at present
      cases present
  | @arrive log world logged newcomer request absent induction =>
      rw [own_concat, keep] at split
      by_cases same : newcomer = client
      · rw [if_pos same] at split
        simp at split
      · rw [if_neg same] at split
        simp only [Function.update_of_ne (Ne.symm same)] at present
        rcases induction present split with ⟨place, answered⟩
        exact ⟨place, answered.concat arrived_ne_departed⟩
  | @call log world logged caller request calls op next here choice answer
      shared responded induction =>
      rw [own_concat, keep] at split
      by_cases same : caller = client
      · subst same
        rw [if_pos rfl] at split
        rcases List.eq_nil_or_concat after with rfl | ⟨rest, final, rfl⟩
        · rcases List.append_inj' split rfl with ⟨earlier, last⟩
          cases last
          refine ⟨log.length, ⟨choice, by simp⟩, by simpa using earlier, ?_⟩
          intro place later within _
          rw [List.length_append, List.length_singleton] at within
          omega
        · rw [List.concat_eq_append, ← List.cons_append,
            ← List.append_assoc] at split
          rcases induction here (List.append_inj' split rfl).1 with
            ⟨place, answered⟩
          exact ⟨place, answered.concat called_ne_departed⟩
      · rw [if_neg same] at split
        simp only [Function.update_of_ne (Ne.symm same)] at present
        rcases induction present split with ⟨place, answered⟩
        exact ⟨place, answered.concat called_ne_departed⟩
  | @depart log world logged leaver leaving here induction =>
      by_cases same : client = leaver
      · subst same
        simp at present
      · simp only [Function.update_of_ne same] at present
        rw [own_concat, keep] at split
        rcases induction present split with ⟨place, answered⟩
        refine ⟨place, answered.concat fun departure => ?_⟩
        cases departure
        exact same rfl

/-- What a session was answered before a place is at places before. -/
theorem Logged.exists_before {last : Nat}
    (logged : Logged host serve initial (log.take last) world)
    {client : Client} {session : Session interface Request ε α}
    (present : world.sessions client = some session)
    {before after : List (Program.Event interface)}
    {event : Program.Event interface}
    (split : own client (log.take last) = before ++ event :: after) :
    ∃ place < last,
      (∃ choice, log[place]? = some (.called client choice event)) ∧
        own client (log.take place) = before := by
  rcases logged.exists_answered present split with
    ⟨place, ⟨choice, inside⟩, earlier, _⟩
  rcases at_of_take inside with ⟨less, there⟩
  refine ⟨place, less, ⟨choice, there⟩, ?_⟩
  rw [List.take_take, Nat.min_eq_left (Nat.le_of_lt less)] at earlier
  exact earlier

/-- What a session was answered before a call of its own is at places before. -/
theorem Logged.exists_at (logged : Logged host serve initial log world)
    {client : Client} {choice : Choice} {last : Nat}
    {event found : Program.Event interface}
    (here : log[last]? = some (.called client choice event))
    {before after : List (Program.Event interface)}
    (split : own client (log.take last) = before ++ found :: after) :
    ∃ place < last,
      (∃ choice, log[place]? = some (.called client choice found)) ∧
        own client (log.take place) = before ∧
          Remains client log place last := by
  rcases logged.at here with
    ⟨middle, request, calls, next, shared, shorter, present, _⟩
  rcases shorter.exists_answered present split with
    ⟨place, ⟨choice', inside⟩, earlier, remains⟩
  rcases at_of_take inside with ⟨less, there⟩
  refine ⟨place, less, ⟨choice', there⟩, ?_, ?_⟩
  · rw [List.take_take, Nat.min_eq_left (Nat.le_of_lt less)] at earlier
    exact earlier
  · intro other later within departed
    have small := lt_length_of_at here
    refine remains other later ?_ (at_take within departed)
    rw [List.length_take]
    omega

/-- The entries after which a client is present. -/
def Enters (client : Client) :
    Entry interface Client Request Choice → Prop
  | .arrived newcomer _ => newcomer = client
  | .called caller _ _ => caller = client
  | .departed _ => False

omit [DecidableEq Client] in
/-- Staying in a longer log is staying, up to its last entry. -/
theorem Remains.butLast {client : Client} {place : Nat}
    {entry : Entry interface Client Request Choice}
    (remains : Remains client (log ++ [entry]) place (log ++ [entry]).length)
    (before : place < log.length) :
    Remains client log place log.length ∧ entry ≠ .departed client := by
  constructor
  · intro other later _ departed
    refine remains other later ?_ (at_concat departed)
    have small := lt_length_of_at departed
    rw [List.length_append]
    omega
  · rintro rfl
    exact remains log.length before (by simp) (by simp)

/-- A client that has entered is present until it departs. -/
theorem Logged.present_of_remains
    (logged : Logged host serve initial log world) {client : Client}
    {place : Nat} {entry : Entry interface Client Request Choice}
    (here : log[place]? = some entry) (enters : Enters client entry)
    (remains : Remains client log place log.length) :
    world.sessions client ≠ none := by
  induction logged with
  | start isInitial => cases here
  | @arrive log world logged newcomer request absent induction =>
      by_cases same : newcomer = client
      · subst same
        simp
      · rcases at_concat_cases here with inside | ⟨_, rfl⟩
        · have stays := remains.butLast (lt_length_of_at inside)
          simpa [Function.update_of_ne (Ne.symm same)] using
            induction inside stays.1
        · exact absurd enters same
  | @call log world logged caller request calls op next present choice answer
      shared responded induction =>
      by_cases same : caller = client
      · subst same
        simp
      · rcases at_concat_cases here with inside | ⟨_, rfl⟩
        · have stays := remains.butLast (lt_length_of_at inside)
          simpa [Function.update_of_ne (Ne.symm same)] using
            induction inside stays.1
        · exact absurd enters same
  | @depart log world logged leaver leaving present induction =>
      rcases at_concat_cases here with inside | ⟨_, rfl⟩
      · have stays := remains.butLast (lt_length_of_at inside)
        have other : leaver ≠ client := by
          rintro rfl
          exact stays.2 rfl
        simpa [Function.update_of_ne (Ne.symm other)] using
          induction inside stays.1
      · cases enters

/-- What a session was answered stays among its answers until it departs. -/
theorem Logged.own_of_stays
    (logged : Logged host serve initial log world) {client : Client}
    {choice : Choice} {place : Nat} {event : Program.Event interface}
    (here : log[place]? = some (.called client choice event))
    (remains : Remains client log place log.length) :
    ∃ after,
      own client log = own client (log.take place) ++ event :: after := by
  induction logged with
  | start isInitial => cases here
  | @arrive log world logged newcomer request absent induction =>
      rcases at_concat_cases here with inside | ⟨_, last⟩
      · have small := lt_length_of_at inside
        have stays := remains.butLast small
        have other : newcomer ≠ client := by
          rintro rfl
          exact logged.present_of_remains inside rfl stays.1 absent
        rw [own_concat, keep, if_neg other,
          List.take_append_of_le_length (Nat.le_of_lt small)]
        exact induction inside stays.1
      · cases last
  | @call log world logged caller request calls op next present choice' answer
      shared responded induction =>
      rcases at_concat_cases here with inside | ⟨rfl, last⟩
      · have small := lt_length_of_at inside
        have stays := remains.butLast small
        rcases induction inside stays.1 with ⟨after, split⟩
        rw [own_concat, keep,
          List.take_append_of_le_length (Nat.le_of_lt small), split]
        split
        · exact ⟨after ++ [⟨op, answer⟩], by simp⟩
        · exact ⟨after, rfl⟩
      · cases last
        rw [own_concat, keep, if_pos rfl]
        exact ⟨[], by simp⟩
  | @depart log world logged leaver leaving present induction =>
      rcases at_concat_cases here with inside | ⟨_, last⟩
      · have small := lt_length_of_at inside
        have stays := remains.butLast small
        rw [own_concat, keep,
          List.take_append_of_le_length (Nat.le_of_lt small)]
        exact induction inside stays.1
      · cases last

/-- The run up to a place. -/
theorem Logged.take (logged : Logged host serve initial log world)
    (place : Nat) :
    ∃ middle, Logged host serve initial (log.take place) middle := by
  have whole :
      Logged host serve initial (log.take place ++ log.drop place) world := by
    rw [List.take_append_drop]
    exact logged
  exact whole.upTo

omit [DecidableEq Client] in
/-- Staying up to a place is staying in the log up to it. -/
theorem Remains.take {client : Client} {first last : Nat}
    (remains : Remains client log first last) :
    Remains client (log.take last) first (log.take last).length := by
  intro place later _ departed
  rcases at_of_take departed with ⟨less, inside⟩
  exact remains place later less inside

/-- Of two calls without a departure between them one session was answered. -/
theorem Logged.own_of_remains
    (logged : Logged host serve initial log world) {client : Client}
    {choice : Choice} {first last : Nat} {event : Program.Event interface}
    (here : log[first]? = some (.called client choice event))
    (before : first < last) (remains : Remains client log first last) :
    ∃ after,
      own client (log.take last) =
        own client (log.take first) ++ event :: after := by
  rcases logged.take last with ⟨middle, shorter⟩
  have split := shorter.own_of_stays (at_take before here) remains.take
  rw [List.take_take, Nat.min_eq_left (Nat.le_of_lt before)] at split
  exact split

/-- Before a call of a session it was answered no more than after it. -/
theorem Logged.place_lt_of_own
    (logged : Logged host serve initial log world) {client : Client}
    {choice : Choice} {origin first second : Nat}
    {event : Program.Event interface}
    (there : log[second]? = some (.called client choice event))
    (before : origin < second) (remains : Remains client log origin first)
    (shorter :
      (own client (log.take first)).length <
        (own client (log.take second)).length) : first < second := by
  rcases Nat.lt_trichotomy first second with less | rfl | more
  · exact less
  · exact absurd shorter (Nat.lt_irrefl _)
  · have since : Remains client log second first :=
      fun place later => remains place (Nat.lt_trans before later)
    rcases logged.own_of_remains there more since with ⟨after, split⟩
    rw [split, List.length_append] at shorter
    omega

/-- Calls of one session that was answered as much before are one. -/
theorem Logged.place_eq_of_own
    (logged : Logged host serve initial log world) {client : Client}
    {choice choice' : Choice} {origin first second : Nat}
    {event event' : Program.Event interface}
    (here : log[first]? = some (.called client choice event))
    (there : log[second]? = some (.called client choice' event'))
    (before : origin < first) (before' : origin < second)
    (remains : Remains client log origin first)
    (remains' : Remains client log origin second)
    (same :
      (own client (log.take first)).length =
        (own client (log.take second)).length) : first = second := by
  have notBefore {first second : Nat} {choice : Choice}
      {event : Program.Event interface}
      (here : log[first]? = some (.called client choice event))
      (before : origin < first) (remains : Remains client log origin second)
      (same :
        (own client (log.take first)).length =
          (own client (log.take second)).length) : ¬ first < second := by
    intro less
    rcases logged.own_of_remains here less
        (fun place later => remains place (Nat.lt_trans before later)) with
      ⟨after, split⟩
    rw [split, List.length_append, List.length_cons] at same
    omega
  have less := notBefore here before remains' same
  have more := notBefore there before' remains same.symm
  omega

omit [DecidableEq Client] in
/-- If two entries count, the log has what they count for, in order. -/
theorem filterMap_eq_pair {β : Type}
    {count : Entry interface Client Request Choice → Option β}
    {first second : Nat}
    {entry entry' : Entry interface Client Request Choice} {one other : β}
    (here : log[first]? = some entry) (there : log[second]? = some entry')
    (counts : count entry = some one) (counts' : count entry' = some other)
    (before : first < second)
    (only :
      ∀ (place : Nat) (found : Entry interface Client Request Choice),
        log[place]? = some found → place ≠ first → place ≠ second →
          count found = none) :
    log.filterMap count = [one, other] := by
  have early : (log.take first).filterMap count = [] := by
    rw [List.filterMap_eq_nil_iff]
    intro found member
    rcases List.mem_iff_getElem?.mp member with ⟨place, inside⟩
    rcases at_of_take inside with ⟨less, found'⟩
    exact only place found found' (by omega) (by omega)
  have between :
      ((log.take second).drop (first + 1)).filterMap count = [] := by
    rw [List.filterMap_eq_nil_iff]
    intro found member
    rcases List.mem_iff_getElem?.mp member with ⟨place, inside⟩
    rw [List.getElem?_drop] at inside
    rcases at_of_take inside with ⟨less, found'⟩
    exact only _ found found' (by omega) (by omega)
  have late : (log.drop (second + 1)).filterMap count = [] := by
    rw [List.filterMap_eq_nil_iff]
    intro found member
    rcases List.mem_iff_getElem?.mp member with ⟨place, inside⟩
    rw [List.getElem?_drop] at inside
    exact only _ found inside (by omega) (by omega)
  have shorter := split_at (at_take before here)
  rw [List.take_take, Nat.min_eq_left (Nat.le_of_lt before)] at shorter
  rw [split_at there, List.filterMap_append, List.filterMap_cons_some counts',
    late, shorter, List.filterMap_append, early,
    List.filterMap_cons_some counts, between]
  rfl

/-- The world after a call that was answered at a place. -/
theorem Logged.after_at (logged : Logged host serve initial log world)
    {place : Nat} {client : Client} {choice : Choice}
    {event : Program.Event interface}
    (here : log[place]? = some (.called client choice event)) :
    ∃ after session,
      Logged host serve initial (log.take (place + 1)) after ∧
        after.sessions client = some session ∧
          own client (log.take (place + 1)) =
            own client (log.take place) ++ [event] := by
  have small := lt_length_of_at here
  have longer :
      log.take (place + 1) =
        log.take place ++ [.called client choice event] := by
    rw [List.take_add_one, here]
    rfl
  rcases logged.take (place + 1) with ⟨after, shorter⟩
  have last :
      (log.take (place + 1))[place]? =
        some (.called client choice event) :=
    at_take (Nat.lt_succ_self place) here
  have present : after.sessions client ≠ none := by
    refine shorter.present_of_remains last rfl fun other later within => ?_
    rw [List.length_take] at within
    omega
  rcases Option.ne_none_iff_exists'.mp present with ⟨session, there⟩
  refine ⟨after, session, shorter, there, ?_⟩
  rw [longer, own_concat, keep, if_pos rfl]

/-! ## Arrivals -/

/-- Who arrives at a place was absent before. -/
theorem Logged.arrived_at (logged : Logged host serve initial log world)
    {place : Nat} {client : Client} {request : Request}
    (here : log[place]? = some (.arrived client request)) :
    ∃ before,
      Logged host serve initial (log.take place) before ∧
        before.sessions client = none := by
  rw [split_at here, List.append_cons] at logged
  rcases logged.upTo with ⟨middle, shorter⟩
  generalize whole : log.take place ++ [.arrived client request] = full
    at shorter
  cases shorter with
  | start isInitial => simp at whole
  | arrive earlier newcomer absent =>
      rcases List.append_inj' whole rfl with ⟨same, last⟩
      cases last
      rw [same]
      exact ⟨_, earlier, absent⟩
  | call earlier present responded =>
      cases (List.append_inj' whole rfl).2
  | depart earlier present =>
      cases (List.append_inj' whole rfl).2

/-- Whoever is present has arrived with its request and not departed since. -/
theorem Logged.exists_arrival (logged : Logged host serve initial log world)
    {client : Client} {session : Session interface Request ε α}
    (present : world.sessions client = some session) :
    ∃ place,
      log[place]? = some (.arrived client session.request) ∧
        Remains client log place log.length := by
  induction logged generalizing session with
  | start isInitial =>
      rw [isInitial.2 client] at present
      cases present
  | @arrive log world logged newcomer request absent induction =>
      by_cases same : newcomer = client
      · subst same
        simp only [Function.update_self, Option.some.injEq] at present
        subst present
        refine ⟨log.length, by simp, fun place later within _ => ?_⟩
        rw [List.length_append, List.length_singleton] at within
        omega
      · simp only [Function.update_of_ne (Ne.symm same)] at present
        rcases induction present with ⟨place, here, remains⟩
        exact ⟨place, at_concat here, remains.concat arrived_ne_departed⟩
  | @call log world logged caller request calls op next there choice answer
      shared responded induction =>
      by_cases same : caller = client
      · subst same
        simp only [Function.update_self, Option.some.injEq] at present
        subst present
        rcases induction there with ⟨place, here, remains⟩
        exact ⟨place, at_concat here, remains.concat called_ne_departed⟩
      · simp only [Function.update_of_ne (Ne.symm same)] at present
        rcases induction present with ⟨place, here, remains⟩
        exact ⟨place, at_concat here, remains.concat called_ne_departed⟩
  | @depart log world logged leaver leaving there induction =>
      by_cases same : client = leaver
      · subst same
        simp at present
      · simp only [Function.update_of_ne same] at present
        rcases induction present with ⟨place, here, remains⟩
        refine ⟨place, at_concat here, remains.concat fun departure => ?_⟩
        cases departure
        exact same rfl

/-- A session has arrived once. -/
theorem Logged.arrival_eq (logged : Logged host serve initial log world)
    {client : Client} {request request' : Request} {first second last : Nat}
    (here : log[first]? = some (.arrived client request))
    (there : log[second]? = some (.arrived client request'))
    (before : first < last) (before' : second < last)
    (remains : Remains client log first last)
    (remains' : Remains client log second last) : first = second := by
  have notBefore {first second : Nat} {request request' : Request}
      (here : log[first]? = some (.arrived client request))
      (there : log[second]? = some (.arrived client request'))
      (before : second < last) (remains : Remains client log first last) :
      ¬ first < second := by
    intro less
    rcases logged.arrived_at there with ⟨middle, shorter, absent⟩
    refine shorter.present_of_remains (at_take less here) rfl ?_ absent
    intro other later within departed
    rcases at_of_take departed with ⟨small, inside⟩
    exact remains other later (Nat.lt_trans small before) inside
  have less := notBefore here there before' remains
  have more := notBefore there here before remains'
  omega

/-- What a session was answered, it was answered after its arrival. -/
theorem Logged.arrival_lt (logged : Logged host serve initial log world)
    {client : Client} {request : Request} {arrival place : Nat}
    {choice : Choice} {event : Program.Event interface}
    (arrived : log[arrival]? = some (.arrived client request))
    (here : log[place]? = some (.called client choice event))
    (remains : Remains client log place log.length) : arrival < place := by
  rcases Nat.lt_trichotomy arrival place with less | rfl | more
  · exact less
  · rw [arrived] at here
    cases here
  · rcases logged.arrived_at arrived with ⟨middle, shorter, absent⟩
    refine absurd absent
      (shorter.present_of_remains (at_take more here) rfl ?_)
    intro other later within departed
    have inside := (at_of_take departed).2
    exact remains other later (lt_length_of_at inside) inside

end Trackward.Lib.Logs
