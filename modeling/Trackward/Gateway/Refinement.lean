import Trackward.Gateway.Exchanges
import Trackward.Gateway.SideEffectRecords

/-!
# The deployed gateway refines the gateway

Every run of the deployed gateway is one of the gateway alone, whose ledger
accepts, refuses or loses a write at once.  The two are kept apart only by the
exchanges in flight, and the rows of the ledger are accounted for one by one:
each is told by one write of the history, or it belongs to an exchange whose
answer is still out.
-/

namespace Trackward.Gateway.Refinement

open Trackward.ChainCore.Encode
open Trackward.Gateway.Calls
open Trackward.Gateway.Deployment
open Trackward.Gateway.Exchanges
open Trackward.Gateway.Handlers
open Trackward.Gateway.SideEffectRecords
open Trackward.Ledger.Records
open Trackward.Lib
open Trackward.Lib.Outcomes
open Trackward.Lib.Programs
open Trackward.Lib.Programs.Program (Leaves)
open Trackward.Lib.Runs
open Trackward.Lib.Sessions
open Trackward.Lib.Substitution

variable {Client : Type}

/-! ## What the two levels share -/

/-- Something that happened at the ledger. -/
def isWritten : Happening → Bool
  | .wrote _ _ _ => true
  | _ => false

/-- The gateway itself keeps no history of the writes. -/
def unwritten (state : State Client) : State Client :=
  { state with
    history := state.history.filter fun happening => !isWritten happening }

/-- A write tells of the row that the ledger has stored for it. -/
inductive Tells (setup : Setup) : Happening → Entry → Prop where
  | wrote {call : LedgerCall} {entry : Entry}
      (stores : Stores setup call entry) :
      Tells setup (.wrote call (idOf entry) (seqOf entry)) entry

/-- A call of the gateway that is being carried out. -/
abbrev Carrying := Option (Exchange gatewayHost deployedHost)

/-- What a client has inserted and committed in its exchange. -/
def tallyIn : Carrying → Tally Entry
  | none => Tally.zero
  | some exchange => tallyOf exchange.events

/--
The rows of the ledger: one for each write of the history, and those that
clients hold whose exchange is not over.
-/
inductive Books [DecidableEq Client] (setup : Setup)
    (inFlight : Client → List Entry) (history : List Happening)
    (committed : List Entry) : Prop where
  | intro {told : List Entry} {held : List (Client × Entry)}
      (tells :
        List.Forall₂ (Tells setup) (history.filter isWritten) told)
      (holds :
        ∀ client,
          inFlight client =
            (held.filter fun one => one.1 = client).map Prod.snd)
      (rows : committed.Perm (told ++ held.map Prod.snd)) :
      Books setup inFlight history committed

/-- The gateway and its ledger, and the gateway whose ledger answers at once. -/
structure Mirrors [DecidableEq Client] (setup : Setup)
    (exchanges : Client → Carrying) (concrete : Deployed Client)
    (abstract : State Client) : Prop where
  gateway : concrete.gateway = unwritten abstract
  pending :
    ∀ client,
      concrete.ledger.pending client = (tallyIn (exchanges client)).pending
  books :
    Books setup (fun client => (tallyIn (exchanges client)).committed)
      abstract.history concrete.ledger.committed

/-! ## Calls of the gateway itself -/

theorem insertPending_unwritten (state : State Client) (id : Uuid)
    (pending : PendingApproval) :
    (unwritten state).insertPending id pending =
      unwritten (state.insertPending id pending) := by
  simp only [State.insertPending, unwritten]
  cases state.pending id with
  | none => rfl
  | some old => rfl

theorem removePending_unwritten (state : State Client) (client : Client)
    (id : Uuid) :
    (unwritten state).removePending client id =
      ((state.removePending client id).1,
        unwritten (state.removePending client id).2) := by
  simp only [State.removePending, unwritten]
  cases state.pending id with
  | none => rfl
  | some pending => rfl

theorem send_unwritten (state : State Client) (id : Uuid)
    (pending : PendingApproval) (decision : Decision) :
    (unwritten state).send id pending decision =
      ((state.send id pending decision).1,
        unwritten (state.send id pending decision).2) := by
  have same :
      (unwritten state).channels[pending.decisionTx]? =
        state.channels[pending.decisionTx]? := rfl
  unfold State.send
  rw [same]
  split
  · simp [unwritten, State.note, State.modifyChannel, isWritten]
  · rfl

/-- A decision is no write. -/
theorem written_send (state : State Client) (id : Uuid)
    (pending : PendingApproval) (decision : Decision) :
    (state.send id pending decision).2.history.filter isWritten =
      state.history.filter isWritten := by
  rcases state.history_send id pending decision with same | decided
  · rw [same]
  · simp [decided, isWritten]

/-- A call that is no write is answered whatever the history. -/
theorem exists_respond_of_unwritten {state : State Client}
    {concrete : State Client} {client : Client} {choice : Choice} {op : Op}
    {answer : op.Answer} (own : isWrite op = false)
    (responded :
      (unwritten state).respond client choice op =
        some (answer, concrete)) :
    ∃ after,
      state.respond client choice op = some (answer, after) ∧
        concrete = unwritten after ∧
          after.history.filter isWritten = state.history.filter isWritten := by
  cases State.responds_of_respond responded with
  | accept | lose | refuse => cases own
  | respond call response =>
      refine ⟨_, rfl, ?_, ?_⟩
      · simp [unwritten, State.note, isWritten]
      · simp [State.note, isWritten]
  | time | mint | channel | dropSender | dropReceiver =>
      exact ⟨_, rfl, rfl, rfl⟩
  | insertPending id pending =>
      refine ⟨_, rfl, insertPending_unwritten state id pending, ?_⟩
      rw [State.history_insertPending]
  | removePending id =>
      rw [removePending_unwritten]
      have kept := State.history_removePending state client id
      exact ⟨_, rfl, rfl, congrArg (List.filter isWritten) kept⟩
  | send id pending decision =>
      rw [send_unwritten]
      exact ⟨_, rfl, rfl, written_send state id pending decision⟩
  | receive channel decision received =>
      change state.receive channel = some decision at received
      refine ⟨state.dropReceiver channel, ?_, rfl, rfl⟩
      rw [State.respond, received]
      rfl

/-! ## The rows of the ledger -/

section Books

variable [DecidableEq Client] {setup : Setup}
variable {inFlight : Client → List Entry} {history : List Happening}
variable {committed : List Entry}

theorem Books.start :
    Books setup (fun _ : Client => []) [] [] :=
  @Books.intro _ _ _ _ _ _ [] [] .nil (fun _ => rfl) (.refl _)

/-- Rows that are committed are held by the client of the exchange. -/
theorem Books.commit (books : Books setup inFlight history committed)
    (client : Client) (rows : List Entry) :
    Books setup
      (Function.update inFlight client (inFlight client ++ rows)) history
      (committed ++ rows) := by
  cases books with
  | @intro told held tells holds same =>
      refine
        @Books.intro _ _ _ _ _ _ told
          (held ++ rows.map fun row => (client, row)) tells
          (fun other => ?_) ?_
      · rw [List.filter_append, List.map_append, ← holds other]
        by_cases own : other = client
        · subst own
          simp [List.filter_map, Function.comp_def]
        · simp [own, Ne.symm own, List.filter_map, Function.comp_def]
      · simp only [List.map_append, List.map_map, Function.comp_def,
          List.map_id', ← List.append_assoc]
        exact same.append_right rows

/-- What happens elsewhere does not concern the ledger. -/
theorem Books.note (books : Books setup inFlight history committed)
    {history' : List Happening}
    (same : history'.filter isWritten = history.filter isWritten) :
    Books setup inFlight history' committed := by
  cases books with
  | intro tells holds rows =>
      rw [← same] at tells
      exact .intro tells holds rows

/-- With its answer a row is told, and no longer held. -/
theorem Books.tell (books : Books setup inFlight history committed)
    {client : Client} {call : LedgerCall} {entry : Entry}
    (one : inFlight client = [entry]) (stores : Stores setup call entry) :
    Books setup (Function.update inFlight client [])
      (history ++ [.wrote call (idOf entry) (seqOf entry)]) committed := by
  cases books with
  | @intro told held tells holds same =>
      refine
        @Books.intro _ _ _ _ _ _ (told ++ [entry])
          (held.filter fun one => one.1 ≠ client) ?_ (fun other => ?_) ?_
      · rw [List.filter_append]
        exact List.rel_append tells (.cons (.wrote stores) .nil)
      · rw [List.filter_filter]
        by_cases own : other = client
        · subst own
          simp
        · simp only [Function.update_of_ne own]
          rw [holds other]
          congr 1
          refine List.filter_congr fun one _ => ?_
          by_cases whose : one.1 = other
          · simp [whose, own]
          · simp [whose]
      · have parted :=
          (List.filter_append_perm (fun one => decide (one.1 = client))
            held).map Prod.snd
        rw [List.map_append, ← holds client, one] at parted
        simp only [ne_eq, decide_not, List.append_assoc]
        exact same.trans (parted.symm.append_left told)

end Books

/-! ## The simulation -/

section Simulation

variable [DecidableEq Client] {setup : Setup}
variable {exchanges : Client → Carrying} {concrete : Deployed Client}
variable {abstract : State Client}

/-- What a client has written does not depend on when the exchange opens. -/
theorem tallyIn_of_under {op : Op} {events : List DeployedEvent}
    {carrying : Carrying} (under : Under carrying op events) :
    tallyIn carrying = tallyOf events := by
  rcases under with rfl | ⟨rfl, rfl⟩
  · rfl
  · rfl

/-- The exchange of one client is replaced, and with it what it holds. -/
theorem Mirrors.change {concrete' : Deployed Client}
    {abstract' : State Client} {client : Client} {carrying : Carrying}
    (mirrors : Mirrors setup exchanges concrete abstract)
    (gateway : concrete'.gateway = unwritten abstract')
    (pending :
      concrete'.ledger.pending =
        Function.update concrete.ledger.pending client
          (tallyIn carrying).pending)
    (books :
      Books setup
        (Function.update
          (fun other => (tallyIn (exchanges other)).committed) client
          (tallyIn carrying).committed)
        abstract'.history concrete'.ledger.committed) :
    Mirrors setup (Function.update exchanges client carrying) concrete'
      abstract' where
  gateway := gateway
  pending := by
    intro other
    rw [pending]
    by_cases own : other = client
    · subst own
      simp
    · simpa [own] using mirrors.pending other
  books := by
    convert books using 2
    rename_i other
    by_cases own : other = client
    · subst own
      simp
    · simp [own]

/-- A call on the way of a write is noted, and nothing else changes. -/
theorem Mirrors.proceed
    (mirrors : Mirrors setup exchanges concrete abstract) {client : Client}
    {op : Op} {events : List DeployedEvent}
    (under : Under (exchanges client) op events) {lower : DeployedOp}
    (underway : Underway lower) {choice : DeployedChoice}
    {answer : lower.Answer} {concrete' : Deployed Client}
    (responded :
      concrete.respond client choice lower = some (answer, concrete')) :
    Mirrors setup
      (Function.update exchanges client
        (some ⟨op, events ++ [⟨lower, answer⟩]⟩))
      concrete' abstract := by
  have tally := tallyIn_of_under under
  have proceeds :=
    proceeds_of_respond underway responded
      (by rw [mirrors.pending client, tally])
  rw [← tallyOf_concat] at proceeds
  rcases proceeds.committed with ⟨rows, grown, noted⟩
  refine mirrors.change ?_ proceeds.pending ?_
  · rw [proceeds.gateway, mirrors.gateway]
  · rw [grown]
    change Books _ (Function.update _ client (tallyOf _).committed) _ _
    rw [noted, ← tally]
    exact mirrors.books.commit client rows

/-- The gateway answers its own calls as it does alone. -/
theorem Mirrors.serve
    (mirrors : Mirrors setup exchanges concrete abstract) {client : Client}
    (idle : tallyIn (exchanges client) = Tally.zero) {op : Op}
    {choice : DeployedChoice} {answer : op.Answer}
    {concrete' : Deployed Client}
    (responded :
      concrete.respond client choice (.gateway op) =
        some (answer, concrete')) :
    ∃ choice' abstract',
      abstract.respond client choice' op = some (answer, abstract') ∧
        Mirrors setup (Function.update exchanges client none) concrete'
          abstract' := by
  cases choice with
  | gateway choice =>
      have own : isWrite op = false := by
        cases write : isWrite op with
        | true =>
            rw [Deployed.respond, if_pos write] at responded
            cases responded
        | false => rfl
      rw [Deployed.respond, own, if_neg Bool.false_ne_true] at responded
      rcases Option.map_eq_some_iff.mp responded with
        ⟨⟨answer', gateway⟩, answered, same⟩
      cases same
      rw [mirrors.gateway] at answered
      rcases exists_respond_of_unwritten own answered with
        ⟨abstract', high, rfl, written⟩
      refine ⟨choice, abstract', high, mirrors.change rfl ?_ ?_⟩
      · change concrete.ledger.pending =
          Function.update concrete.ledger.pending client _
        rw [tallyIn, ← idle, ← mirrors.pending client,
          Function.update_eq_self]
      · rw [tallyIn, ← idle, Function.update_eq_self]
        exact mirrors.books.note written
  | arrive | statement | proceed | fail => cases responded

/-- The row of an exchange is told, and the exchange is over. -/
theorem Mirrors.tell
    (mirrors : Mirrors setup exchanges concrete abstract) {client : Client}
    {concrete' : Deployed Client} (gateway : concrete'.gateway = concrete.gateway)
    (pending :
      concrete'.ledger.pending =
        Function.update concrete.ledger.pending client [])
    (committed : concrete'.ledger.committed = concrete.ledger.committed)
    {call : LedgerCall} {entry : Entry}
    (one : (tallyIn (exchanges client)).committed = [entry])
    (stores : Stores setup call entry) :
    Mirrors setup (Function.update exchanges client none) concrete'
      (abstract.note (.wrote call (idOf entry) (seqOf entry))) := by
  refine mirrors.change ?_ pending ?_
  · rw [gateway, mirrors.gateway]
    simp [unwritten, State.note, isWritten]
  · rw [committed]
    exact mirrors.books.tell one stores

/-- An exchange that has written nothing is over. -/
theorem Mirrors.drop
    (mirrors : Mirrors setup exchanges concrete abstract) {client : Client}
    {concrete' : Deployed Client} (gateway : concrete'.gateway = concrete.gateway)
    (pending :
      concrete'.ledger.pending =
        Function.update concrete.ledger.pending client [])
    (committed : concrete'.ledger.committed = concrete.ledger.committed)
    (nothing : (tallyIn (exchanges client)).committed = []) :
    Mirrors setup (Function.update exchanges client none) concrete'
      abstract := by
  refine mirrors.change ?_ pending ?_
  · rw [gateway, mirrors.gateway]
  · rw [committed]
    have same :
        Function.update
            (fun other => (tallyIn (exchanges other)).committed) client [] =
          fun other => (tallyIn (exchanges other)).committed := by
      rw [← nothing, Function.update_eq_self]
    change Books _ (Function.update _ client []) _ _
    rw [same]
    exact mirrors.books

/-- What an exchange ends in is an answer of the ledger to the gateway. -/
theorem Mirrors.conclude
    (mirrors : Mirrors setup exchanges concrete abstract) {client : Client}
    {call : LedgerCall} {answer : Except String (LedgerReply call)}
    (ended : (tallyIn (exchanges client)).pending = [])
    (concluded :
      Concluded setup call (tallyIn (exchanges client)).committed answer) :
    ∃ choice abstract',
      abstract.respond client choice (.ledger call) =
          some (answer, abstract') ∧
        Mirrors setup (Function.update exchanges client none) concrete
          abstract' := by
  have still :
      concrete.ledger.pending =
        Function.update concrete.ledger.pending client [] := by
    rw [← ended, ← mirrors.pending client, Function.update_eq_self]
  generalize rows : (tallyIn (exchanges client)).committed = written
    at concluded
  cases concluded with
  | @accepted entry stores =>
      exact
        ⟨.accept (idOf entry) (seqOf entry), _, rfl,
          mirrors.tell rfl still rfl rows stores⟩
  | @lost entry stores text =>
      exact
        ⟨.lose (idOf entry) (seqOf entry) text, _, rfl,
          mirrors.tell rfl still rfl rows stores⟩
  | refused text =>
      exact ⟨.refuse text, _, rfl, mirrors.drop rfl still rfl rows⟩

/-- A call of the gateway itself is carried out by itself. -/
theorem carry_of_own {op : Op} (own : isWrite op = false) :
    carry setup op = .call (.gateway op) .done := by
  cases op with
  | ledger call => cases own
  | forward | now | newApprovalId | channel | insertPending | removePending
  | send | receive | dropSender | dropReceiver => rfl

theorem eq_ledger_of_isWrite {op : Op} (write : isWrite op = true) :
    ∃ call, op = .ledger call := by
  cases op with
  | ledger call => exact ⟨call, rfl⟩
  | forward | now | newApprovalId | channel | insertPending | removePending
  | send | receive | dropSender | dropReceiver => cases write

/-- A call that is carried out holds the row of its write, or nothing. -/
theorem held_of_leaves {op : Op} {events : List DeployedEvent}
    {left : Program deployedHost Empty op.Answer}
    (leaves : Leaves (carry setup op) events left) :
    (tallyOf events).committed = [] ∨
      ∃ call entry,
        op = .ledger call ∧ (tallyOf events).committed = [entry] ∧
          Stores setup call entry := by
  cases own : isWrite op with
  | false =>
      rw [carry_of_own own] at leaves
      cases leaves with
      | stop => exact Or.inl rfl
      | call answer rest =>
          cases rest
          exact Or.inl rfl
  | true =>
      rcases eq_ledger_of_isWrite own with ⟨call, rfl⟩
      rcases stores_of_leaves leaves with nothing | ⟨entry, one, stores⟩
      · exact Or.inl nothing
      · exact Or.inr ⟨call, entry, rfl, one, stores⟩

/-- A client that departs drops its ends of the channels at both levels. -/
theorem Mirrors.abandon {client : Client}
    (mirrors :
      Mirrors setup exchanges (concrete.release client) abstract) :
    Mirrors setup exchanges ((deployment Client).depart client concrete)
      ((host Client).depart client abstract) where
  gateway := by
    have same : concrete.gateway = unwritten abstract := mirrors.gateway
    simp only [deployment, host, same]
    rfl
  pending := mirrors.pending
  books := mirrors.books

/-- A client that departs takes what it has committed with it. -/
theorem Mirrors.depart
    (mirrors : Mirrors setup exchanges concrete abstract) (client : Client)
    (leaves :
      ∀ exchange, exchanges client = some exchange →
        ∃ left, Leaves (carry setup exchange.op) exchange.events left) :
    ∃ abstract',
      Completes (host Client) client (exchanges client) abstract abstract' ∧
        Mirrors setup (Function.update exchanges client none)
          ((deployment Client).depart client concrete)
          ((host Client).depart client abstract') := by
  have released (nothing : (tallyIn (exchanges client)).committed = []) :
      Mirrors setup (Function.update exchanges client none)
        (concrete.release client) abstract :=
    mirrors.drop rfl rfl rfl nothing
  cases carrying : exchanges client with
  | none =>
      rw [carrying] at released
      exact ⟨abstract, .leave _, (released rfl).abandon⟩
  | some exchange =>
      rcases leaves exchange carrying with ⟨left, partway⟩
      rw [carrying] at released
      rcases held_of_leaves partway with
        nothing | ⟨call, entry, isWrite, one, stores⟩
      · exact ⟨abstract, .leave _, (released nothing).abandon⟩
      · rcases exchange with ⟨op, events⟩
        cases isWrite
        have told :
            Mirrors setup (Function.update exchanges client none)
              (concrete.release client)
              (abstract.note (.wrote call (idOf entry) (seqOf entry))) := by
          have held : (tallyIn (exchanges client)).committed = [entry] := by
            rw [carrying]
            exact one
          refine mirrors.tell ?_ ?_ ?_ held stores
          · rfl
          · rfl
          · rfl
        have answered :
            (host Client).respond client
                (.lose (idOf entry) (seqOf entry) "") (.ledger call)
                abstract =
              some
                (.error "",
                  abstract.note
                    (.wrote call (idOf entry) (seqOf entry))) := rfl
        exact ⟨_, .answer rfl answered, told.abandon⟩

/-- The deployed gateway carries out what the gateway does alone. -/
theorem simulates (setup : Setup) :
    Simulates (carry setup) (host Client) (deployment Client)
      (Mirrors setup) where
  opens := by
    intro op
    cases own : isWrite op with
    | false => exact ⟨_, _, carry_of_own own⟩
    | true =>
        rcases eq_ledger_of_isWrite own with ⟨call, rfl⟩
        exact ⟨_, _, rfl⟩
  goesOn := by
    intro exchanges concrete abstract client op events lower left choice
      answer concrete' mirrors under leaves responded goes
    cases own : isWrite op with
    | false =>
        rw [carry_of_own own] at leaves
        cases leaves with
        | stop => cases goes
        | call answer rest => cases rest
    | true =>
        rcases eq_ledger_of_isWrite own with ⟨call, rfl⟩
        have underway : Underway lower :=
          (leaves.concat answer).allowed (onlyCalls_exchange setup call)
            ⟨lower, answer⟩ (by simp)
        exact mirrors.proceed under underway responded
  returns := by
    intro exchanges concrete abstract client op events lower choice answer
      concrete' value mirrors under responded executed
    cases own : isWrite op with
    | false =>
        rw [carry_of_own own] at executed
        rcases Program.executes_call_iff.mp executed with
          ⟨answer', rest, same, continued⟩
        rcases Program.executes_done_iff.mp continued with ⟨rfl, ended⟩
        cases ended
        rcases List.append_eq_singleton_iff.mp same with
          ⟨rfl, last⟩ | ⟨_, absurdity⟩
        · cases last
          exact mirrors.serve (tallyIn_of_under under) responded
        · cases absurdity
    | true =>
        rcases eq_ledger_of_isWrite own with ⟨call, rfl⟩
        have underway : Underway lower :=
          Program.allowed_of_executes (onlyCalls_exchange setup call)
            executed ⟨lower, answer⟩ (by simp)
        have after := mirrors.proceed under underway responded
        rcases concluded_of_executes executed with ⟨ended, concluded⟩
        have carried :
            tallyIn
                (Function.update exchanges client
                  (some ⟨.ledger call, events ++ [⟨lower, answer⟩]⟩)
                  client) =
              tallyOf (events ++ [⟨lower, answer⟩]) := by
          rw [Function.update_self]
          rfl
        rw [← carried] at ended concluded
        have told := after.conclude ended concluded
        rw [Function.update_idem] at told
        exact told
  departs := fun client mirrors leaves => mirrors.depart client leaves

end Simulation

/-! ## Runs -/

section Runs

variable [DecidableEq Client] {service : Service} {setup : Setup}
variable {world : DeployedWorld Client}

/-- A world of the gateway alone that a deployed world carries out. -/
structure Above (service : Service) (setup : Setup)
    (world : DeployedWorld Client) (exchanges : Client → Carrying)
    (abstract : GatewayWorld Client) : Prop where
  reached : Reachable (gateway Client service) unrestricted abstract
  mirrors : Mirrors setup exchanges world.shared abstract.shared
  fits :
    ∀ client,
      Matches (carry setup) (world.sessions client) (abstract.sessions client)
        (exchanges client)

/-- Every deployed world carries out a world of the gateway alone. -/
theorem exists_above
    (reached : Reachable (deployed Client service setup) unrestricted world) :
    ∃ exchanges abstract, Above service setup world exchanges abstract := by
  have starts (concrete : Deployed Client) (fresh : concrete.isFresh) :
      ∃ abstract : State Client, abstract = .initial ∧
        Mirrors setup (fun _ => none) concrete abstract := by
    rcases fresh with ⟨same, rest⟩
    refine ⟨.initial, rfl, ?_, ?_, ?_⟩
    · rw [same]
      rfl
    · exact rest.2.1
    · rw [rest.1]
      exact .start
  rcases exists_simulated (simulates setup) starts reached with
    ⟨exchanges, abstract, above, mirrors, fits⟩
  exact ⟨exchanges, abstract, above, mirrors, fits⟩

/-- The session waits for the answer to a write. -/
def Writing (session : Option (Session gatewayHost Request Error Response))
    (call : LedgerCall) : Prop :=
  ∃ request calls next,
    session = some ⟨request, calls, .call (.ledger call) next⟩

/-- What a client holds is the row of the write it waits for. -/
theorem Above.holding {exchanges : Client → Carrying}
    {abstract : GatewayWorld Client}
    (above : Above service setup world exchanges abstract)
    (client : Client) :
    (tallyIn (exchanges client)).committed = [] ∨
      ∃ call entry,
        Writing (abstract.sessions client) call ∧
          (tallyIn (exchanges client)).committed = [entry] ∧
            Stores setup call entry := by
  have fit := above.fits client
  generalize exchanges client = carrying at fit
  generalize world.sessions client = session' at fit
  generalize abstract.sessions client = session at fit
  cases fit with
  | absent => exact Or.inl rfl
  | present calls calls' stands =>
      cases stands with
      | between program => exact Or.inl rfl
      | within leaves next =>
          rcases held_of_leaves leaves with
            nothing | ⟨call, entry, rfl, one, stores⟩
          · exact Or.inl nothing
          · exact Or.inr ⟨call, entry, ⟨_, _, next, rfl⟩, one, stores⟩

/-- Two clients have a run created; the second one is not told. -/
def brokenMoves : List (Move Nat Request DeployedChoice) :=
  [.arrive 0 (.tool "mail" none .null),
    .arrive 1 (.tool "mail" none .null),
    .answer 0 (.arrive ⟨3, .epoch, .epoch⟩),
    .answer 1 (.arrive ⟨4, .epoch, .epoch⟩),
    .answer 1 (.statement (.succeed 0)),
    .answer 0 (.statement (.succeed 0)),
    .answer 1 (.fail "timeout")]

/--
Every run of the deployed gateway is one of the gateway alone, with the same
approvals, requests and responses.  The committed rows of the ledger are, each
once, those of the writes in its history and those of writes whose answer a
client still waits for, at most one for each client.
-/
theorem deployed_refines
    (reached : Reachable (deployed Client service setup) unrestricted world) :
    ∃ (abstract : GatewayWorld Client) (told : List Entry)
      (held : List (Client × Entry)),
      Reachable (gateway Client service) unrestricted abstract ∧
        world.shared.gateway = unwritten abstract.shared ∧
          (∀ client,
              (world.sessions client).map seen =
                (abstract.sessions client).map seen) ∧
            List.Forall₂ (Tells setup)
                (abstract.shared.history.filter isWritten) told ∧
              world.shared.ledger.committed.Perm
                  (told ++ held.map Prod.snd) ∧
                (held.map Prod.fst).Nodup ∧
                  ∀ one ∈ held,
                    ∃ call,
                      Writing (abstract.sessions one.1) call ∧
                        Stores setup call one.2 := by
  rcases exists_above reached with ⟨exchanges, abstract, above⟩
  have opens := (@simulates Client _ setup).opens
  rcases above.mirrors.books with @⟨told, held, tells, holds, rows⟩
  refine
    ⟨abstract, told, held, above.reached, above.mirrors.gateway,
      fun client => (above.fits client).seen_eq opens,
      tells, rows, ?_, ?_⟩
  · rw [List.nodup_iff_count_le_one]
    intro client
    rw [List.count, List.countP_map, List.countP_eq_length_filter]
    change (held.filter fun one => decide (one.1 = client)).length ≤ 1
    rw [← List.length_map Prod.snd, ← holds client]
    rcases above.holding client with nothing | ⟨_, _, _, one, _⟩
    · rw [nothing]
      exact Nat.zero_le 1
    · rw [one]
      exact Nat.le_refl 1
  · intro one member
    have mine : one.2 ∈ (tallyIn (exchanges one.1)).committed := by
      rw [holds one.1]
      exact List.mem_map_of_mem (List.mem_filter.mpr ⟨member, by simp⟩)
    rcases above.holding one.1 with
      nothing | ⟨call, entry, writing, only, stores⟩
    · rw [nothing] at mine
      cases mine
    · rw [only, List.mem_singleton] at mine
      rw [mine]
      exact ⟨call, writing, stores⟩

/-- Both runs are there, one of them held and the other one lost. -/
theorem deployed_refines_brokenMoves :
    ∃ (world : DeployedWorld Nat) (abstract : GatewayWorld Nat)
      (told : List Entry) (held : List (Nat × Entry)),
      Reachable (deployed Nat mailService trustedSetup) unrestricted world ∧
        Reachable (gateway Nat mailService) unrestricted abstract ∧
          world.shared.ledger.committed.length = 2 ∧
            world.shared.ledger.committed.Perm
                (told ++ held.map Prod.snd) ∧
              (world.sessions 1).map seen = (abstract.sessions 1).map seen := by
  rcases
      Reachable.exists_of_replay unrestricted_of_anyMove
        (initial_idleDeployment mailService trustedSetup) brokenMoves
        (fun world => world.shared.ledger.committed.length = 2)
        (by decide) with
    ⟨world, reached, two⟩
  rcases deployed_refines reached with
    ⟨abstract, told, held, above, _, same, _, rows, _⟩
  exact
    ⟨world, abstract, told, held, reached, above, of_decide_eq_true two, rows,
      same 1⟩

end Runs

end Trackward.Gateway.Refinement
