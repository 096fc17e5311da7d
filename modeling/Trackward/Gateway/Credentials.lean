import Trackward.Gateway.DeployedLedger
import Trackward.Gateway.DurableRecords

/-!
# What the gateway presents to the ledger

The client of the ledger sends its name and its token as headers, with every
write.  The ledger compares the token in constant time and takes the name off
the header.  So the rows behind the gateway say who wrote them: the client that
the gateway was built with, and nobody without the token of the ledger.
-/

namespace Trackward.Gateway.Credentials

open Trackward.ChainCore.Encode
open Trackward.Gateway.Calls
open Trackward.Gateway.DeployedLedger
open Trackward.Gateway.Deployment
open Trackward.Gateway.DurableRecords
open Trackward.Gateway.Exchanges (Stores)
open Trackward.Gateway.Handlers
open Trackward.Gateway.Refinement
open Trackward.Gateway.SideEffectRecords (mailService)
open Trackward.Ledger.Actor
open Trackward.Ledger.Answers (Fills)
open Trackward.Ledger.DossierReads
open Trackward.Ledger.Dossiers
open Trackward.Ledger.Models (Effect Fault)
open Trackward.Ledger.Records
open Trackward.Ledger.SideEffects
open Trackward.Lib
open Trackward.Lib.Admission
open Trackward.Lib.Octets
open Trackward.Lib.Programs
open Trackward.Lib.Runs
open Trackward.Lib.Sessions
open Trackward.Lib.Transactions (Op.Writes)

/-! ## Header values -/

/-- Whatever can be read of the bytes of a text is the text. -/
theorem eq_of_toStr_utf8 {text read : String}
    (shown : toStr (utf8 text) = some read) : read = text := by
  unfold toStr at shown
  split at shown
  · rename_i visible
    cases shown
    rw [utf8_eq_flatMap] at visible ⊢
    generalize symbols : text.toList = list at visible
    have same :
        (list.flatMap String.utf8EncodeChar).map
            (fun byte => Char.ofNat byte.toNat) =
          list := by
      clear symbols
      induction list with
      | nil => rfl
      | cons symbol rest induction =>
          rw [List.flatMap_cons, List.all_append, Bool.and_eq_true] at visible
          have ascii :
              ∀ byte ∈ String.utf8EncodeChar symbol, byte < 128 := by
            intro byte member
            have shown := List.all_eq_true.mp visible.1 byte member
            simp [UInt8.lt_iff_toNat_lt, UInt8.le_iff_toNat_le,
              ← UInt8.toNat_inj] at shown ⊢
            omega
          rcases exists_byte_of_ascii ascii with ⟨byte, one, back⟩
          rw [List.flatMap_cons, one, List.map_append, induction visible.2,
            List.map_singleton, back]
          rfl
    rw [same, ← symbols, String.ofList_toList]
  · cases shown

theorem stripPrefix_append (start text : String) :
    stripPrefix start (start ++ text) = some text := by
  simp [stripPrefix]

/-- The comparison that takes the same time everywhere compares. -/
theorem constantTimeEq_eq_true_iff {first second : Bytes} :
    constantTimeEq first second = true ↔ first = second := by
  have differs (pairs : List (UInt8 × UInt8)) (start : UInt8) :
      pairs.foldl (fun diff pair => diff ||| (pair.1 ^^^ pair.2)) start = 0 ↔
        start = 0 ∧ ∀ pair ∈ pairs, pair.1 = pair.2 := by
    induction pairs generalizing start with
    | nil => simp
    | cons pair pairs induction =>
        rw [List.foldl_cons, induction, UInt8.or_eq_zero_iff,
          UInt8.xor_eq_zero_iff, List.forall_mem_cons, and_assoc]
  have pointwise :
      first = second ↔
        first.length = second.length ∧
          ∀ {one other : UInt8}, (one, other) ∈ first.zip second →
            one = other := by
    rw [← List.forall₂_iff_zip, List.forall₂_eq_eq_eq]
  unfold constantTimeEq
  rw [pointwise]
  split
  · rename_i sameLength
    rw [decide_eq_true_eq, differs]
    simp [sameLength]
  · rename_i different
    simp [different]

/-! ## The headers of the client -/

section Headers

variable {client : LedgerClient} {authToken defaultActor : Option String}

theorem lookup_authorization (client : LedgerClient) :
    client.headers.lookup "authorization" =
      client.token.map fun token => utf8 ("Bearer " ++ token) := by
  cases named : client.token with
  | none => simp [LedgerClient.headers, named, actorHeader, List.lookup_cons]
  | some token => simp [LedgerClient.headers, named]

theorem lookup_actor (client : LedgerClient) :
    client.headers.lookup actorHeader = some (utf8 client.actor) := by
  cases named : client.token with
  | none => simp [LedgerClient.headers, named]
  | some token =>
      simp [LedgerClient.headers, named, actorHeader, List.lookup_cons]

/-- Who passes the gate presents its token. -/
theorem token_of_requireBearer {token : String}
    (passed : requireBearer (some token) client.headers = true) :
    client.token = some token := by
  rw [requireBearer, lookup_authorization] at passed
  cases presented : client.token with
  | none =>
      rw [presented] at passed
      cases passed
  | some own =>
      rw [presented, Option.map_some, Option.bind_some] at passed
      cases read : toStr (utf8 ("Bearer " ++ own)) with
      | none =>
          rw [read] at passed
          cases passed
      | some text =>
          have stripped : stripPrefix "Bearer " text = some own := by
            rw [eq_of_toStr_utf8 read, stripPrefix_append]
          rw [read, Option.bind_some, stripped] at passed
          rw [utf8_injective (constantTimeEq_eq_true_iff.mp passed)]

/-- The name the ledger reads is that of the client, without blanks. -/
theorem eq_trim_of_extracted {actor : String}
    (extracted :
      fromRequestParts defaultActor client.headers = .ok actor) :
    actor = trim client.actor := by
  unfold fromRequestParts at extracted
  simp only [lookup_actor] at extracted
  cases read : toStr (utf8 client.actor) with
  | none =>
      simp only [read] at extracted
      cases extracted
  | some text =>
      simp only [read] at extracted
      split_ifs at extracted
      cases extracted
      rw [eq_of_toStr_utf8 read]

end Headers

/-! ## The rows behind the gateway -/

/-- The client has passed the gate, and the row names it. -/
def Admitted (setup : Setup) (entry : Entry) : Prop :=
  requireBearer setup.state.authToken setup.client.headers = true ∧
    Stamped setup.state setup.client.headers entry

/-- A write of the client leaves admitted rows only. -/
theorem admits_serveAll (setup : Setup) (order : RowOrder)
    (route : WriteRoute) :
    (serveAll setup.state order
      (.write ⟨none, setup.client.headers, route⟩)).OnlyCalls
      (Op.Writes (Admitted setup)) := by
  refine Program.onlyCalls_bind ?_ fun _ => trivial
  unfold handle
  split
  · rename_i passed
    apply Program.OnlyCalls.mono _ (stamps_dispatch route)
    intro op writes
    cases op with
    | insert entry | publish entry => exact ⟨passed, writes⟩
    | begin | lock | select | commit | emit => trivial
  · trivial

/-- A row that was filled for a caller names it. -/
theorem exists_actor {runtime : Ledger.Models.Runtime} {actor : String}
    {route : WriteRoute} {entry : Entry}
    (fills : Fills runtime actor route entry) :
    ∃ name, actorOf entry = some name := by
  cases fills with
  | run | chained | binding => exact ⟨_, rfl⟩

section Deployment

variable {Client : Type} [DecidableEq Client] {service : Service}
variable {setup : Setup}

/-- What a ledger has that only the client has written to. -/
theorem admitted_of_committed {order : RowOrder} {whole : WholeWorld Client}
    (reached :
      Reachable (freshLedger setup.state order) (OnlyWrites setup) whole)
    {entry : Entry} (member : entry ∈ whole.shared.committed) :
    Admitted setup entry := by
  have kept : Kept (Gate.rows (Admitted setup)) whole := by
    refine kept_of_permitted ?_ ?_ reached
    · rintro shared ⟨empty, quiet, _⟩
      refine ⟨fun row inside => ?_, quiet, fun _ _ => trivial⟩
      rw [empty] at inside
      cases inside
    · intro before client request letIn
      rcases letIn client request rfl with ⟨route, rfl⟩
      exact gated_of_writes (admits_serveAll setup order route)
  exact kept.committed entry member

/--
Nobody without the ledger's token gets a row behind the gateway: where there is
one, the client has the token.  And every row carries the name with which the
client was built, without the blanks around it.
-/
theorem rows_authorized {world : DeployedWorld Client}
    (reached : Reachable (deployed Client service setup) unrestricted world)
    {entry : Entry} (member : entry ∈ world.shared.ledger.committed) :
    (∀ token, setup.state.authToken = some token →
        setup.client.token = some token) ∧
      actorOf entry = some (trim setup.client.actor) := by
  rcases exists_backs .stable reached with ⟨whole, backs⟩
  have inside := member
  rw [← backs.shared] at inside
  rcases admitted_of_committed backs.reached inside with ⟨passed, stamped⟩
  constructor
  · intro token demanded
    rw [demanded] at passed
    exact token_of_requireBearer passed
  · rcases exists_told reached member with
      ⟨_, _, _, _, _, _, _, ⟨_, _, _, _, _, fills⟩, _⟩
    rcases exists_actor fills with ⟨name, named⟩
    rw [named, eq_trim_of_extracted (stamped name named)]

/-- Rows that two requests have written are the gateway's. -/
theorem rows_authorized_brokenMoves :
    ∃ (world : DeployedWorld Nat) (entry : Entry),
      Reachable (deployed Nat mailService trustedSetup) unrestricted world ∧
        entry ∈ world.shared.ledger.committed ∧
          trustedSetup.client.token = some "secret" ∧
            actorOf entry = some "gateway" := by
  rcases
      Reachable.exists_of_replay unrestricted_of_anyMove
        (initial_idleDeployment mailService trustedSetup) brokenMoves
        (fun world => world.shared.ledger.committed.length = 2)
        (by decide) with
    ⟨world, reached, two⟩
  have filled : 0 < world.shared.ledger.committed.length := by
    rw [of_decide_eq_true two]
    exact Nat.two_pos
  rcases List.exists_mem_of_length_pos filled with ⟨entry, member⟩
  rcases rows_authorized reached member with ⟨token, name⟩
  have trimmed : trim trustedSetup.client.actor = "gateway" := by
    decide +kernel
  rw [trimmed] at name
  exact ⟨world, entry, reached, member, token "secret" rfl, name⟩

end Deployment

end Trackward.Gateway.Credentials
