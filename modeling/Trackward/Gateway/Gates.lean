import Trackward.Gateway.Handlers

/-!
# Gated tools

A tool named in `gated_tools` is to run only after a human has granted it.
The tool proxy does not look at that list: it forwards a call of every tool
that has a route.  So the promise is kept exactly by the configurations in
which no gated tool has one.
-/

namespace Trackward.Gateway.Gates

open Trackward.ChainCore.JsonValue
open Trackward.Gateway.Calls
open Trackward.Gateway.Handlers
open Trackward.Lib.Programs
open Trackward.Lib.Runs
open Trackward.Lib.Sessions

/-! ## The promise -/

/-- A request to approve the tool of a call in its run has been granted. -/
def Approved (history : List Happening) (call : ToolCall) : Prop :=
  ∃ id pending decision,
    Happening.decided id pending decision ∈ history ∧
      pending.runId = call.runId ∧ pending.tool = call.tool ∧
        decision.granted = true

/-- Calls of gated tools were approved before they were forwarded. -/
def GatesHold (config : Config) (history : List Happening) : Prop :=
  ∀ earlier call later,
    history = earlier ++ .forwarded call :: later →
      isGated config.gatedTools call.tool = true → Approved earlier call

/-! ## What the proxy forwards -/

/-- Only calls of tools that have a route are forwarded. -/
def Routed (config : Config) : Op → Prop
  | .forward call =>
      resolve config.toolRoutes call.tool = some call.backendUrl
  | _ => True

variable {config : Config} {service : Service}

theorem onlyCalls_request (runIdHeader : Option String) (body : Json) :
    (Approval.request service runIdHeader body).OnlyCalls
      (Routed config) := by
  refine Program.onlyCalls_bind
    (onlyCalls_resolveOrMintRun (fun _ _ => trivial) fun _ _ => trivial)
    fun resolved => ?_
  refine Program.onlyCalls_bind (onlyCalls_perform trivial)
    fun approvalId => ?_
  refine Program.onlyCalls_bind (onlyCalls_perform trivial)
    fun channel => ?_
  refine Program.onlyCalls_bind (onlyCalls_perform trivial)
    fun requestedAt => ?_
  refine Program.onlyCalls_bind (onlyCalls_perform trivial) fun _ => ?_
  refine Program.onlyCalls_bind (onlyCalls_perform trivial)
    fun written => ?_
  split
  · exact Program.onlyCalls_bind (onlyCalls_perform trivial) fun _ =>
      trivial
  · refine Program.onlyCalls_bind (onlyCalls_perform trivial)
      fun received => ?_
    split
    · trivial
    · refine Program.onlyCalls_bind (onlyCalls_ledger trivial) fun _ => ?_
      exact Program.onlyCalls_bind (onlyCalls_perform trivial) fun _ =>
        trivial

theorem onlyCalls_serve (request : Request) :
    (serve service request).OnlyCalls (Routed service.config) := by
  cases request with
  | tool tool runIdHeader input =>
      exact (onlyCalls_proxy tool runIdHeader input).mono fun op only => by
        cases op with
        | forward call => exact only
        | _ => trivial
  | approval runIdHeader body => exact onlyCalls_request _ body
  | decide id body =>
      exact onlyCalls_decide trivial (fun _ => trivial) fun _ _ => trivial

/-- Every forwarded call in the history went along a route. -/
def AllRouted (config : Config) (history : List Happening) : Prop :=
  ∀ call, Happening.forwarded call ∈ history →
    resolve config.toolRoutes call.tool = some call.backendUrl

/-- Allowed calls keep the history routed. -/
theorem allRouted_of_responded
    {Client : Type} {state after : State Client} {client : Client}
    {choice : Choice} {op : Op} {answer : op.Answer}
    (allowed : Routed config op)
    (routed : AllRouted config state.history)
    (responded : state.respond client choice op = some (answer, after)) :
    AllRouted config after.history := by
  intro call member
  rcases State.respond_history responded with
    same | ⟨_, _, _, _, same⟩ | ⟨last, rfl, same⟩ | ⟨_, _, _, _, same⟩
  · rw [same] at member
    exact routed call member
  · rw [same] at member
    rcases List.mem_append.mp member with old | new
    · exact routed call old
    · cases List.mem_singleton.mp new
  · rw [same] at member
    rcases List.mem_append.mp member with old | new
    · exact routed call old
    · cases List.mem_singleton.mp new
      exact allowed
  · rw [same] at member
    rcases List.mem_append.mp member with old | new
    · exact routed call old
    · cases List.mem_singleton.mp new

section Runs

variable {Client : Type} [DecidableEq Client]

/-- In every state the gateway reaches, all calls went along routes. -/
theorem allRouted_of_reachable {world : GatewayWorld Client}
    (reached : Reachable (gateway Client service) unrestricted world) :
    AllRouted service.config world.shared.history := by
  refine
    invariant_of_onlyCalls (Routed service.config)
      (fun state => AllRouted service.config state.history) ?_ ?_
      onlyCalls_serve ?_ reached
  · intro client choice op state answer after allowed routed responded
    exact allRouted_of_responded allowed routed responded
  · intro client state routed
    exact routed
  · rintro state rfl call member
    cases member

/-! ## When the gates hold -/

/-- Nothing has been decided yet. -/
def Undecided (state : State Client) : Prop :=
  ∀ id pending decision,
    Happening.decided id pending decision ∉ state.history

omit [DecidableEq Client] in
theorem Undecided.wrote {state : State Client}
    (undecided : Undecided state) (call : LedgerCall)
    (id : ChainCore.Encode.Uuid) (seq : Int64) :
    Undecided (state.note (.wrote call id seq)) := by
  intro approval pending decision member
  rcases List.mem_append.mp member with old | new
  · exact undecided approval pending decision old
  · cases List.mem_singleton.mp new

/-- The ledger accepts a write. -/
theorem alone_ledger (client : Client) (state : State Client)
    (call : LedgerCall) (id : ChainCore.Encode.Uuid) (seq : Int64) :
    Alone (host Client) client (ledger call) state
      (.done (.accepted id seq call)) (state.note (.wrote call id seq)) :=
  .answer (.accept id seq) rfl (.stop _ _)

/-- The ledger accepts what a request without a run writes to mint one. -/
theorem alone_resolveOrMintRun (client : Client) {state : State Client}
    (undecided : Undecided state) (origin : String) :
    ∃ resolved after,
      Alone (host Client) client (resolveOrMintRun service none origin)
          state (.done resolved) after ∧
        Undecided after := by
  have minted :=
    alone_ledger client state
      (.createRun "gateway" (.object [("origin", .string origin)])) 1 0
  have after :=
    undecided.wrote
      (.createRun "gateway" (.object [("origin", .string origin)])) 1 0
  cases unbound : service.binding.isEmpty with
  | true =>
      refine ⟨(1, true), _, minted.bind rfl ?_, after⟩
      rw [unbound]
      exact .stop _ _
  | false =>
      refine ⟨(1, true), _, minted.bind rfl ?_,
        after.wrote (.bindRun 1 service.binding) 1 0⟩
      rw [unbound]
      exact .answer (.accept 1 0) rfl (.stop _ _)

/-- A caller without a run posts to the endpoint of a routed tool. -/
theorem alone_proxy {tool backendUrl : String} (client : Client)
    (input : Json)
    (routed : resolve service.config.toolRoutes tool = some backendUrl) :
    ∃ runId called left,
      Alone (host Client) client
          (serve service (.tool tool none input)) .initial left
          (called.note (.forwarded ⟨runId, tool, backendUrl, input⟩)) ∧
        Undecided called := by
  have nothing : Undecided (.initial : State Client) := nofun
  rcases alone_resolveOrMintRun client nothing "tool_proxy" with
    ⟨resolved, minted, minting, undecided⟩
  have calling :=
    alone_ledger client minted
      (.appendEvent resolved.1 "tool_call"
        (.object [("tool", .string tool), ("input", input)])) 2 1
  -- the backend cannot be reached, which is known only afterwards
  refine ⟨resolved.1, _, .raise (.backend ""), ?_,
    undecided.wrote
      (.appendEvent resolved.1 "tool_call"
        (.object [("tool", .string tool), ("input", input)])) 2 1⟩
  simp only [serve, proxy, routed]
  refine minting.bind rfl (calling.bind rfl ?_)
  exact .answer (.respond (.error "")) rfl (.stop _ _)

/-- A state in which a call of a routed tool was forwarded unapproved. -/
theorem exists_unapproved
    (Client : Type) [DecidableEq Client] [Inhabited Client]
    {tool backendUrl : String}
    (routed : resolve service.config.toolRoutes tool = some backendUrl) :
    ∃ world : GatewayWorld Client,
      Reachable (gateway Client service) unrestricted world ∧
        ∃ earlier call,
          world.shared.history = earlier ++ [.forwarded call] ∧
            call.tool = tool ∧ ¬ Approved earlier call := by
  rcases alone_proxy (default : Client) .null routed with
    ⟨runId, called, left, alone, undecided⟩
  have served :
      ∃ world : GatewayWorld Client,
        Reachable (gateway Client service) unrestricted world ∧
          world.shared =
            called.note (.forwarded ⟨runId, tool, backendUrl, .null⟩) :=
    reachable_of_alone rfl alone
  rcases served with ⟨world, reached, here⟩
  refine
    ⟨world, reached, called.history, ⟨runId, tool, backendUrl, .null⟩, ?_,
      rfl, ?_⟩
  · rw [here]
    rfl
  · rintro ⟨id, pending, decision, member, _⟩
    exact undecided id pending decision member

/--
In every run of the gateway gated tools are forwarded only after an approval,
exactly if no gated tool has a route.
-/
theorem gatesHold_iff_unrouted
    (Client : Type) [DecidableEq Client] [Inhabited Client]
    (service : Service) :
    (∀ world : GatewayWorld Client,
        Reachable (gateway Client service) unrestricted world →
          GatesHold service.config world.shared.history) ↔
      ∀ tool, isGated service.config.gatedTools tool = true →
        resolve service.config.toolRoutes tool = none := by
  constructor
  · intro holds tool gated
    by_contra routed
    rcases Option.ne_none_iff_exists'.mp routed with ⟨backendUrl, routed⟩
    rcases exists_unapproved Client routed with
      ⟨world, reached, earlier, call, history, isTool, unapproved⟩
    apply unapproved
    apply holds world reached earlier call [] history
    rw [isTool]
    exact gated
  · intro unrouted world reached earlier call later history gated
    have forwarded :
        Happening.forwarded call ∈ world.shared.history := by
      rw [history]
      simp
    have routed := allRouted_of_reachable reached call forwarded
    rw [unrouted call.tool gated] at routed
    cases routed

/-- A gateway with one tool, which has a route and is gated. -/
def gatedService : Service where
  runtime :=
    { parseUuid := fun _ => none
      jsonFromSlice := fun _ => none
      fromUtf8Lossy := fun _ => ""
      debug := id }
  config :=
    { toolRoutes := ⟨[("bash", "http://bash-tool.svc:8080/exec")], by decide⟩
      gatedTools := ["bash"] }
  binding := ⟨none, none, none⟩

/-- A call of the gated tool is forwarded although nothing was approved. -/
theorem not_gatesHold_gatedService :
    ¬ ∀ (service : Service) (world : GatewayWorld Nat),
      Reachable (gateway Nat service) unrestricted world →
        GatesHold service.config world.shared.history := by
  intro holds
  have routed :
      resolve gatedService.config.toolRoutes "bash" =
        some "http://bash-tool.svc:8080/exec" := by
    decide
  rcases exists_unapproved Nat routed with
    ⟨world, reached, earlier, call, history, isTool, unapproved⟩
  apply unapproved
  apply holds gatedService world reached earlier call [] history
  rw [isTool]
  decide

end Runs

end Trackward.Gateway.Gates
