import Trackward.Gateway.Handlers
import Trackward.Gateway.Registry
import Trackward.Lib.Progress

/-!
# How a gateway starts

A gateway that starts looks up the versions it was configured with in its
registry directory, registers them with the ledger, and asks for the last
evaluation.  The runs it creates later are bound to what it was answered.  A
gateway that fails to find out starts all the same, bound to nothing.
-/

namespace Trackward.Gateway.Boot

open Trackward.ChainCore.Encode
open Trackward.Gateway.Calls
open Trackward.Gateway.Registry
open Trackward.Lib
open Trackward.Lib.Octets
open Trackward.Lib.Programs
open Trackward.Lib.Programs.Program
  (Between Tracks tracks_bind tracks_of_onlyCalls)

/-! ## The registry directory -/

/-- What is at the paths of a registry directory, and what reading it gives. -/
structure RegistryDir where
  prompts : String → String → Option (Except String Directory)
  policies : String → String → Option (Except String Bytes)

/-- Which versions a gateway was configured with. -/
structure RegistryBinding where
  registryDir : Option RegistryDir
  promptWorkflow : Option String
  promptVersion : Option String
  policyScope : Option String
  policyVersion : Option String
  gitSha : Option String

/-- A version that is in the registry directory. -/
structure Source (α : Type) where
  name : String
  version : String
  content : α

/-- Look up a version, if one is configured. -/
def lookUp {α : Type} (paths : String → String → Option (Except String α))
    (name version : Option String) : Option (Source α) := do
  let name ← name
  let version ← version
  let read ← paths name version
  let content ← read.toOption
  return ⟨name, version, content⟩

namespace RegistryBinding

variable (registry : RegistryBinding)

/-- The prompt that a gateway finds. -/
def prompt? : Option (Source Directory) := do
  let base ← registry.registryDir
  lookUp base.prompts registry.promptWorkflow registry.promptVersion

/-- The policy that a gateway finds. -/
def policy? : Option (Source Bytes) := do
  let base ← registry.registryDir
  lookUp base.policies registry.policyScope registry.policyVersion

/-- The workflow and the version whose evaluations a gateway asks for. -/
def evaluated? : Option (String × String) := do
  let _ ← registry.registryDir
  let workflow ← registry.promptWorkflow
  let version ← registry.promptVersion
  return (workflow, version)

end RegistryBinding

/-! ## Calls to the ledger -/

/-- What a gateway asks of the ledger when it starts. -/
inductive RegistryCall where
  | registerPromptVersion (workflow version gitSha contentHash : String)
  | registerPolicyVersion (scope version gitSha contentHash : String)
  | latestEvalResult (workflow version : String)

/-- What each of these answers. -/
def RegistryCall.Reply : RegistryCall → Type
  | .registerPromptVersion _ _ _ _ => Uuid
  | .registerPolicyVersion _ _ _ _ => Uuid
  | .latestEvalResult _ _ => Option Uuid

/-- The interface of a gateway that starts. -/
def registryHost : Interface where
  Op := RegistryCall
  Answer := fun call => Except String call.Reply

/-- A step of the start. -/
abbrev Booting (α : Type) := Program registryHost Error α

/-- A call to the ledger with its answer. -/
abbrev RegistryEvent := Program.Event registryHost

/-- Ask the ledger. -/
def ask (call : RegistryCall) : Booting call.Reply :=
  .call call fun answer =>
    match answer with
    | .ok reply => .done reply
    | .error text => .raise (.ledger text)

/-! ## `registry::resolve` -/

section Resolve

variable (sha256 : Bytes → Digest)

/-- Register a version, if it is there. -/
def resolveVersion {α : Type}
    (paths : String → String → Option (Except String α))
    (name version : Option String) (register : Source α → Booting Uuid) :
    Booting (Option Uuid) :=
  match name, version with
  | some name, some version =>
      match paths name version with
      | none => .done none
      | some (.error text) => .raise (.internal text)
      | some (.ok content) => do
          let id ← register ⟨name, version, content⟩
          return some id
  | _, _ => .done none

/-- Register a prompt with the hash of its directory. -/
def registerPrompt (gitSha : String) (source : Source Directory) :
    Booting Uuid :=
  ask
    (.registerPromptVersion source.name source.version gitSha
      (hashDirectory sha256 source.content))

/-- Register a policy with the hash of its file. -/
def registerPolicy (gitSha : String) (source : Source Bytes) :
    Booting Uuid :=
  ask
    (.registerPolicyVersion source.name source.version gitSha
      (Hexadecimal.encode (sha256 source.content).bytes))

/-- Ask for the last evaluation of the prompt. -/
def resolveEval (registry : RegistryBinding) : Booting (Option Uuid) :=
  match registry.promptWorkflow, registry.promptVersion with
  | some workflow, some version => ask (.latestEvalResult workflow version)
  | _, _ => .done none

/-- Nothing to bind a run to. -/
def unbound : ResolvedBinding where
  promptVersionId := none
  policyVersionId := none
  evalResultId := none

/-- What a gateway binds its runs to. -/
def resolve (registry : RegistryBinding) : Booting ResolvedBinding :=
  match registry.registryDir with
  | none => .done unbound
  | some base => do
      let gitSha := registry.gitSha.getD "unknown"
      let promptVersionId ←
        resolveVersion base.prompts registry.promptWorkflow
          registry.promptVersion (registerPrompt sha256 gitSha)
      let policyVersionId ←
        resolveVersion base.policies registry.policyScope
          registry.policyVersion (registerPolicy sha256 gitSha)
      let evalResultId ← resolveEval registry
      return {
        promptVersionId := promptVersionId
        policyVersionId := policyVersionId
        evalResultId := evalResultId }

end Resolve

/-- Go on with a default where a program has raised an error. -/
def recover {interface : Interface} {ε ε' α : Type} (default : α) :
    Program interface ε α → Program interface ε' α
  | .done value => .done value
  | .raise _ => .done default
  | .call op next => .call op fun answer => recover default (next answer)

/-- `build_router_with_registry`: an error is logged, and nothing is bound. -/
def bootBinding {ε : Type} (sha256 : Bytes → Digest)
    (registry : RegistryBinding) : Program registryHost ε ResolvedBinding :=
  recover unbound (resolve sha256 registry)

/-- A program with a default has raised no error, or goes on with it. -/
theorem executes_recover {interface : Interface} {ε ε' α : Type}
    {default : α} {program : Program interface ε α}
    {events : List (Program.Event interface)} {outcome : Except ε' α}
    (ran : (recover default program).Executes events outcome) :
    (∃ value, outcome = .ok value ∧ program.Executes events (.ok value)) ∨
      outcome = .ok default := by
  induction program generalizing events with
  | done value =>
      rcases Program.executes_done_iff.mp ran with ⟨rfl, rfl⟩
      exact Or.inl ⟨value, rfl, .done value⟩
  | raise error =>
      rcases Program.executes_done_iff.mp ran with ⟨rfl, rfl⟩
      exact Or.inr rfl
  | call op next induction =>
      rcases Program.executes_call_iff.mp ran with
        ⟨answer, rest, rfl, continued⟩
      rcases induction answer continued with ⟨value, rfl, ran'⟩ | same
      · exact Or.inl ⟨value, rfl, .call answer ran'⟩
      · exact Or.inr same

/-! ## What a start was answered -/

/-- The ledger has answered with this id when the prompt was registered. -/
def PromptRegistered (sha256 : Bytes → Digest) (events : List RegistryEvent)
    (source : Source Directory) (id : Uuid) : Prop :=
  ∃ gitSha,
    ⟨.registerPromptVersion source.name source.version gitSha
        (hashDirectory sha256 source.content),
      .ok id⟩ ∈ events

/-- The ledger has answered with this id when the policy was registered. -/
def PolicyRegistered (sha256 : Bytes → Digest) (events : List RegistryEvent)
    (source : Source Bytes) (id : Uuid) : Prop :=
  ∃ gitSha,
    ⟨.registerPolicyVersion source.name source.version gitSha
        (Hexadecimal.encode (sha256 source.content).bytes),
      .ok id⟩ ∈ events

/-- What the binding says of the registry was answered by the ledger. -/
structure Answered (sha256 : Bytes → Digest) (registry : RegistryBinding)
    (events : List RegistryEvent) (binding : ResolvedBinding) : Prop where
  prompt :
    Option.Rel (PromptRegistered sha256 events) registry.prompt?
      binding.promptVersionId
  policy :
    Option.Rel (PolicyRegistered sha256 events) registry.policy?
      binding.policyVersionId
  eval :
    ∀ workflow version, registry.evaluated? = some (workflow, version) →
      ⟨.latestEvalResult workflow version, .ok binding.evalResultId⟩ ∈ events
  unevaluated : registry.evaluated? = none → binding.evalResultId = none

variable {sha256 : Bytes → Digest} {registry : RegistryBinding}

theorem rel_mono {α β : Type} {strong weak : α → β → Prop}
    (implies : ∀ first second, strong first second → weak first second)
    {first : Option α} {second : Option β}
    (related : Option.Rel strong first second) :
    Option.Rel weak first second := by
  cases related with
  | none => exact .none
  | some related => exact .some (implies _ _ related)

/-- A reply that a program goes on with is an answer of the ledger. -/
theorem executes_ask {call : RegistryCall} {events : List RegistryEvent}
    {reply : call.Reply} (ran : (ask call).Executes events (.ok reply)) :
    events = [⟨call, .ok reply⟩] := by
  rcases Program.executes_call_iff.mp ran with ⟨answer, rest, rfl, continued⟩
  rcases answer with text | found
  · cases continued
  · rcases Program.executes_done_iff.mp continued with ⟨rfl, same⟩
    cases same
    rfl

/-- A version has an id exactly if it was found, and was registered with it. -/
theorem rel_of_resolveVersion {α : Type}
    {paths : String → String → Option (Except String α)}
    {name version : Option String} {register : Source α → Booting Uuid}
    {events : List RegistryEvent} {found : Option Uuid}
    (ran :
      (resolveVersion paths name version register).Executes events
        (.ok found)) :
    Option.Rel (fun source id => (register source).Executes events (.ok id))
      (lookUp paths name version) found := by
  cases name with
  | none =>
      rcases Program.executes_done_iff.mp ran with ⟨_, ⟨⟩⟩
      exact .none
  | some name =>
      cases version with
      | none =>
          rcases Program.executes_done_iff.mp ran with ⟨_, ⟨⟩⟩
          exact .none
      | some version =>
          unfold resolveVersion at ran
          cases there : paths name version with
          | none =>
              simp only [there] at ran
              rcases Program.executes_done_iff.mp ran with ⟨_, ⟨⟩⟩
              simp [lookUp, there]
          | some read =>
              simp only [there] at ran
              rcases read with text | content
              · cases ran
              · have source :
                    lookUp paths (some name) (some version) =
                      some ⟨name, version, content⟩ := by
                  simp [lookUp, there, Except.toOption]
                rw [source]
                rcases Program.executes_bind_iff.mp ran with
                  ⟨_, _, ⟨⟩⟩ | ⟨id, before, after, rfl, asked, returned⟩
                rcases Program.executes_done_iff.mp returned with ⟨rfl, ⟨⟩⟩
                rw [List.append_nil]
                exact .some asked

/-- The last evaluation is asked for if there is a prompt to evaluate. -/
theorem eval_of_resolveEval {base : RegistryDir}
    (here : registry.registryDir = some base) {events : List RegistryEvent}
    {found : Option Uuid}
    (ran : (resolveEval registry).Executes events (.ok found)) :
    (∀ workflow version, registry.evaluated? = some (workflow, version) →
        ⟨.latestEvalResult workflow version, .ok found⟩ ∈ events) ∧
      (registry.evaluated? = none → found = none) := by
  unfold resolveEval at ran
  cases named : registry.promptWorkflow with
  | none =>
      simp only [named] at ran
      rcases Program.executes_done_iff.mp ran with ⟨_, ⟨⟩⟩
      simp [RegistryBinding.evaluated?, here, named]
  | some workflow =>
      cases numbered : registry.promptVersion with
      | none =>
          simp only [named, numbered] at ran
          rcases Program.executes_done_iff.mp ran with ⟨_, ⟨⟩⟩
          simp [RegistryBinding.evaluated?, here, named, numbered]
      | some version =>
          simp only [named, numbered] at ran
          have asked :
              registry.evaluated? = some (workflow, version) := by
            simp [RegistryBinding.evaluated?, here, named, numbered]
          rw [executes_ask ran, asked]
          constructor
          · rintro _ _ ⟨⟩
            exact List.mem_cons_self
          · intro absurdity
            cases absurdity

/-- A gateway that has found out what to bind was answered all of it. -/
theorem answered_of_resolve {events : List RegistryEvent}
    {binding : ResolvedBinding}
    (ran : (resolve sha256 registry).Executes events (.ok binding)) :
    Answered sha256 registry events binding := by
  unfold resolve at ran
  cases here : registry.registryDir with
  | none =>
      simp only [here] at ran
      rcases Program.executes_done_iff.mp ran with ⟨_, ⟨⟩⟩
      constructor
      · simp [RegistryBinding.prompt?, here, unbound]
      · simp [RegistryBinding.policy?, here, unbound]
      · simp [RegistryBinding.evaluated?, here]
      · exact fun _ => rfl
  | some base =>
      simp only [here] at ran
      rcases Program.executes_bind_iff.mp ran with
        ⟨_, _, ⟨⟩⟩ | ⟨prompt, first, others, rfl, prompts, ran⟩
      rcases Program.executes_bind_iff.mp ran with
        ⟨_, _, ⟨⟩⟩ | ⟨policy, second, others, rfl, policies, ran⟩
      rcases Program.executes_bind_iff.mp ran with
        ⟨_, _, ⟨⟩⟩ | ⟨eval, third, others, rfl, evals, returned⟩
      rcases Program.executes_done_iff.mp returned with ⟨rfl, ⟨⟩⟩
      rcases eval_of_resolveEval here evals with ⟨asked, unasked⟩
      constructor
      · rw [RegistryBinding.prompt?, here]
        refine rel_mono ?_ (rel_of_resolveVersion prompts)
        intro source id registered
        have one := executes_ask registered
        exact ⟨registry.gitSha.getD "unknown", by simp [one]⟩
      · rw [RegistryBinding.policy?, here]
        refine rel_mono ?_ (rel_of_resolveVersion policies)
        intro source id registered
        have one := executes_ask registered
        exact ⟨registry.gitSha.getD "unknown", by simp [one]⟩
      · intro workflow version evaluated
        have member := asked workflow version evaluated
        simp [member]
      · exact unasked

/-- A gateway starts with all that it was answered, or with nothing. -/
theorem answered_of_bootBinding {ε : Type} {events : List RegistryEvent}
    {binding : ResolvedBinding}
    (ran :
      (bootBinding sha256 registry : Program registryHost ε _).Executes events
        (.ok binding)) :
    Answered sha256 registry events binding ∨ binding = unbound := by
  rcases executes_recover ran with ⟨value, ⟨⟩, resolved⟩ | ⟨⟨⟩⟩
  · exact Or.inl (answered_of_resolve resolved)
  · exact Or.inr rfl

end Trackward.Gateway.Boot
