import Trackward.Lib.Collisions
import Mathlib.Data.List.Induction

/-!
# Hash chains

Each link of a chain is the digest of an input made from the previous link and
a payload; the first link is made from a fixed `genesis` value.  The last link
commits to all payloads: two chains with the same last link carry the same
payloads, unless two inputs collide or some link equals `genesis`.
-/

namespace Trackward.Lib.HashChain

open Trackward.Lib.Collisions

variable {ι δ β : Type}
variable (hash : ι → δ) (input : δ → β → ι)

/-- The links of a chain that starts from `previous`. -/
def links (previous : δ) : List β → List δ
  | [] => []
  | payload :: payloads =>
      let link := hash (input previous payload)
      link :: links link payloads

/-- The inputs hashed along a chain that starts from `previous`. -/
def inputs (previous : δ) : List β → List ι
  | [] => []
  | payload :: payloads =>
      input previous payload ::
        inputs (hash (input previous payload)) payloads

/-- The last link of a chain, or where it starts if it has none. -/
def tip (previous : δ) (payloads : List β) : δ :=
  payloads.foldl (fun link payload => hash (input link payload)) previous

variable {hash input}

theorem tip_append (previous : δ) (payloads : List β) (payload : β) :
    tip hash input previous (payloads ++ [payload]) =
      hash (input (tip hash input previous payloads) payload) := by
  simp [tip]

theorem inputs_append (previous : δ) (payloads : List β) (payload : β) :
    inputs hash input previous (payloads ++ [payload]) =
      inputs hash input previous payloads ++
        [input (tip hash input previous payloads) payload] := by
  induction payloads generalizing previous with
  | nil => rfl
  | cons first rest induction =>
      simp only [List.cons_append, inputs, induction]
      rfl

theorem links_append (previous : δ) (payloads : List β) (payload : β) :
    links hash input previous (payloads ++ [payload]) =
      links hash input previous payloads ++
        [tip hash input previous (payloads ++ [payload])] := by
  induction payloads generalizing previous with
  | nil => rfl
  | cons first rest induction =>
      simp only [List.cons_append, links, induction]
      rfl

/-- The links are the digests of the inputs. -/
theorem map_inputs (previous : δ) (payloads : List β) :
    (inputs hash input previous payloads).map hash =
      links hash input previous payloads := by
  induction payloads generalizing previous with
  | nil => rfl
  | cons first rest induction => simp [inputs, links, induction]

/-- The last link is where the chain ends. -/
theorem getLast?_links (previous : δ) {payloads : List β}
    (nonempty : payloads ≠ []) :
    (links hash input previous payloads).getLast? =
      some (tip hash input previous payloads) := by
  rcases List.eq_nil_or_concat payloads with rfl | ⟨front, payload, rfl⟩
  · exact absurd rfl nonempty
  · rw [List.concat_eq_append, links_append, List.getLast?_concat]

/--
Without a collision among the inputs hashed, and with no link equal to the
value chains start from, the last link determines the payloads.
-/
theorem tip_inj
    (inputInjective : ∀ previous payload previous' payload',
      input previous payload = input previous' payload' →
        previous = previous' ∧ payload = payload')
    {genesis : δ} {payloads payloads' : List β} {hashed : List ι}
    (free : CollisionFree hash hashed)
    (included : ∀ item ∈ inputs hash input genesis payloads, item ∈ hashed)
    (included' :
      ∀ item ∈ inputs hash input genesis payloads', item ∈ hashed)
    (noGenesis :
      ∀ item ∈ hashed, hash item ≠ genesis)
    (same :
      tip hash input genesis payloads = tip hash input genesis payloads') :
    payloads = payloads' := by
  induction payloads using List.reverseRecOn generalizing payloads' with
  | nil =>
      rcases List.eq_nil_or_concat payloads' with rfl | ⟨front, last, rfl⟩
      · rfl
      · rw [List.concat_eq_append] at same included'
        rw [tip_append] at same
        rw [inputs_append] at included'
        exact
          absurd same.symm
            (noGenesis _ (included' _ (by simp)))
  | append_singleton front last induction =>
      rw [inputs_append] at included
      rw [tip_append] at same
      rcases List.eq_nil_or_concat payloads' with rfl | ⟨front', last', rfl⟩
      · exact absurd same (noGenesis _ (included _ (by simp)))
      · rw [List.concat_eq_append] at same included' ⊢
        rw [tip_append] at same
        rw [inputs_append] at included'
        have linked :=
          inputInjective _ _ _ _
            (free _ (included _ (by simp)) _ (included' _ (by simp)) same)
        have fronts :=
          induction
            (fun item member => included item (by simp [member]))
            (fun item member => included' item (by simp [member]))
            linked.1
        rw [fronts, linked.2]

end Trackward.Lib.HashChain
