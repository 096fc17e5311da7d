import Trackward.Lib.MerkleTree
import Mathlib.Logic.Function.Iterate

/-!
# Hash trees of any two lengths

Because odd nodes are paired with themselves, leaf lists of different lengths
can have one root.  They differ in one way only: the longer list goes on from
the shorter one by repeating one of its nodes.  This relation is preserved from
a level to the level below it, so equal roots relate the levels at the same
distance from the root.
-/

namespace Trackward.Lib.MerkleTree

open Trackward.Lib.Collisions

variable {α β δ ι : Type}

/-! ## Levels that differ by a repetition -/

/-- A level goes on from another by repeating one of its nodes. -/
def Repeats (short long : List α) : Prop :=
  ∃ last ∈ short, short ++ [last] <+: long

/-- Two levels are equal, or one goes on from the other by a repetition. -/
def Agree (first second : List α) : Prop :=
  first = second ∨ Repeats first second ∨ Repeats second first

theorem Agree.symm {first second : List α} (agree : Agree first second) :
    Agree second first := by
  rcases agree with same | longer | shorter
  · exact Or.inl same.symm
  · exact Or.inr (Or.inr longer)
  · exact Or.inr (Or.inl shorter)

theorem Repeats.cons {short long : List α} (repeats : Repeats short long)
    (first : α) : Repeats (first :: short) (first :: long) := by
  rcases repeats with ⟨last, member, goesOn⟩
  exact
    ⟨last, List.mem_cons_of_mem _ member,
      List.cons_prefix_cons.mpr ⟨rfl, goesOn⟩⟩

theorem Agree.cons {rest rest' : List α} (agree : Agree rest rest')
    (first : α) : Agree (first :: rest) (first :: rest') := by
  rcases agree with same | longer | shorter
  · exact Or.inl (by rw [same])
  · exact Or.inr (Or.inl (longer.cons first))
  · exact Or.inr (Or.inr (shorter.cons first))

theorem not_nodup_of_repeats {short long : List α}
    (repeats : Repeats short long) : ¬ long.Nodup := by
  rcases repeats with ⟨last, member, goesOn⟩
  intro distinct
  have small := distinct.sublist goesOn.sublist
  rw [List.nodup_append] at small
  exact small.2.2 last member last (List.mem_singleton.mpr rfl) rfl

/-- Without repetitions the levels are equal. -/
theorem Agree.eq_of_nodup {first second : List α}
    (agree : Agree first second) (distinct : first.Nodup)
    (distinct' : second.Nodup) : first = second := by
  rcases agree with same | longer | shorter
  · exact same
  · exact absurd distinct' (not_nodup_of_repeats longer)
  · exact absurd distinct (not_nodup_of_repeats shorter)

theorem head?_of_repeats {short long : List α}
    (repeats : Repeats short long) : short.head? = long.head? := by
  rcases repeats with ⟨last, member, rest, rfl⟩
  cases short with
  | nil => cases member
  | cons first others => rfl

/-- The levels begin with the same node. -/
theorem Agree.head? {first second : List α} (agree : Agree first second) :
    first.head? = second.head? := by
  rcases agree with same | longer | shorter
  · rw [same]
  · exact head?_of_repeats longer
  · exact (head?_of_repeats shorter).symm

/-! ## From the pairs to the level -/

theorem mem_of_mem_pairs {level : List α} {left right : α}
    (member : (left, right) ∈ pairs level) : left ∈ level := by
  induction level using pairs.induct with
  | case1 one other rest induction =>
      rw [pairs, List.mem_cons] at member
      rcases member with head | tail
      · rw [Prod.mk.injEq] at head
        rw [head.1]
        exact List.mem_cons_self
      · exact List.mem_cons_of_mem _ (List.mem_cons_of_mem _ (induction tail))
  | case2 last =>
      rw [pairs, List.mem_singleton, Prod.mk.injEq] at member
      rw [member.1]
      exact List.mem_cons_self
  | case3 => cases member

/-- Where the pairs go on, the level goes on or repeats its last node. -/
theorem goesOn_of_pairs {level level' : List α} {left right : α}
    (goesOn : pairs level ++ [(left, right)] <+: pairs level') :
    level ++ [left] <+: level' ∨ Repeats level level' := by
  induction level using pairs.induct generalizing level' with
  | case1 one other rest induction =>
      rcases level' with _ | ⟨one', _ | ⟨other', rest'⟩⟩
      · rw [pairs, pairs, List.cons_append, List.prefix_nil] at goesOn
        cases goesOn
      · rw [pairs, pairs, List.cons_append, List.cons_prefix_cons,
          List.prefix_nil] at goesOn
        cases List.append_eq_nil_iff.mp goesOn.2 with
        | intro _ none => cases none
      · rw [pairs, pairs, List.cons_append, List.cons_prefix_cons,
          Prod.mk.injEq] at goesOn
        rcases goesOn with ⟨⟨rfl, rfl⟩, tails⟩
        rcases induction tails with longer | repeats
        · left
          exact
            List.cons_prefix_cons.mpr
              ⟨rfl, List.cons_prefix_cons.mpr ⟨rfl, longer⟩⟩
        · right
          exact (repeats.cons other).cons one
  | case2 last =>
      rcases level' with _ | ⟨one', _ | ⟨other', rest'⟩⟩
      · rw [pairs, pairs, List.cons_append, List.prefix_nil] at goesOn
        cases goesOn
      · rw [pairs, pairs, List.cons_append, List.cons_prefix_cons,
          List.prefix_nil] at goesOn
        cases goesOn.2
      · rw [pairs, pairs, List.cons_append, List.cons_prefix_cons,
          Prod.mk.injEq] at goesOn
        rcases goesOn with ⟨⟨rfl, rfl⟩, _⟩
        right
        exact
          ⟨last, List.mem_singleton.mpr rfl,
            List.cons_prefix_cons.mpr
              ⟨rfl, List.cons_prefix_cons.mpr ⟨rfl, List.nil_prefix⟩⟩⟩
  | case3 =>
      left
      rcases level' with _ | ⟨one', _ | ⟨other', rest'⟩⟩
      · rw [pairs, List.nil_append, List.prefix_nil] at goesOn
        cases goesOn
      · rw [pairs, pairs, List.nil_append, List.cons_prefix_cons,
          Prod.mk.injEq] at goesOn
        rcases goesOn with ⟨⟨rfl, _⟩, _⟩
        exact List.prefix_rfl
      · rw [pairs, pairs, List.nil_append, List.cons_prefix_cons,
          Prod.mk.injEq] at goesOn
        rcases goesOn with ⟨⟨rfl, _⟩, _⟩
        exact List.cons_prefix_cons.mpr ⟨rfl, List.nil_prefix⟩

theorem repeats_of_pairs {level level' : List α}
    (repeats : Repeats (pairs level) (pairs level')) :
    Repeats level level' := by
  rcases repeats with ⟨⟨left, right⟩, member, goesOn⟩
  rcases goesOn_of_pairs goesOn with longer | repeats
  · exact ⟨left, mem_of_mem_pairs member, longer⟩
  · exact repeats

theorem pairs_eq_nil_iff {level : List α} : pairs level = [] ↔ level = [] := by
  rw [← List.length_eq_zero_iff, length_pairs, ← List.length_eq_zero_iff]
  omega

/-- A node and the node repeated. -/
theorem repeats_twice (node : α) : Repeats [node] [node, node] :=
  ⟨node, List.mem_singleton.mpr rfl, List.prefix_rfl⟩

/-- Levels with the same pairs agree: one may repeat its last node. -/
theorem agree_of_pairs_eq {level level' : List α}
    (same : pairs level = pairs level') : Agree level level' := by
  induction level using pairs.induct generalizing level' with
  | case1 one other rest induction =>
      rcases level' with _ | ⟨one', _ | ⟨other', rest'⟩⟩
      · cases same
      · rw [pairs, pairs, List.cons.injEq, Prod.mk.injEq, pairs_eq_nil_iff]
          at same
        rw [same.1.1, same.1.2, same.2]
        exact Or.inr (Or.inr (repeats_twice one'))
      · rw [pairs, pairs, List.cons.injEq, Prod.mk.injEq] at same
        rcases same with ⟨⟨rfl, rfl⟩, tails⟩
        exact ((induction tails).cons other).cons one
  | case2 last =>
      rcases level' with _ | ⟨one', _ | ⟨other', rest'⟩⟩
      · cases same
      · rw [pairs, pairs, List.cons.injEq, Prod.mk.injEq] at same
        exact Or.inl (by rw [same.1.1])
      · rw [pairs, pairs, List.cons.injEq, Prod.mk.injEq] at same
        rw [← same.1.1, ← same.1.2, pairs_eq_nil_iff.mp same.2.symm]
        exact Or.inr (Or.inl (repeats_twice last))
  | case3 =>
      rw [pairs, eq_comm, pairs_eq_nil_iff] at same
      exact Or.inl same.symm

/-- Where the pairs agree, the levels agree. -/
theorem agree_of_pairs {level level' : List α}
    (agree : Agree (pairs level) (pairs level')) : Agree level level' := by
  rcases agree with same | longer | shorter
  · exact agree_of_pairs_eq same
  · exact Or.inr (Or.inl (repeats_of_pairs longer))
  · exact Or.inr (Or.inr (repeats_of_pairs shorter))

/-! ## Through a hash function -/

theorem repeats_of_map {hash : ι → δ} {inputs short long : List ι}
    (free : CollisionFree hash inputs)
    (included : ∀ input ∈ short, input ∈ inputs)
    (included' : ∀ input ∈ long, input ∈ inputs)
    (repeats : Repeats (short.map hash) (long.map hash)) :
    Repeats short long := by
  rcases repeats with ⟨digest, member, goesOn⟩
  rcases List.mem_map.mp member with ⟨last, inside, rfl⟩
  have image : (short ++ [last]).map hash <+: long.map hash := by
    rw [List.map_append]
    exact goesOn
  have taken := List.prefix_iff_eq_take.mp image
  rw [List.length_map, ← List.map_take] at taken
  have same :=
    free.map_inj
      (by
        intro input member
        rcases List.mem_append.mp member with early | final
        · exact included input early
        · rw [List.mem_singleton.mp final]
          exact included last inside)
      (fun input member => included' input (List.mem_of_mem_take member))
      taken
  exact ⟨last, inside, List.prefix_iff_eq_take.mpr same⟩

/-- Without a collision inputs agree if their digests do. -/
theorem agree_of_map {hash : ι → δ} {inputs first second : List ι}
    (free : CollisionFree hash inputs)
    (included : ∀ input ∈ first, input ∈ inputs)
    (included' : ∀ input ∈ second, input ∈ inputs)
    (agree : Agree (first.map hash) (second.map hash)) :
    Agree first second := by
  rcases agree with same | longer | shorter
  · exact Or.inl (free.map_inj included included' same)
  · exact Or.inr (Or.inl (repeats_of_map free included included' longer))
  · exact Or.inr (Or.inr (repeats_of_map free included' included shorter))

theorem agree_of_injective {node : α → β} (injective : Function.Injective node)
    {first second : List α}
    (agree : Agree (first.map node) (second.map node)) :
    Agree first second := by
  have free : CollisionFree node (first ++ second) :=
    fun _ _ _ _ same => injective same
  exact
    agree_of_map free (fun _ member => List.mem_append_left _ member)
      (fun _ member => List.mem_append_right _ member) agree

/-! ## Down from the root -/

section Climbing

variable {hash : ι → δ} {node : δ × δ → ι}

/-- The number of levels climbed from a level of this length. -/
def height : Nat → Nat → Nat
  | 0, _ => 0
  | fuel + 1, length =>
      if 1 < length then height fuel ((length + 1) / 2) + 1 else 0

theorem climb_eq_iterate (fuel : Nat) (level : List δ) :
    climb hash node fuel level =
      (next hash node)^[height fuel level.length] level := by
  induction fuel generalizing level with
  | zero => rfl
  | succ fuel induction =>
      rw [climb, height]
      split
      · rw [induction, length_next, Function.iterate_succ_apply]
      · rfl

/-- What is hashed on the way up is hashed while climbing. -/
theorem mem_climbInputs {fuel steps : Nat} {level : List δ} {input : ι}
    (below : steps < height fuel level.length)
    (member : input ∈ (pairs ((next hash node)^[steps] level)).map node) :
    input ∈ climbInputs hash node fuel level := by
  induction fuel generalizing level steps with
  | zero => cases below
  | succ fuel induction =>
      rw [height] at below
      rw [climbInputs]
      split at below
      · rename_i several
        rw [if_pos several]
        cases steps with
        | zero => exact List.mem_append_left _ member
        | succ steps =>
            rw [Function.iterate_succ_apply] at member
            apply List.mem_append_right
            apply induction _ member
            rw [length_next]
            omega
      · cases below

/-- Levels at the same distance from equal roots agree. -/
theorem agree_of_climb
    (nodeInjective : Function.Injective node) {inputs : List ι}
    (free : CollisionFree hash inputs) {fuel fuel' : Nat}
    {level level' : List δ}
    (hashed : ∀ input ∈ climbInputs hash node fuel level, input ∈ inputs)
    (hashed' : ∀ input ∈ climbInputs hash node fuel' level', input ∈ inputs)
    (same : climb hash node fuel level = climb hash node fuel' level')
    {distance : Nat} (within : distance ≤ height fuel level.length)
    (within' : distance ≤ height fuel' level'.length) :
    Agree
      ((next hash node)^[height fuel level.length - distance] level)
      ((next hash node)^[height fuel' level'.length - distance] level') := by
  induction distance with
  | zero =>
      rw [climb_eq_iterate, climb_eq_iterate] at same
      exact Or.inl same
  | succ distance induction =>
      have above := induction (by omega) (by omega)
      have step :
          height fuel level.length - distance =
            height fuel level.length - (distance + 1) + 1 := by omega
      have step' :
          height fuel' level'.length - distance =
            height fuel' level'.length - (distance + 1) + 1 := by omega
      rw [step, step', Function.iterate_succ_apply',
        Function.iterate_succ_apply', next, next] at above
      apply agree_of_pairs
      apply agree_of_injective nodeInjective
      exact
        agree_of_map free
          (fun input member => hashed input (mem_climbInputs (by omega) member))
          (fun input member =>
            hashed' input (mem_climbInputs (by omega) member))
          above

end Climbing

end Trackward.Lib.MerkleTree
