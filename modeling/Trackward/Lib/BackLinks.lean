import Trackward.Lib.Growth
import Trackward.Lib.KeyedLists
import Mathlib.Data.List.Chain
import Mathlib.Data.List.Nodup

/-!
# Lists whose entries name a predecessor

An append-only list grows by entries that each carry the name of a chosen
earlier entry, or nothing when there is none to choose.  `GrownBy choose` says
which one was chosen at every append.

When the entry chosen is always the one appended last, the list is a single
chain without forks.  When it is the one with the greatest stamp, it is such a
chain exactly if stamps increase along the list, the last entry excepted.
-/

namespace Trackward.Lib.BackLinks

open Trackward.Lib.Growth
open Trackward.Lib.KeyedLists

variable {α ν κ : Type}

section Links

variable (name : α → ν) (link : α → Option ν)

/-- Every entry names the entry `choose` selects among those before it. -/
def GrownBy (choose : List α → Option α) (entries : List α) : Prop :=
  Grows (fun before entry => link entry = (choose before).map name) entries

/-- Every entry names the entry right before it. -/
def Unforked (entries : List α) : Prop :=
  GrownBy name link List.getLast? entries

variable {name link}

theorem grownBy_nil (choose : List α → Option α) :
    GrownBy name link choose [] :=
  grows_nil

theorem grownBy_concat_iff
    {choose : List α → Option α} {entries : List α} {entry : α} :
    GrownBy name link choose (entries ++ [entry]) ↔
      GrownBy name link choose entries ∧
        link entry = (choose entries).map name :=
  grows_concat_iff

end Links

/-! ## A chain without forks -/

variable {name : α → ν} {link : α → Option ν}

/-- In a chain, neighbours are linked. -/
theorem Unforked.isChain {entries : List α}
    (unforked : Unforked name link entries) :
    entries.IsChain fun first second => link second = some (name first) := by
  induction entries using List.reverseRecOn with
  | nil => exact .nil
  | append_singleton entries entry induction =>
      have split := grownBy_concat_iff.mp unforked
      rw [List.isChain_append]
      refine ⟨induction split.1, .singleton entry, ?_⟩
      intro last isLast first isFirst
      cases isFirst
      rw [split.2, Option.mem_def.mp isLast]
      rfl

/-- The links of a chain are nothing, followed by the names in order. -/
theorem Unforked.map_link {entries : List α}
    (unforked : Unforked name link entries) :
    entries.map link =
      (none :: entries.map fun entry => some (name entry)).dropLast := by
  induction entries using List.reverseRecOn with
  | nil => rfl
  | append_singleton entries entry induction =>
      have split := grownBy_concat_iff.mp unforked
      rw [List.map_append, induction split.1, List.map_append,
        ← List.cons_append, List.map_singleton, List.map_singleton,
        List.dropLast_concat]
      rcases List.eq_nil_or_concat' entries with rfl | ⟨init, last, rfl⟩
      · simp [split.2]
      · rw [List.map_append, List.map_singleton, ← List.cons_append,
          List.dropLast_concat, split.2, List.getLast?_concat]
        rfl

/-- A nonempty chain has one entry without a predecessor. -/
theorem Unforked.countP_root {entries : List α}
    (unforked : Unforked name link entries) (nonempty : entries ≠ []) :
    entries.countP (fun entry => (link entry).isNone) = 1 := by
  induction entries using List.reverseRecOn with
  | nil => exact absurd rfl nonempty
  | append_singleton entries entry induction =>
      have split := grownBy_concat_iff.mp unforked
      rw [List.countP_append]
      rcases List.eq_nil_or_concat' entries with rfl | ⟨init, last, rfl⟩
      · simp [split.2]
      · rw [induction split.1 (by simp)]
        simp [split.2]

/-- With distinct names no two entries of a chain have one predecessor. -/
theorem Unforked.nodup_map_link {entries : List α}
    (unforked : Unforked name link entries)
    (distinct : (entries.map name).Nodup) : (entries.map link).Nodup := by
  have names : (entries.map fun entry => some (name entry)).Nodup := by
    have mapped := distinct.map (Option.some_injective ν)
    rwa [List.map_map] at mapped
  rw [unforked.map_link]
  apply List.Nodup.sublist (List.dropLast_sublist _)
  rw [List.nodup_cons]
  exact ⟨by simp, names⟩

/-- Linked neighbours and a single root are all there is to a chain. -/
theorem unforked_of_isChain {entries : List α}
    (linked :
      entries.IsChain fun first second => link second = some (name first))
    (root : ∀ first ∈ entries.head?, link first = none) :
    Unforked name link entries := by
  induction entries using List.reverseRecOn with
  | nil => exact grownBy_nil _
  | append_singleton entries entry induction =>
      rw [List.isChain_append] at linked
      apply grownBy_concat_iff.mpr
      rcases List.eq_nil_or_concat' entries with rfl | ⟨init, last, rfl⟩
      · exact ⟨grownBy_nil _, root entry rfl⟩
      · refine ⟨induction linked.1 ?_, ?_⟩
        · intro first isFirst
          apply root first
          rw [List.head?_append, Option.mem_def.mp isFirst]
          rfl
        · have neighbours := linked.2.2 last (by simp) entry rfl
          rw [neighbours]
          simp

/-- In linked neighbours only the first entry may lack a predecessor. -/
theorem isSome_link_of_isChain {first entry : α} {rest : List α}
    (linked :
      (first :: rest).IsChain fun first second =>
        link second = some (name first))
    (member : entry ∈ rest) : (link entry).isSome = true := by
  induction rest generalizing first with
  | nil => cases member
  | cons second rest induction =>
      rw [List.isChain_cons_cons] at linked
      rcases List.mem_cons.mp member with rfl | later
      · rw [linked.1]
        rfl
      · exact induction linked.2 later

/--
A chain is described by three observations: one entry has no predecessor, no
two entries share one, and neighbours are linked.
-/
theorem unforked_iff {entries : List α}
    (distinct : (entries.map name).Nodup) :
    Unforked name link entries ↔
      (entries ≠ [] →
          entries.countP (fun entry => (link entry).isNone) = 1) ∧
        (entries.map link).Nodup ∧
          entries.IsChain fun first second =>
            link second = some (name first) := by
  constructor
  · intro unforked
    exact ⟨unforked.countP_root, unforked.nodup_map_link distinct,
      unforked.isChain⟩
  · rintro ⟨root, _, linked⟩
    apply unforked_of_isChain linked
    intro first isFirst
    cases entries with
    | nil => cases isFirst
    | cons head rest =>
        cases isFirst
        have others : rest.countP (fun entry => (link entry).isNone) = 0 := by
          apply List.countP_eq_zero.mpr
          intro entry member absurdity
          have some := isSome_link_of_isChain linked member
          rw [Option.isNone_iff_eq_none.mp absurdity] at some
          cases some
        have count := root (List.cons_ne_nil _ _)
        rw [List.countP_cons, others] at count
        by_contra missing
        rw [← ne_eq, ← Option.isSome_iff_ne_none, Option.isSome_iff_exists]
          at missing
        rcases missing with ⟨predecessor, present⟩
        simp [present] at count

/-! ## Walks to the root -/

/-- Entries in order, each linked to the one before it. -/
def IsWalk (name : α → ν) (link : α → Option ν) (entries walk : List α) :
    Prop :=
  walk.Sublist entries ∧
    walk.IsChain fun first second => link second = some (name first)

/-- Without a predecessor there was nothing to choose from. -/
theorem GrownBy.root_iff {choose : List α → Option α} {first : α}
    {rest : List α}
    (some_of_cons :
      ∀ entry before, (choose (entry :: before)).isSome = true)
    (none_of_nil : choose [] = none)
    (grown : GrownBy name link choose (first :: rest)) :
    link first = none ∧ ∀ entry ∈ rest, (link entry).isSome = true := by
  constructor
  · rw [grown [] first ⟨rest, rfl⟩, none_of_nil]
    rfl
  · intro entry member
    rcases List.append_of_mem member with ⟨before, after, rfl⟩
    rw [grown (first :: before) entry ⟨after, by simp⟩, Option.isSome_map]
    exact some_of_cons first before

/-- From every entry a walk leads back to one without a predecessor. -/
theorem GrownBy.exists_walk {choose : List α → Option α} {entries : List α}
    (chooses :
      ∀ before chosen, choose before = some chosen → chosen ∈ before)
    (grown : GrownBy name link choose entries) {entry : α}
    (member : entry ∈ entries) :
    ∃ root walk,
      IsWalk name link entries (root :: walk) ∧ link root = none ∧
        (root :: walk).getLast? = some entry := by
  induction entries using List.reverseRecOn generalizing entry with
  | nil => cases member
  | append_singleton entries last induction =>
      have split := grownBy_concat_iff.mp grown
      have kept : entries.Sublist (entries ++ [last]) :=
        List.sublist_append_left entries [last]
      rcases List.mem_append.mp member with old | new
      · rcases induction split.1 old with ⟨root, walk, isWalk, rest⟩
        exact ⟨root, walk, ⟨isWalk.1.trans kept, isWalk.2⟩, rest⟩
      · rw [List.mem_singleton.mp new]
        cases chosen : choose entries with
        | none =>
            refine ⟨last, [], ⟨?_, .singleton last⟩, ?_, rfl⟩
            · exact List.sublist_append_right entries [last]
            · rw [split.2, chosen]
              rfl
        | some predecessor =>
            -- the walk of the predecessor is extended by one entry
            rcases induction split.1 (chooses entries predecessor chosen) with
              ⟨root, walk, isWalk, isRoot, ends⟩
            refine ⟨root, walk ++ [last], ⟨?_, ?_⟩, isRoot, ?_⟩
            · exact isWalk.1.append (List.Sublist.refl [last])
            · rw [← List.cons_append, List.isChain_append]
              refine ⟨isWalk.2, .singleton last, ?_⟩
              intro one isOne two isTwo
              cases isTwo
              rw [Option.mem_def, ends] at isOne
              cases isOne
              rw [split.2, chosen]
              rfl
            · rw [← List.cons_append]
              exact List.getLast?_concat

/-! ## Links to the greatest stamp -/

variable [LinearOrder κ]

/-- The greatest stamp is the last one iff it exceeds all before it. -/
theorem greatest_concat_eq_last_iff
    {stamp : α → κ} {entries : List α} {last : α}
    (fresh : last ∉ entries) :
    greatest stamp (entries ++ [last]) = some last ↔
      ∀ entry ∈ entries, stamp entry < stamp last := by
  rw [greatest, List.argmax_concat]
  cases chosen : List.argmax stamp entries with
  | none =>
      rw [List.argmax_eq_none.mp chosen]
      simp
  | some most =>
      have member : most ∈ entries := List.argmax_mem chosen
      have different : most ≠ last := by
        rintro rfl
        exact fresh member
      dsimp only
      split
      · rename_i less
        simp only [true_iff]
        intro entry present
        exact (List.le_of_mem_argmax present chosen).trans_lt less
      · rename_i notLess
        simp only [Option.some.injEq, different, false_iff]
        exact fun above => notLess (above most member)

/--
A list grown by naming the greatest stamp is a chain exactly if the stamps of
all entries but the last increase.
-/
theorem unforked_iff_of_grownBy_greatest
    {stamp : α → κ} {entries : List α}
    (distinct : (entries.map name).Nodup)
    (grown : GrownBy name link (greatest stamp) entries) :
    Unforked name link entries ↔
      entries.dropLast.Pairwise fun first second =>
        stamp first < stamp second := by
  induction entries using List.reverseRecOn with
  | nil => simp [Unforked, grownBy_nil]
  | append_singleton entries entry induction =>
      have split := grownBy_concat_iff.mp grown
      rw [List.map_append, List.nodup_append] at distinct
      have unforked := induction distinct.1 split.1
      rw [Unforked, grownBy_concat_iff, List.dropLast_concat, split.2]
      show Unforked name link entries ∧ _ ↔ _
      rw [unforked]
      rcases List.eq_nil_or_concat' entries with rfl | ⟨init, last, rfl⟩
      · simp
      · have names := distinct.1
        rw [List.map_append, List.nodup_append] at names
        have fresh : last ∉ init := by
          intro member
          exact names.2.2 _ (List.mem_map_of_mem member) _
            (by simp) rfl
        have chosen :
            ∀ most ∈ init ++ [last],
              name most = name last → most = last := by
          intro most member same
          exact
            List.inj_on_of_nodup_map distinct.1 member (by simp) same
        rw [List.dropLast_concat, List.getLast?_concat,
          List.pairwise_append]
        simp only [List.pairwise_singleton, true_and, List.mem_singleton,
          forall_eq]
        rw [← greatest_concat_eq_last_iff fresh]
        refine and_congr_right fun _ => ?_
        cases selected : greatest stamp (init ++ [last]) with
        | none => simp
        | some most =>
            have member := List.argmax_mem selected
            simp only [Option.map_some, Option.some.injEq]
            constructor
            · exact chosen most member
            · rintro rfl
              rfl

end Trackward.Lib.BackLinks
