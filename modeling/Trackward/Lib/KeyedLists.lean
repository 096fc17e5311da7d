import Mathlib.Data.List.Forall2
import Mathlib.Data.List.MinMax
import Mathlib.Data.List.Perm.Basic
import Mathlib.Data.List.Sort

/-!
# Lists sorted by a key

`sortByKey` sorts the entries of a list by a key.  When the keys are distinct
the sorted list is determined by the set of entries, so sorting turns equality
up to the order of entries into plain equality.

`Reordered` compares two lists entry by entry after a rearrangement of the
second.  For a relation that respects the keys this is the same as comparing
the sorted lists entry by entry.

`greatest` is the first entry of the greatest key, and `keepLast` has the last
entry of each key.
-/

namespace Trackward.Lib.KeyedLists

variable {κ α β : Type} [LinearOrder κ]

/-- The entries of a list in the order of their keys. -/
def sortByKey (key : α → κ) (entries : List α) : List α :=
  entries.insertionSort fun first second => key first ≤ key second

/-- The first entry of the greatest key. -/
def greatest (key : α → κ) (entries : List α) : Option α :=
  entries.argmax key

@[simp]
theorem greatest_eq_none_iff {key : α → κ} {entries : List α} :
    greatest key entries = none ↔ entries = [] :=
  List.argmax_eq_none

theorem sortByKey_perm (key : α → κ) (entries : List α) :
    (sortByKey key entries).Perm entries :=
  List.perm_insertionSort _ entries

@[simp]
theorem mem_sortByKey {key : α → κ} {entries : List α} {entry : α} :
    entry ∈ sortByKey key entries ↔ entry ∈ entries :=
  (sortByKey_perm key entries).mem_iff

@[simp]
theorem length_sortByKey (key : α → κ) (entries : List α) :
    (sortByKey key entries).length = entries.length :=
  (sortByKey_perm key entries).length_eq

/-- The keys of a sorted list are in order. -/
theorem sortByKey_pairwise (key : α → κ) (entries : List α) :
    (sortByKey key entries).Pairwise
      fun first second => key first ≤ key second := by
  have total :
      Std.Total fun first second : α => key first ≤ key second :=
    ⟨fun first second => le_total (key first) (key second)⟩
  have transitive :
      IsTrans α fun first second => key first ≤ key second :=
    ⟨fun _ _ _ => le_trans⟩
  exact List.pairwise_insertionSort _ entries

/-- Sorting commutes with a map that keeps the keys. -/
theorem map_sortByKey
    {key : α → κ} {key' : β → κ} {translate : α → β}
    (keeps : ∀ entry, key' (translate entry) = key entry)
    (entries : List α) :
    (sortByKey key entries).map translate =
      sortByKey key' (entries.map translate) := by
  apply List.map_insertionSort
  intro first _ second _
  rw [keeps, keeps]

/-- Keys that are ordered alike sort alike. -/
theorem sortByKey_congr
    {κ' : Type} [LinearOrder κ'] {key : α → κ} {key' : α → κ'}
    {entries : List α}
    (agree :
      ∀ first ∈ entries, ∀ second ∈ entries,
        key first ≤ key second ↔ key' first ≤ key' second) :
    sortByKey key entries = sortByKey key' entries := by
  have unmoved :
      (sortByKey key entries).map id = sortByKey key' (entries.map id) :=
    List.map_insertionSort _ _ id entries agree
  rwa [List.map_id, List.map_id] at unmoved

/-- With distinct keys, sorting forgets the order of the entries. -/
theorem sortByKey_eq_of_perm
    {key : α → κ} {entries entries' : List α}
    (distinct : (entries.map key).Nodup)
    (perm : entries.Perm entries') :
    sortByKey key entries = sortByKey key entries' := by
  have sorted := sortByKey_pairwise key entries
  have sorted' := sortByKey_pairwise key entries'
  have rearranged :
      (sortByKey key entries).Perm (sortByKey key entries') :=
    (sortByKey_perm key entries).trans
      (perm.trans (sortByKey_perm key entries').symm)
  apply rearranged.eq_of_pairwise _ sorted sorted'
  intro first second member member' below above
  have sameKey : key first = key second := le_antisymm below above
  exact
    List.inj_on_of_nodup_map distinct
      (mem_sortByKey.mp member)
      (perm.mem_iff.mpr (mem_sortByKey.mp member')) sameKey

/-- Entries in strict order of their keys are what sorting them gives. -/
theorem sortByKey_eq_of_strict
    {key : α → κ} {entries entries' : List α}
    (perm : entries.Perm entries')
    (strict :
      entries'.Pairwise fun first second => key first < key second) :
    sortByKey key entries = entries' := by
  have rearranged : (sortByKey key entries).Perm entries' :=
    (sortByKey_perm key entries).trans perm
  apply rearranged.eq_of_pairwise _ (sortByKey_pairwise key entries)
    (strict.imp le_of_lt)
  intro first second _ member' below above
  have sameKey : key first = key second := le_antisymm below above
  have distinct : (entries'.map key).Nodup :=
    List.pairwise_map.mpr (strict.imp ne_of_lt)
  exact
    List.inj_on_of_nodup_map distinct
      (rearranged.mem_iff.mp ‹first ∈ _›) member' sameKey

/-- Two entries whose keys are in order keep their order. -/
theorem pair_sublist_sortByKey
    {key : α → κ} {first second : α} {entries : List α}
    (ordered : key first ≤ key second)
    (listed : [first, second].Sublist entries) :
    [first, second].Sublist (sortByKey key entries) :=
  List.pair_sublist_insertionSort ordered listed

/-! ## Cutting a list at a key -/

omit [LinearOrder κ] in
/-- What comes before all of a second list is inserted into the first. -/
theorem orderedInsert_append_of_forall {related : α → α → Prop}
    [DecidableRel related] {entry : α} {first second : List α}
    (before : ∀ other ∈ second, related entry other) :
    (first ++ second).orderedInsert related entry =
      first.orderedInsert related entry ++ second := by
  induction first with
  | nil =>
      cases second with
      | nil => rfl
      | cons other second =>
          have head := before other List.mem_cons_self
          simp [List.orderedInsert, head]
  | cons head first induction =>
      rw [List.cons_append, List.orderedInsert_cons, List.orderedInsert_cons,
        induction]
      split <;> rfl

omit [LinearOrder κ] in
/-- What comes after all of a first list is inserted into the second. -/
theorem append_orderedInsert_of_forall {related : α → α → Prop}
    [DecidableRel related] {entry : α} {first second : List α}
    (after : ∀ other ∈ first, ¬ related entry other) :
    (first ++ second).orderedInsert related entry =
      first ++ second.orderedInsert related entry := by
  induction first with
  | nil => rfl
  | cons head first induction =>
      rw [List.cons_append, List.orderedInsert_cons,
        if_neg (after head List.mem_cons_self),
        induction fun other member =>
          after other (List.mem_cons_of_mem _ member)]
      rfl

/-- The entries below a cut are sorted first, and then those above it. -/
theorem sortByKey_eq_append {key : α → κ} {below : α → Bool}
    (separated :
      ∀ first second, below first = true → below second = false →
        key first < key second)
    (entries : List α) :
    sortByKey key entries =
      sortByKey key (entries.filter below) ++
        sortByKey key (entries.filter fun entry => !below entry) := by
  induction entries with
  | nil => rfl
  | cons entry entries induction =>
      have whole :
          sortByKey key (entry :: entries) =
            (sortByKey key entries).orderedInsert
              (fun first second => key first ≤ key second) entry := rfl
      rw [whole, induction]
      cases side : below entry with
      | true =>
          rw [List.filter_cons_of_pos side,
            List.filter_cons_of_neg (by simp [side])]
          apply orderedInsert_append_of_forall
          intro other member
          rw [mem_sortByKey, List.mem_filter] at member
          exact (separated entry other side (by simpa using member.2)).le
      | false =>
          rw [List.filter_cons_of_neg (by simp [side]),
            List.filter_cons_of_pos (by simp [side])]
          apply append_orderedInsert_of_forall
          intro other member
          rw [mem_sortByKey, List.mem_filter] at member
          exact not_le_of_gt (separated other entry member.2 side)

/-! ## Classes of entries -/

/-- By class and, within a class, by key, the first entry may be listed first. -/
def ListedBefore {γ : Type} (classes : List γ) (classOf : α → γ)
    (key : α → κ) (first second : α) : Prop :=
  [classOf first, classOf second].Sublist classes ∨
    classOf first = classOf second ∧ key first ≤ key second

instance {γ : Type} [DecidableEq γ] (classes : List γ) (classOf : α → γ)
    (key : α → κ) (first second : α) :
    Decidable (ListedBefore classes classOf key first second) :=
  inferInstanceAs (Decidable (_ ∨ _))

/-- Sorted classes, one after the other, are listed by class and by key. -/
theorem flatMap_pairwise_listedBefore {γ : Type} {classes : List γ}
    {classOf : α → γ} {key : α → κ} {listing : γ → List α}
    (ofClass : ∀ here, ∀ entry ∈ listing here, classOf entry = here)
    (sorted :
      ∀ here,
        (listing here).Pairwise fun first second =>
          key first ≤ key second) :
    (classes.flatMap listing).Pairwise
      (ListedBefore classes classOf key) := by
  rw [List.pairwise_flatMap]
  constructor
  · intro here _
    refine (sorted here).imp_of_mem ?_
    intro first second member member' ordered
    exact Or.inr
      ⟨(ofClass here first member).trans (ofClass here second member').symm,
        ordered⟩
  · rw [List.pairwise_iff_forall_sublist]
    intro here there listed first member second member'
    left
    rw [ofClass here first member, ofClass there second member']
    exact listed

/-- Entries sorted into classes are the entries again, in another order. -/
theorem flatMap_filter_perm {γ : Type} [DecidableEq γ]
    (classOf : α → γ) {classes : List γ} (distinct : classes.Nodup)
    {entries : List α} (covered : ∀ entry ∈ entries, classOf entry ∈ classes) :
    (classes.flatMap fun here =>
      entries.filter fun entry => classOf entry = here).Perm entries := by
  induction classes generalizing entries with
  | nil =>
      have none : entries = [] := by
        rw [List.eq_nil_iff_forall_not_mem]
        intro entry member
        exact absurd (covered entry member) List.not_mem_nil
      rw [none]
      exact .refl _
  | cons first rest induction =>
      rw [List.nodup_cons] at distinct
      let others := entries.filter fun entry => !(classOf entry = first : Bool)
      have elsewhere :
          (rest.flatMap fun here =>
              entries.filter fun entry => classOf entry = here) =
            rest.flatMap fun here =>
              others.filter fun entry => classOf entry = here := by
        apply List.flatMap_congr
        intro here member
        rw [List.filter_filter]
        apply List.filter_congr
        intro entry _
        have different : here ≠ first := by
          rintro rfl
          exact distinct.1 member
        by_cases same : classOf entry = here
        · simp [same, different]
        · simp [same]
      rw [List.flatMap_cons, elsewhere]
      refine (List.Perm.append_left _ (induction distinct.2 ?_)).trans
        (List.filter_append_perm _ entries)
      intro entry member
      rcases List.mem_filter.mp member with ⟨inside, other⟩
      have either := List.mem_cons.mp (covered entry inside)
      simpa using either.resolve_left (by simpa using other)

/-! ## Comparison up to order -/

omit [LinearOrder κ] in
/-- Maps that agree on related entries agree on related lists. -/
theorem map_eq_of_forall₂
    {same : α → β → Prop} {first : α → κ} {second : β → κ}
    {entries : List α} {entries' : List β}
    (related : List.Forall₂ same entries entries')
    (agree :
      ∀ entry ∈ entries, ∀ entry' ∈ entries', same entry entry' →
        first entry = second entry') :
    entries.map first = entries'.map second := by
  induction related with
  | nil => rfl
  | cons head _ induction =>
      rw [List.map_cons, List.map_cons,
        agree _ List.mem_cons_self _ List.mem_cons_self head,
        induction fun entry member entry' member' =>
          agree entry (List.mem_cons_of_mem _ member) entry'
            (List.mem_cons_of_mem _ member')]

/-- Two lists related entry by entry after a rearrangement of the second. -/
def Reordered (same : α → β → Prop) (entries : List α)
    (entries' : List β) : Prop :=
  ∃ arranged, List.Forall₂ same entries arranged ∧ arranged.Perm entries'

/-- Sorting keeps an entrywise relation that respects the keys. -/
theorem forall₂_sortByKey
    {key : α → κ} {key' : β → κ} {same : α → β → Prop}
    (respects : ∀ first second, same first second →
      key first = key' second)
    {entries : List α} {entries' : List β}
    (related : List.Forall₂ same entries entries') :
    List.Forall₂ same (sortByKey key entries) (sortByKey key' entries') := by
  have insertion :
      ∀ {head : α} {head' : β} {sorted : List α} {sorted' : List β},
        same head head' → List.Forall₂ same sorted sorted' →
          List.Forall₂ same
            (sorted.orderedInsert (key · ≤ key ·) head)
            (sorted'.orderedInsert (key' · ≤ key' ·) head') := by
    intro head head' sorted sorted' heads tails
    induction tails with
    | nil => exact .cons heads .nil
    | @cons next next' nexts nexts' nextSame nextsSame induction =>
        simp only [List.orderedInsert_cons, respects _ _ heads,
          respects _ _ nextSame]
        split
        · exact .cons heads (.cons nextSame nextsSame)
        · exact .cons nextSame induction
  induction related with
  | nil => exact .nil
  | cons heads _ induction => exact insertion heads induction

/-- Lists whose sorted forms agree entry by entry agree up to order. -/
theorem reordered_of_sortByKey
    {key : α → κ} {key' : β → κ} {same : α → β → Prop}
    {entries : List α} {entries' : List β}
    (related :
      List.Forall₂ same (sortByKey key entries)
        (sortByKey key' entries')) :
    Reordered same entries entries' := by
  rcases List.perm_comp_forall₂ (sortByKey_perm key entries).symm related with
    ⟨arranged, pointwise, perm⟩
  exact ⟨arranged, pointwise, perm.trans (sortByKey_perm key' entries')⟩

/-- Lists that agree up to order have sorted forms that agree entry by entry. -/
theorem Reordered.sortByKey
    {key : α → κ} {key' : β → κ} {same : α → β → Prop}
    (respects : ∀ first second, same first second →
      key first = key' second)
    {entries : List α} {entries' : List β}
    (distinct : (entries'.map key').Nodup)
    (reordered : Reordered same entries entries') :
    List.Forall₂ same (sortByKey key entries)
      (sortByKey key' entries') := by
  rcases reordered with ⟨arranged, pointwise, perm⟩
  rw [← sortByKey_eq_of_perm ((perm.map key').nodup_iff.mpr distinct) perm]
  exact forall₂_sortByKey respects pointwise

omit [LinearOrder κ] in
/-- A relation that respects the keys keeps their distinctness. -/
theorem Reordered.nodup
    {key : α → κ} {key' : β → κ} {same : α → β → Prop}
    (respects : ∀ first second, same first second →
      key first = key' second)
    {entries : List α} {entries' : List β}
    (distinct : (entries'.map key').Nodup)
    (reordered : Reordered same entries entries') :
    (entries.map key).Nodup := by
  rcases reordered with ⟨arranged, pointwise, perm⟩
  have keys : entries.map key = arranged.map key' :=
    map_eq_of_forall₂ pointwise fun first _ second _ => respects first second
  rw [keys]
  exact (perm.map key').nodup_iff.mpr distinct

omit [LinearOrder κ] in
/-- A rearrangement that keeps every key in its place changes nothing. -/
theorem Reordered.pointwise
    {key : α → κ} {key' : β → κ} {same : α → β → Prop}
    (respects : ∀ first second, same first second →
      key first = key' second)
    {entries : List α} {entries' : List β}
    (distinct : (entries'.map key').Nodup)
    (aligned : entries.map key = entries'.map key')
    (reordered : Reordered same entries entries') :
    List.Forall₂ same entries entries' := by
  rcases reordered with ⟨arranged, pointwise, perm⟩
  have keys : arranged.map key' = entries'.map key' := by
    rw [← aligned]
    exact
      (map_eq_of_forall₂ pointwise fun first _ second _ =>
        respects first second).symm
  have unmoved : arranged = entries' := by
    apply List.ext_getElem perm.length_eq
    intro index here there
    apply List.inj_on_of_nodup_map distinct
    · exact perm.mem_iff.mp (List.getElem_mem here)
    · exact List.getElem_mem there
    · have at_index := congrArg (fun keys => keys[index]?) keys
      simpa [here, there] using at_index
  rwa [unmoved] at pointwise

/-! ## The last entry of each key -/

section KeepLast

variable {α β κ κ' : Type} [DecidableEq κ] [DecidableEq κ']

/-- The entries that no later entry of the same key replaces. -/
def keepLast (key : α → κ) : List α → List α
  | [] => []
  | entry :: entries =>
      if key entry ∈ entries.map key then keepLast key entries
      else entry :: keepLast key entries

theorem mem_of_mem_keepLast {key : α → κ} {entry : α} {entries : List α}
    (kept : entry ∈ keepLast key entries) : entry ∈ entries := by
  induction entries with
  | nil => cases kept
  | cons first entries induction =>
      rw [keepLast] at kept
      split at kept
      · exact List.mem_cons_of_mem _ (induction kept)
      · rcases List.mem_cons.mp kept with rfl | later
        · exact List.mem_cons_self
        · exact List.mem_cons_of_mem _ (induction later)

/-- One entry of each key is left. -/
theorem keepLast_nodup (key : α → κ) (entries : List α) :
    ((keepLast key entries).map key).Nodup := by
  induction entries with
  | nil => exact List.nodup_nil
  | cons entry entries induction =>
      rw [keepLast]
      split
      case isTrue => exact induction
      case isFalse last =>
          rw [List.map_cons, List.nodup_cons]
          refine ⟨?_, induction⟩
          intro again
          rcases List.mem_map.mp again with ⟨other, kept, same⟩
          exact
            last
              (same ▸ List.mem_map_of_mem (mem_of_mem_keepLast kept))

/-- Where no key comes twice, all entries are kept. -/
theorem keepLast_eq_self {key : α → κ} {entries : List α}
    (distinct : (entries.map key).Nodup) : keepLast key entries = entries := by
  induction entries with
  | nil => rfl
  | cons entry entries induction =>
      rw [List.map_cons, List.nodup_cons] at distinct
      rw [keepLast, if_neg distinct.1, induction distinct.2]

/-- Related keys are the same where the related ones are. -/
def SameKeys (same : α → β → Prop) (key : α → κ) (key' : β → κ') : Prop :=
  ∀ first second first' second',
    same first first' → same second second' →
      (key first = key second ↔ key' first' = key' second')

/-- Related lists keep related entries. -/
theorem forall₂_keepLast
    {same : α → β → Prop} {key : α → κ} {key' : β → κ'}
    {entries : List α} {entries' : List β}
    (sameKeys : SameKeys same key key')
    (related : List.Forall₂ same entries entries') :
    List.Forall₂ same (keepLast key entries) (keepLast key' entries') := by
  induction related with
  | nil => exact .nil
  | @cons first first' entries entries' head tail induction =>
      have replaced :
          key first ∈ entries.map key ↔ key' first' ∈ entries'.map key' := by
        clear induction
        induction tail with
        | nil => simp
        | @cons second second' entries entries' next _ induction =>
            rw [List.map_cons, List.map_cons, List.mem_cons, List.mem_cons,
              sameKeys first second first' second' head next, induction]
      simp only [keepLast, replaced]
      split
      · exact induction
      · exact .cons head induction

end KeepLast

end Trackward.Lib.KeyedLists
