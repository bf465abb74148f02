import Mathlib.Data.List.Sort
import Mathlib.Data.List.Basic

/-!
# Paging by a key

A collection is read one page at a time, highest key first. A page has the items that come after a
cursor, up to a limit, and the key of its last item is the cursor of the next page; there is no
next page when the limit was not exceeded. The collection may be another one at each page.

`KeysetTraversal.pairwise` says that the keys descend over the whole traversal,
`KeysetTraversal.countP_eq_one` that an item which is there at every page is on exactly one of them,
and `KeysetTraversal.flatMap_eq` that the pages of a collection which does not change are the whole
of it. `exists_keysetTraversal` says that such a traversal ends.
-/

set_option autoImplicit false
set_option relaxedAutoImplicit false

namespace OpfsWebauthn.Foundation

variable {α κ : Type*} [LinearOrder κ]

/-! ### One page -/

section

variable (key : α → κ)

/-- The items that come after a cursor, highest key first. -/
def itemsPast (cursor : Option κ) (items : List α) : List α :=
  (items.filter fun item ↦ cursor.all fun last ↦ key item < last).insertionSort
    fun item later ↦ key later ≤ key item

/-- The items of a page. -/
def keysetPage (limit : ℕ) (cursor : Option κ) (items : List α) : List α :=
  (itemsPast key cursor items).take limit

/-- The cursor of the page that follows. -/
def keysetNext (limit : ℕ) (cursor : Option κ) (items : List α) : Option κ :=
  if limit < (itemsPast key cursor items).length then
    (keysetPage key limit cursor items).getLast?.map key
  else none

end

variable {key : α → κ} {limit : ℕ} {cursor : Option κ} {items : List α} {item : α} {last : κ}

/-- The items after a cursor have smaller keys. -/
theorem mem_itemsPast :
    item ∈ itemsPast key cursor items ↔ item ∈ items ∧ ∀ last ∈ cursor, key item < last := by
  rw [itemsPast, List.mem_insertionSort, List.mem_filter, Option.all_eq_true_iff_get]
  cases cursor with
  | none => simp
  | some last => simp

/-- The items after a cursor have distinct keys when all have. -/
theorem nodup_map_itemsPast (hdistinct : (items.map key).Nodup) (cursor : Option κ) :
    ((itemsPast key cursor items).map key).Nodup := by
  have hperm : (itemsPast key cursor items).Perm _ := List.perm_insertionSort _ _
  have hsublist := List.filter_sublist (p := fun item ↦ cursor.all fun last ↦ key item < last)
    (l := items)
  exact (hperm.map key).nodup_iff.mpr (hdistinct.sublist (hsublist.map key))

/-- The keys descend. -/
theorem pairwise_itemsPast (hdistinct : (items.map key).Nodup) (cursor : Option κ) :
    (itemsPast key cursor items).Pairwise fun item later ↦ key later < key item := by
  have hsorted : (itemsPast key cursor items).Pairwise fun item later ↦ key later ≤ key item := by
    have htotal : Std.Total fun item later : α ↦ key later ≤ key item :=
      ⟨fun item later ↦ le_total (key later) (key item)⟩
    have htrans : IsTrans α fun item later ↦ key later ≤ key item :=
      ⟨fun _ _ _ hfirst hsecond ↦ le_trans hsecond hfirst⟩
    exact List.pairwise_insertionSort _ _
  have hne := List.pairwise_map.mp (nodup_map_itemsPast hdistinct cursor)
  refine (hsorted.and hne).imp ?_
  intro item later hboth
  exact lt_of_le_of_ne hboth.1 (Ne.symm hboth.2)

/-- The last item of a page that has a next one. -/
theorem keysetNext_eq_some_iff : keysetNext key limit cursor items = some last ↔
    limit < (itemsPast key cursor items).length ∧
      ∃ item, (keysetPage key limit cursor items).getLast? = some item ∧ key item = last := by
  unfold keysetNext
  split_ifs with hlimit
  · rw [Option.map_eq_some_iff]
    exact ⟨fun hlast ↦ ⟨hlimit, hlast⟩, And.right⟩
  · constructor
    · intro hnone
      cases hnone
    · exact fun hlast ↦ absurd hlast.1 hlimit

/-- Every page but the last has a next cursor. -/
theorem keysetNext_eq_none_iff (hlimit : 0 < limit) :
    keysetNext key limit cursor items = none ↔ (itemsPast key cursor items).length ≤ limit := by
  unfold keysetNext
  split_ifs with hmore
  · have hpage : keysetPage key limit cursor items ≠ [] := by
      intro hempty
      have hlength := congrArg List.length hempty
      rw [keysetPage, List.length_take, List.length_nil] at hlength
      omega
    rw [Option.map_eq_none_iff, List.getLast?_eq_none_iff]
    exact ⟨fun hempty ↦ absurd hempty hpage, fun hfew ↦ absurd hmore (Nat.not_lt.mpr hfew)⟩
  · exact ⟨fun _ ↦ Nat.not_lt.mp hmore, fun _ ↦ rfl⟩

/-- The items of a page come after its cursor. -/
theorem mem_of_mem_keysetPage (hitem : item ∈ keysetPage key limit cursor items) :
    item ∈ items ∧ ∀ last ∈ cursor, key item < last :=
  mem_itemsPast.mp (List.mem_of_mem_take hitem)

/-- The items of a page do not come after the next cursor. -/
theorem le_of_mem_keysetPage (hdistinct : (items.map key).Nodup)
    (hnext : keysetNext key limit cursor items = some last)
    (hitem : item ∈ keysetPage key limit cursor items) : last ≤ key item := by
  obtain ⟨-, final, hfinal, rfl⟩ := keysetNext_eq_some_iff.mp hnext
  have hsorted : (keysetPage key limit cursor items).Pairwise
      fun item later ↦ key later < key item :=
    (pairwise_itemsPast hdistinct cursor).sublist (List.take_sublist _ _)
  obtain ⟨front, hfront⟩ := List.getLast?_eq_some_iff.mp hfinal
  rw [hfront] at hsorted hitem
  rcases List.mem_append.mp hitem with hold | hlast
  · exact le_of_lt ((List.pairwise_append.mp hsorted).2.2 item hold final List.mem_cons_self)
  · rw [List.mem_singleton.mp hlast]

/-- What a page leaves over comes after the next cursor. -/
theorem itemsPast_eq_append (hdistinct : (items.map key).Nodup)
    (hnext : keysetNext key limit cursor items = some last) :
    itemsPast key cursor items =
      keysetPage key limit cursor items ++ itemsPast key (some last) items := by
  have hsorted := pairwise_itemsPast hdistinct cursor
  have hsplit := List.take_append_drop limit (itemsPast key cursor items)
  rw [← hsplit, List.pairwise_append] at hsorted
  obtain ⟨-, hrest, hbelow⟩ := hsorted
  obtain ⟨-, final, hfinal, hlast⟩ := keysetNext_eq_some_iff.mp hnext
  have hmem : ∀ other, other ∈ (itemsPast key cursor items).drop limit ↔
      other ∈ itemsPast key (some last) items := by
    intro other
    rw [mem_itemsPast]
    constructor
    · intro hother
      refine ⟨(mem_itemsPast.mp (List.mem_of_mem_drop hother)).1, ?_⟩
      intro bound hbound
      rw [← Option.some.inj hbound, ← hlast]
      exact hbelow final (List.mem_of_getLast? hfinal) other hother
    · rintro ⟨hitems, hpast⟩
      have hlt : key other < last := hpast last rfl
      have hbefore : other ∈ itemsPast key cursor items := by
        refine mem_itemsPast.mpr ⟨hitems, ?_⟩
        intro bound hbound
        have hfinalPast := (mem_of_mem_keysetPage (List.mem_of_getLast? hfinal)).2 bound hbound
        rw [hlast] at hfinalPast
        exact lt_trans hlt hfinalPast
      rw [← hsplit, List.mem_append] at hbefore
      rcases hbefore with hpage | hdrop
      · exact absurd hlt (not_lt_of_ge (le_of_mem_keysetPage hdistinct hnext hpage))
      · exact hdrop
  have hpast := pairwise_itemsPast hdistinct (some last)
  have hnodup : ∀ list : List α, (list.Pairwise fun item later ↦ key later < key item) →
      list.Nodup := fun _ hlist ↦ hlist.imp fun hlt heq ↦ (heq ▸ hlt).ne rfl
  have hperm := (List.perm_ext_iff_of_nodup (hnodup _ hrest) (hnodup _ hpast)).mpr hmem
  have hdrop : (itemsPast key cursor items).drop limit = itemsPast key (some last) items :=
    hperm.eq_of_pairwise (fun _ _ _ _ hfirst hsecond ↦ absurd hfirst (lt_asymm hsecond)) hrest hpast
  conv_lhs => rw [← hsplit, hdrop]
  rfl

/-- A last page has all that is left. -/
theorem keysetPage_eq_itemsPast (hlimit : 0 < limit)
    (hnext : keysetNext key limit cursor items = none) :
    keysetPage key limit cursor items = itemsPast key cursor items :=
  List.take_of_length_le ((keysetNext_eq_none_iff hlimit).mp hnext)

/-! ### Two collections with related items -/

section Related

variable {β : Type*} {key' : β → κ} {relates : α → β → Prop} {others : List β}

theorem forall₂_orderedInsert (hkeys : ∀ item other, relates item other → key item = key' other)
    {other : β} (hitem : relates item other) (hrelated : List.Forall₂ relates items others) :
    List.Forall₂ relates (items.orderedInsert (fun item later ↦ key later ≤ key item) item)
      (others.orderedInsert (fun item later ↦ key' later ≤ key' item) other) := by
  induction hrelated with
  | nil => exact .cons hitem .nil
  | @cons head head' rest rest' hhead hrest ih =>
    rw [List.orderedInsert_cons, List.orderedInsert_cons, hkeys _ _ hitem, hkeys _ _ hhead]
    by_cases hle : key' head' ≤ key' other
    · rw [if_pos hle, if_pos hle]
      exact .cons hitem (.cons hhead hrest)
    · rw [if_neg hle, if_neg hle]
      exact .cons hhead ih

/-- Related collections with the same keys have related items past a cursor. -/
theorem forall₂_itemsPast (hkeys : ∀ item other, relates item other → key item = key' other)
    (cursor : Option κ) (hrelated : List.Forall₂ relates items others) :
    List.Forall₂ relates (itemsPast key cursor items) (itemsPast key' cursor others) := by
  unfold itemsPast
  have hfilter : List.Forall₂ relates
      (items.filter fun item ↦ cursor.all fun last ↦ key item < last)
      (others.filter fun item ↦ cursor.all fun last ↦ key' item < last) := by
    refine List.rel_filter ?_ hrelated
    intro item other hitem
    dsimp only
    rw [hkeys item other hitem]
  generalize (items.filter fun item ↦ cursor.all fun last ↦ key item < last) = past at hfilter ⊢
  generalize (others.filter fun item ↦ cursor.all fun last ↦ key' item < last) = past'
    at hfilter ⊢
  induction hfilter with
  | nil => exact .nil
  | cons hitem _ ih =>
    rw [List.insertionSort_cons, List.insertionSort_cons]
    exact forall₂_orderedInsert hkeys hitem ih

end Related

/-! ### Following the cursors -/

/-- The pages fetched from a cursor on, each with the collection it was fetched from. -/
inductive KeysetTraversal (key : α → κ) (limit : ℕ) : Option κ → List (List α × List α) → Prop
  | last {cursor : Option κ} {items : List α} (hnext : keysetNext key limit cursor items = none) :
    KeysetTraversal key limit cursor [(items, keysetPage key limit cursor items)]
  | next {cursor : Option κ} {items : List α} {last : κ} {rest : List (List α × List α)}
    (hnext : keysetNext key limit cursor items = some last)
    (hrest : KeysetTraversal key limit (some last) rest) :
    KeysetTraversal key limit cursor ((items, keysetPage key limit cursor items) :: rest)

namespace KeysetTraversal

variable {visits : List (List α × List α)}

/-- A page has items of the collection it was fetched from. -/
theorem mem_of_mem_page (htraversal : KeysetTraversal key limit cursor visits) :
    ∀ visit ∈ visits, ∀ item ∈ visit.2, item ∈ visit.1 := by
  induction htraversal with
  | last _ =>
    intro visit hvisit item hitem
    rw [List.mem_singleton.mp hvisit] at hitem ⊢
    exact (mem_of_mem_keysetPage hitem).1
  | next _ _ ih =>
    exact List.forall_mem_cons.mpr ⟨fun _ hitem ↦ (mem_of_mem_keysetPage hitem).1, ih⟩

/-- Everything fetched comes after the cursor. -/
theorem past (htraversal : KeysetTraversal key limit cursor visits)
    (hdistinct : ∀ visit ∈ visits, (visit.1.map key).Nodup) :
    ∀ visit ∈ visits, ∀ item ∈ visit.2, ∀ last ∈ cursor, key item < last := by
  induction htraversal with
  | last hnext =>
    intro visit hvisit item hitem
    rw [List.mem_singleton.mp hvisit] at hitem
    exact (mem_of_mem_keysetPage hitem).2
  | @next cursor items last rest hnext _ ih =>
    rw [List.forall_mem_cons] at hdistinct ⊢
    refine ⟨fun item hitem ↦ (mem_of_mem_keysetPage hitem).2, ?_⟩
    intro visit hvisit item hitem bound hbound
    have hlt : key item < last := ih hdistinct.2 visit hvisit item hitem last rfl
    obtain ⟨-, final, hfinal, hlast⟩ := keysetNext_eq_some_iff.mp hnext
    have hfinalPast := (mem_of_mem_keysetPage (List.mem_of_getLast? hfinal)).2 bound hbound
    rw [hlast] at hfinalPast
    exact lt_trans hlt hfinalPast

/-- The keys descend over the whole traversal. -/
theorem pairwise (htraversal : KeysetTraversal key limit cursor visits)
    (hdistinct : ∀ visit ∈ visits, (visit.1.map key).Nodup) :
    (visits.flatMap Prod.snd).Pairwise fun item later ↦ key later < key item := by
  induction htraversal with
  | last hnext =>
    rw [List.flatMap_singleton]
    exact (pairwise_itemsPast (hdistinct _ List.mem_cons_self) _).sublist (List.take_sublist _ _)
  | @next cursor items last rest hnext hrest ih =>
    rw [List.forall_mem_cons] at hdistinct
    rw [List.flatMap_cons, List.pairwise_append]
    refine ⟨(pairwise_itemsPast hdistinct.1 _).sublist (List.take_sublist _ _),
      ih hdistinct.2, ?_⟩
    intro item hitem later hlater
    obtain ⟨visit, hvisit, hlater⟩ := List.mem_flatMap.mp hlater
    exact lt_of_lt_of_le (hrest.past hdistinct.2 visit hvisit later hlater last rfl)
      (le_of_mem_keysetPage hdistinct.1 hnext hitem)

/-- An item that is there at every page is on exactly one. -/
theorem countP_eq_one (htraversal : KeysetTraversal key limit cursor visits)
    (hlimit : 0 < limit) (hdistinct : ∀ visit ∈ visits, (visit.1.map key).Nodup)
    {shows : List α × List α → Bool} (hshows : ∀ visit, shows visit = true ↔ item ∈ visit.2)
    (hpast : ∀ last ∈ cursor, key item < last) (hstays : ∀ visit ∈ visits, item ∈ visit.1) :
    visits.countP shows = 1 := by
  induction htraversal with
  | last hnext =>
    have hitem := mem_itemsPast.mpr ⟨hstays _ List.mem_cons_self, hpast⟩
    rw [← keysetPage_eq_itemsPast hlimit hnext] at hitem
    rw [List.countP_singleton, if_pos ((hshows _).mpr hitem)]
  | @next cursor items last rest hnext hrest ih =>
    rw [List.forall_mem_cons] at hdistinct hstays
    by_cases hpage : item ∈ keysetPage key limit cursor items
    · have hnone : rest.countP shows = 0 := by
        rw [List.countP_eq_zero]
        intro visit hvisit hitem
        have hlt := hrest.past hdistinct.2 visit hvisit item ((hshows visit).mp hitem) last rfl
        exact absurd hlt (not_lt_of_ge (le_of_mem_keysetPage hdistinct.1 hnext hpage))
      rw [List.countP_cons, hnone, if_pos ((hshows _).mpr hpage)]
    · have hleft := mem_itemsPast.mpr ⟨hstays.1, hpast⟩
      rw [itemsPast_eq_append hdistinct.1 hnext, List.mem_append] at hleft
      have hrestPast := (mem_itemsPast.mp (hleft.resolve_left hpage)).2
      rw [List.countP_cons, if_neg ((hshows _).not.mpr hpage), Nat.add_zero]
      exact ih hdistinct.2 hrestPast hstays.2

/-- The pages of a collection that does not change are all that comes after the cursor. -/
theorem flatMap_eq (htraversal : KeysetTraversal key limit cursor visits) (hlimit : 0 < limit)
    (hdistinct : (items.map key).Nodup) (hstatic : ∀ visit ∈ visits, visit.1 = items) :
    visits.flatMap Prod.snd = itemsPast key cursor items := by
  induction htraversal with
  | last hnext =>
    obtain rfl := hstatic _ List.mem_cons_self
    rw [List.flatMap_singleton]
    exact keysetPage_eq_itemsPast hlimit hnext
  | next hnext _ ih =>
    rw [List.forall_mem_cons] at hstatic
    obtain ⟨rfl, hrest⟩ := hstatic
    rw [List.flatMap_cons, ih hrest, itemsPast_eq_append hdistinct hnext]

end KeysetTraversal

/-- A traversal of a collection that does not change ends. -/
theorem exists_keysetTraversal (hlimit : 0 < limit) (hdistinct : (items.map key).Nodup)
    (cursor : Option κ) : ∃ visits, KeysetTraversal key limit cursor visits ∧
      ∀ visit ∈ visits, visit.1 = items := by
  -- Each page takes at least one item from those that are left.
  induction hleft : (itemsPast key cursor items).length using Nat.strong_induction_on
    generalizing cursor with
  | _ left ih =>
    cases hnext : keysetNext key limit cursor items with
    | none =>
      refine ⟨_, .last hnext, ?_⟩
      intro visit hvisit
      rw [List.mem_singleton.mp hvisit]
    | some last =>
      have hmore := (keysetNext_eq_some_iff.mp hnext).1
      have hsplit := congrArg List.length (itemsPast_eq_append hdistinct hnext)
      rw [List.length_append, keysetPage, List.length_take] at hsplit
      obtain ⟨visits, hvisits, hstatic⟩ := ih _ (by omega) (some last) rfl
      exact ⟨_, .next hnext hvisits, List.forall_mem_cons.mpr ⟨rfl, hstatic⟩⟩

end OpfsWebauthn.Foundation
