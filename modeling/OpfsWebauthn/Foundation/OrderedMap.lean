import Mathlib.Data.List.Basic
import Mathlib.Data.List.Forall2
import Mathlib.Data.List.Nodup

/-!
# Finite maps that remember the order of insertion

A map with at most one value for each key, whose entries are kept in the order in which their keys
were first set. `set` on a key that is present replaces the value and keeps the key's place, `set`
on a new key appends, and `erase` keeps the order of the entries that stay. This is the order in
which such a map is iterated, so a loop over its values visits them oldest key first.

The structure carries the fact that its keys are distinct. `get?_set` and `get?_erase` are the two
laws of lookup, `mem_keys_set` and `mem_keys_erase` the two laws of membership, and
`mem_entries_iff` says that an entry of the list is a successful lookup.

The last section is about two maps whose entries are related one by one, in their order. When a key
of the one belongs to a key of the other, `set`, `erase` and lookups on both sides keep the
relation.
-/

set_option autoImplicit false
set_option relaxedAutoImplicit false

namespace OpfsWebauthn.Foundation

/-- A finite map whose entries are listed in the order in which their keys were first set. -/
structure OrderedMap (κ α : Type*) where
  entries : List (κ × α)
  nodup_keys : (entries.map Prod.fst).Nodup

namespace OrderedMap

variable {κ α : Type*}

/-- The keys, oldest first. -/
def keys (map : OrderedMap κ α) : List κ :=
  map.entries.map Prod.fst

/-- The values, oldest key first. -/
def values (map : OrderedMap κ α) : List α :=
  map.entries.map Prod.snd

/-- The map with every value changed. -/
def mapValues (change : α → α) (map : OrderedMap κ α) : OrderedMap κ α where
  entries := map.entries.map fun entry ↦ (entry.1, change entry.2)
  nodup_keys := by
    rw [List.map_map]
    exact map.nodup_keys

/-- The map without entries. -/
def empty : OrderedMap κ α :=
  ⟨[], List.nodup_nil⟩

theorem keys_nodup (map : OrderedMap κ α) : map.keys.Nodup :=
  map.nodup_keys

@[simp] theorem entries_empty : (empty : OrderedMap κ α).entries = [] := rfl

@[simp] theorem keys_empty : (empty : OrderedMap κ α).keys = [] := rfl

@[simp] theorem values_empty : (empty : OrderedMap κ α).values = [] := rfl

/-- A map without keys is the empty map. -/
theorem eq_empty_of_keys {map : OrderedMap κ α} (hkeys : map.keys = []) : map = empty := by
  obtain ⟨entries, hnodup⟩ := map
  have hentries : entries = [] := List.map_eq_nil_iff.mp hkeys
  subst hentries
  rfl

variable [DecidableEq κ]

/-- The value stored under a key. -/
def get? (map : OrderedMap κ α) (key : κ) : Option α :=
  map.entries.lookup key

/-- The map without the entry of a key; the other entries keep their order. -/
def erase (map : OrderedMap κ α) (key : κ) : OrderedMap κ α where
  entries := map.entries.filter fun entry ↦ entry.1 ≠ key
  nodup_keys := map.nodup_keys.sublist (List.filter_sublist.map Prod.fst)

/-- The map with only the entries that a test keeps, in their order. -/
def retain (keep : κ → α → Bool) (map : OrderedMap κ α) : OrderedMap κ α where
  entries := map.entries.filter fun entry ↦ keep entry.1 entry.2
  nodup_keys := map.nodup_keys.sublist (List.filter_sublist.map Prod.fst)

/-- Replaces the value of every entry with the given key. -/
def replaceValue (key : κ) (value : α) (entries : List (κ × α)) : List (κ × α) :=
  entries.map fun entry ↦ if entry.1 = key then (key, value) else entry

/-- Replacing a value does not change the keys. -/
theorem map_fst_replaceValue (key : κ) (value : α) (entries : List (κ × α)) :
    (replaceValue key value entries).map Prod.fst = entries.map Prod.fst := by
  rw [replaceValue, List.map_map]
  refine List.map_congr_left fun entry _ ↦ ?_
  by_cases hkey : entry.1 = key <;> simp [hkey]

/-- Stores a value under a key: in the place of the old value when the key is present, at the end
otherwise. -/
def set (map : OrderedMap κ α) (key : κ) (value : α) : OrderedMap κ α where
  entries := if key ∈ map.keys then replaceValue key value map.entries
    else map.entries ++ [(key, value)]
  nodup_keys := by
    split_ifs with hpresent
    · rw [map_fst_replaceValue]
      exact map.nodup_keys
    · rw [List.map_append, List.nodup_append]
      refine ⟨map.nodup_keys, List.nodup_singleton _, ?_⟩
      intro first hfirst second hsecond heq
      have hkey : second = key := by simpa using hsecond
      exact hpresent (hkey ▸ heq ▸ hfirst)

@[simp] theorem get?_empty (key : κ) : (empty : OrderedMap κ α).get? key = none := rfl

/-- A lookup in a list succeeds exactly on the keys of the list. -/
theorem lookup_isSome_iff (entries : List (κ × α)) (key : κ) :
    (entries.lookup key).isSome ↔ key ∈ entries.map Prod.fst := by
  induction entries with
  | nil => simp
  | cons entry rest ih =>
    obtain ⟨head, value⟩ := entry
    by_cases hkey : key = head
    · simp [hkey]
    · have hbeq : (key == head) = false := by simpa using hkey
      rw [List.lookup_cons, hbeq]
      simp [hkey, ih]

/-- A list with distinct keys finds exactly its own entries. -/
theorem lookup_eq_some_iff {entries : List (κ × α)} (hnodup : (entries.map Prod.fst).Nodup)
    (key : κ) (value : α) : entries.lookup key = some value ↔ (key, value) ∈ entries := by
  induction entries with
  | nil => simp
  | cons entry rest ih =>
    obtain ⟨head, stored⟩ := entry
    rw [List.map_cons, List.nodup_cons] at hnodup
    by_cases hkey : key = head
    · subst hkey
      have habsent : (key, value) ∉ rest := fun hmem ↦
        hnodup.1 (List.mem_map.mpr ⟨(key, value), hmem, rfl⟩)
      simp only [List.lookup_cons, beq_self_eq_true, List.mem_cons, Prod.mk.injEq, true_and,
        habsent, or_false, Option.some.injEq]
      exact eq_comm
    · have hbeq : (key == head) = false := by simpa using hkey
      rw [List.lookup_cons, hbeq, List.mem_cons]
      simpa [hkey] using ih hnodup.2

/-- A lookup succeeds exactly on the keys of the map. -/
theorem get?_isSome_iff (map : OrderedMap κ α) (key : κ) :
    (map.get? key).isSome ↔ key ∈ map.keys :=
  lookup_isSome_iff map.entries key

/-- A lookup fails exactly off the keys of the map. -/
theorem get?_eq_none_iff (map : OrderedMap κ α) (key : κ) :
    map.get? key = none ↔ key ∉ map.keys := by
  rw [← get?_isSome_iff, Option.not_isSome_iff_eq_none]

/-- The entries are the successful lookups. -/
theorem mem_entries_iff (map : OrderedMap κ α) (key : κ) (value : α) :
    (key, value) ∈ map.entries ↔ map.get? key = some value :=
  (lookup_eq_some_iff map.nodup_keys key value).symm

/-- A key is present exactly when some value is found under it. -/
theorem mem_keys_iff (map : OrderedMap κ α) (key : κ) :
    key ∈ map.keys ↔ ∃ value, map.get? key = some value := by
  rw [← get?_isSome_iff, Option.isSome_iff_exists]

/-- The values are the results of the successful lookups. -/
theorem mem_values_iff (map : OrderedMap κ α) (value : α) :
    value ∈ map.values ↔ ∃ key, map.get? key = some value := by
  simp only [values, List.mem_map, Prod.exists, mem_entries_iff, exists_eq_right]

/-- A new key goes to the end. -/
theorem entries_set_of_not_mem {map : OrderedMap κ α} {key : κ} (habsent : key ∉ map.keys)
    (value : α) : (map.set key value).entries = map.entries ++ [(key, value)] := by
  simp [set, habsent]

/-- Looking up a key after a `set`. -/
theorem get?_set (map : OrderedMap κ α) (key other : κ) (value : α) :
    (map.set key value).get? other = if other = key then some value else map.get? other := by
  refine Option.ext fun found ↦ ?_
  rw [← mem_entries_iff]
  by_cases hpresent : key ∈ map.keys
  · have hentries : (map.set key value).entries = replaceValue key value map.entries := by
      simp [set, hpresent]
    rw [hentries, replaceValue, List.mem_map]
    by_cases hother : other = key
    · subst hother
      rw [if_pos rfl, Option.some.injEq]
      constructor
      · rintro ⟨entry, -, hentry⟩
        by_cases hkey : entry.1 = other
        · rw [if_pos hkey] at hentry
          exact congrArg Prod.snd hentry
        · rw [if_neg hkey] at hentry
          exact absurd (congrArg Prod.fst hentry) hkey
      · rintro rfl
        obtain ⟨entry, hentry, hkey⟩ := List.mem_map.mp hpresent
        exact ⟨entry, hentry, if_pos hkey⟩
    · rw [if_neg hother, ← mem_entries_iff]
      constructor
      · rintro ⟨entry, hentry, heq⟩
        by_cases hkey : entry.1 = key
        · rw [if_pos hkey] at heq
          exact absurd (congrArg Prod.fst heq).symm hother
        · rw [if_neg hkey] at heq
          exact heq ▸ hentry
      · exact fun hentry ↦ ⟨(other, found), hentry, if_neg hother⟩
  · rw [entries_set_of_not_mem hpresent, List.mem_append, mem_entries_iff, List.mem_singleton,
      Prod.mk.injEq]
    by_cases hother : other = key
    · subst hother
      rw [if_pos rfl, (get?_eq_none_iff map other).mpr hpresent]
      simp [eq_comm]
    · simp [hother]

/-- Storing the value that is there changes nothing. -/
theorem set_of_get? {map : OrderedMap κ α} {key : κ} {value : α}
    (hvalue : map.get? key = some value) : map.set key value = map := by
  have hpresent : key ∈ map.keys := (map.get?_isSome_iff key).mp (by rw [hvalue]; rfl)
  have hentries : (map.set key value).entries = map.entries := by
    simp only [set, if_pos hpresent]
    conv_rhs => rw [← List.map_id map.entries]
    refine List.map_congr_left fun entry hentry ↦ ?_
    by_cases hkey : entry.1 = key
    · have hstored : map.get? key = some entry.2 := by
        rw [← mem_entries_iff, ← hkey]
        exact hentry
      rw [hvalue, Option.some.injEq] at hstored
      rw [if_pos hkey, hstored, ← hkey]
      rfl
    · rw [if_neg hkey]
      rfl
  obtain ⟨entries, hnodup⟩ := map
  simpa [set] using hentries

/-- Looking up a key after an `erase`. -/
theorem get?_erase (map : OrderedMap κ α) (key other : κ) :
    (map.erase key).get? other = if other = key then none else map.get? other := by
  refine Option.ext fun found ↦ ?_
  rw [← mem_entries_iff, erase, List.mem_filter, mem_entries_iff]
  by_cases hother : other = key <;> simp [hother]

/-- Erasing the oldest key leaves the other entries. -/
theorem entries_erase_head {map : OrderedMap κ α} {key : κ} {value : α} {rest : List (κ × α)}
    (hentries : map.entries = (key, value) :: rest) : (map.erase key).entries = rest := by
  have hnodup := map.nodup_keys
  rw [hentries, List.map_cons, List.nodup_cons] at hnodup
  show (map.entries.filter fun entry ↦ entry.1 ≠ key) = rest
  rw [hentries, List.filter_cons_of_neg (by simp)]
  refine List.filter_eq_self.mpr fun entry hentry ↦ ?_
  have hne : entry.1 ≠ key := fun hsame ↦ hnodup.1 (List.mem_map.mpr ⟨entry, hentry, hsame⟩)
  simpa using hne

/-- Erasing the key that was just set. -/
theorem erase_set_self (map : OrderedMap κ α) (key : κ) (value : α) :
    (map.set key value).erase key = map.erase key := by
  have hentries : (map.set key value).entries.filter (fun entry ↦ entry.1 ≠ key) =
      map.entries.filter fun entry ↦ entry.1 ≠ key := by
    by_cases hpresent : key ∈ map.keys
    · simp only [set, if_pos hpresent, replaceValue]
      induction map.entries with
      | nil => rfl
      | cons entry rest ih =>
        by_cases hkey : entry.1 = key <;> simp_all
    · rw [entries_set_of_not_mem hpresent]
      simp
  simpa [erase] using hentries

@[simp] theorem get?_set_self (map : OrderedMap κ α) (key : κ) (value : α) :
    (map.set key value).get? key = some value := by
  rw [get?_set, if_pos rfl]

@[simp] theorem get?_erase_self (map : OrderedMap κ α) (key : κ) :
    (map.erase key).get? key = none := by
  rw [get?_erase, if_pos rfl]

/-- Looking up a key after every value was changed. -/
theorem get?_mapValues (change : α → α) (map : OrderedMap κ α) (key : κ) :
    (map.mapValues change).get? key = (map.get? key).map change := by
  refine Option.ext fun found ↦ ?_
  rw [← mem_entries_iff, mapValues, List.mem_map, Option.map_eq_some_iff]
  constructor
  · rintro ⟨⟨other, value⟩, hentry, hsame⟩
    obtain ⟨rfl, rfl⟩ := Prod.mk.inj hsame
    exact ⟨value, (mem_entries_iff map other value).mp hentry, rfl⟩
  · rintro ⟨value, hvalue, rfl⟩
    exact ⟨(key, value), (mem_entries_iff map key value).mpr hvalue, rfl⟩

/-- Looking up a key among the entries that a test keeps. -/
theorem get?_retain (keep : κ → α → Bool) (map : OrderedMap κ α) (key : κ) :
    (map.retain keep).get? key = (map.get? key).filter (keep key) := by
  refine Option.ext fun found ↦ ?_
  rw [← mem_entries_iff, retain, List.mem_filter, mem_entries_iff, Option.filter_eq_some_iff]

/-- The keys after a `set`. -/
theorem mem_keys_set (map : OrderedMap κ α) (key other : κ) (value : α) :
    other ∈ (map.set key value).keys ↔ other = key ∨ other ∈ map.keys := by
  rw [← get?_isSome_iff, get?_set, ← get?_isSome_iff]
  by_cases hother : other = key <;> simp [hother]

/-- The keys after an `erase`. -/
theorem mem_keys_erase (map : OrderedMap κ α) (key other : κ) :
    other ∈ (map.erase key).keys ↔ other ≠ key ∧ other ∈ map.keys := by
  rw [← get?_isSome_iff, get?_erase, ← get?_isSome_iff]
  by_cases hother : other = key <;> simp [hother]

/-! ### Two maps with related entries -/

section Related

variable {κ' β : Type*} [DecidableEq κ'] {relates : κ × α → κ' × β → Prop}
  {map : OrderedMap κ α} {other : OrderedMap κ' β} {key : κ} {key' : κ'}

/-- Two keys belong together when related entries have both or neither of them. -/
def KeysMatch (relates : κ × α → κ' × β → Prop) (key : κ) (key' : κ') : Prop :=
  ∀ entry entry', relates entry entry' → (entry.1 = key ↔ entry'.1 = key')

omit [DecidableEq κ] [DecidableEq κ'] in
/-- Keys that belong together are present in both maps or in neither. -/
theorem mem_keys_iff_of_related (hkeys : KeysMatch relates key key')
    (hrelated : List.Forall₂ relates map.entries other.entries) :
    key ∈ map.keys ↔ key' ∈ other.keys := by
  unfold keys
  generalize map.entries = entries at hrelated ⊢
  generalize other.entries = others at hrelated ⊢
  induction hrelated with
  | nil => simp
  | cons hentry _ ih =>
    rw [List.map_cons, List.map_cons, List.mem_cons, List.mem_cons, ih, eq_comm (a := key),
      eq_comm (a := key'), hkeys _ _ hentry]

/-- Looking up keys that belong together finds related entries, or nothing on both sides. -/
theorem get?_of_related (hkeys : KeysMatch relates key key')
    (hrelated : List.Forall₂ relates map.entries other.entries) :
    (map.get? key = none ∧ other.get? key' = none) ∨
      ∃ value value', map.get? key = some value ∧ other.get? key' = some value' ∧
        relates (key, value) (key', value') := by
  unfold get?
  generalize map.entries = entries at hrelated ⊢
  generalize other.entries = others at hrelated ⊢
  induction hrelated with
  | nil => exact .inl ⟨rfl, rfl⟩
  | @cons entry entry' rest rest' hentry _ ih =>
    obtain ⟨head, value⟩ := entry
    obtain ⟨head', value'⟩ := entry'
    have hboth := hkeys _ _ hentry
    by_cases hkey : head = key
    · have hkey' : head' = key' := hboth.mp hkey
      subst hkey hkey'
      exact .inr ⟨value, value', by simp, by simp, hentry⟩
    · have hkey' : head' ≠ key' := fun heq ↦ hkey (hboth.mpr heq)
      have hbeq : (key == head) = false := beq_false_of_ne (Ne.symm hkey)
      have hbeq' : (key' == head') = false := beq_false_of_ne (Ne.symm hkey')
      rw [List.lookup_cons, List.lookup_cons, hbeq, hbeq']
      exact ih

/-- Storing related entries. -/
theorem related_set (hkeys : KeysMatch relates key key')
    (hrelated : List.Forall₂ relates map.entries other.entries) {value : α} {value' : β}
    (hnew : relates (key, value) (key', value')) :
    List.Forall₂ relates (map.set key value).entries (other.set key' value').entries := by
  have hpresent := mem_keys_iff_of_related hkeys hrelated
  by_cases hmem : key ∈ map.keys
  · simp only [set, if_pos hmem, if_pos (hpresent.mp hmem), replaceValue]
    clear hmem hpresent
    generalize map.entries = entries at hrelated ⊢
    generalize other.entries = others at hrelated ⊢
    induction hrelated with
    | nil => exact .nil
    | @cons entry entry' rest rest' hentry _ ih =>
      rw [List.map_cons, List.map_cons]
      refine .cons ?_ ih
      by_cases hkey : entry.1 = key
      · rw [if_pos hkey, if_pos ((hkeys _ _ hentry).mp hkey)]
        exact hnew
      · rw [if_neg hkey, if_neg ((hkeys _ _ hentry).not.mp hkey)]
        exact hentry
  · rw [entries_set_of_not_mem hmem, entries_set_of_not_mem (hpresent.not.mp hmem)]
    exact List.rel_append hrelated (.cons hnew .nil)

/-- Erasing keys that belong together. -/
theorem related_erase (hkeys : KeysMatch relates key key')
    (hrelated : List.Forall₂ relates map.entries other.entries) :
    List.Forall₂ relates (map.erase key).entries (other.erase key').entries := by
  unfold erase
  dsimp only
  generalize map.entries = entries at hrelated ⊢
  generalize other.entries = others at hrelated ⊢
  induction hrelated with
  | nil => exact .nil
  | @cons entry entry' rest rest' hentry _ ih =>
    by_cases hkey : entry.1 = key
    · have hkey' := (hkeys _ _ hentry).mp hkey
      rw [List.filter_cons_of_neg (by simpa using hkey),
        List.filter_cons_of_neg (by simpa using hkey')]
      exact ih
    · have hkey' := (hkeys _ _ hentry).not.mp hkey
      rw [List.filter_cons_of_pos (by simpa using hkey),
        List.filter_cons_of_pos (by simpa using hkey')]
      exact .cons hentry ih

end Related

end OrderedMap

end OpfsWebauthn.Foundation
