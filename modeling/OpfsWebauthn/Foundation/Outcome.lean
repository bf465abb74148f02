import Mathlib.Data.List.Forall2

/-!
# Computations that can fail

When a sequence of fallible steps succeeds. `bind_eq_ok_iff` takes a success of two steps apart,
`mapError_eq_ok_iff` looks through a translation of the error, and `mapM_eq_ok_iff` says that a
fallible map over a list succeeds exactly when it succeeds at every element.
-/

set_option autoImplicit false
set_option relaxedAutoImplicit false

namespace OpfsWebauthn.Foundation

variable {ε ε' α β : Type}

/-- What it means that a computation succeeds. -/
theorem isOk_iff {result : Except ε α} :
    result.isOk = true ↔ ∃ value, result = .ok value := by
  cases result with
  | error cause => simp [Except.isOk, Except.toBool]
  | ok value => simp [Except.isOk, Except.toBool]

/-- A bind goes on after a success. -/
theorem ok_bind (value : α) (second : α → Except ε β) :
    (Except.ok value >>= second) = second value :=
  rfl

/-- A bind succeeds when both parts do. -/
theorem bind_eq_ok_iff {first : Except ε α} {second : α → Except ε β} {value : β} :
    (first >>= second) = .ok value ↔ ∃ middle, first = .ok middle ∧ second middle = .ok value := by
  cases first with
  | error cause => simp [bind, Except.bind]
  | ok middle => simp [bind, Except.bind]

/-- Translating the error does not change a success. -/
theorem mapError_eq_ok_iff {result : Except ε α} {translate : ε → ε'} {value : α} :
    result.mapError translate = .ok value ↔ result = .ok value := by
  cases result <;> simp [Except.mapError]

/-- A fallible map over a list succeeds with the list of the results at its elements. -/
theorem mapM_eq_ok_iff {transform : α → Except ε β} {list : List α} {results : List β} :
    list.mapM transform = .ok results ↔
      List.Forall₂ (fun element result ↦ transform element = .ok result) list results := by
  induction list generalizing results with
  | nil =>
    rw [List.mapM_nil, List.forall₂_nil_left_iff]
    exact ⟨fun hresults ↦ (Except.ok.inj hresults).symm, fun hresults ↦ hresults ▸ rfl⟩
  | cons element rest ih =>
    rw [List.mapM_cons, bind_eq_ok_iff]
    constructor
    · rintro ⟨first, hfirst, hresults⟩
      obtain ⟨others, hothers, hresults⟩ := bind_eq_ok_iff.mp hresults
      obtain rfl := Except.ok.inj hresults
      exact List.Forall₂.cons hfirst (ih.mp hothers)
    · intro hforall
      cases hforall with
      | cons hfirst hothers => exact ⟨_, hfirst, bind_eq_ok_iff.mpr ⟨_, ih.mpr hothers, rfl⟩⟩

/-- A fallible map over two lists, one after the other. -/
theorem mapM_append_eq_ok {transform : α → Except ε β} {list others : List α}
    {results more : List β} (hresults : list.mapM transform = .ok results)
    (hmore : others.mapM transform = .ok more) :
    (list ++ others).mapM transform = .ok (results ++ more) := by
  rw [mapM_eq_ok_iff] at hresults hmore ⊢
  exact List.rel_append hresults hmore

/-- Two fallible maps, one after the other. -/
theorem mapM_comp {γ : Type} {first : α → Except ε β} {second : β → Except ε γ} {list : List α}
    {middles : List β} {results : List γ} (hmiddles : list.mapM first = .ok middles)
    (hresults : middles.mapM second = .ok results) :
    list.mapM (fun element ↦ first element >>= second) = .ok results := by
  rw [mapM_eq_ok_iff] at hmiddles hresults ⊢
  induction hmiddles generalizing results with
  | nil =>
    cases hresults
    exact .nil
  | cons hfirst _ ih =>
    cases hresults with
    | cons hsecond hothers => exact .cons (bind_eq_ok_iff.mpr ⟨_, hfirst, hsecond⟩) (ih hothers)

/-- The second of two fallible maps, when the first one's results are known. -/
theorem mapM_of_comp {γ : Type} {first : α → Except ε β} {second : β → Except ε γ} {list : List α}
    {middles : List β} {results : List γ} (hmiddles : list.mapM first = .ok middles)
    (hresults : list.mapM (fun element ↦ first element >>= second) = .ok results) :
    middles.mapM second = .ok results := by
  rw [mapM_eq_ok_iff] at hmiddles hresults ⊢
  induction hmiddles generalizing results with
  | nil =>
    cases hresults
    exact .nil
  | cons hfirst _ ih =>
    cases hresults with
    | cons hboth hothers =>
      obtain ⟨middle, hmiddle, hsecond⟩ := bind_eq_ok_iff.mp hboth
      obtain rfl := Except.ok.inj (hmiddle.symm.trans hfirst)
      exact .cons hsecond (ih hothers)

/-- The results of a fallible map come from elements of the list. -/
theorem exists_of_mem_mapM {transform : α → Except ε β} {list : List α} {results : List β}
    (hresults : list.mapM transform = .ok results) {result : β} (hresult : result ∈ results) :
    ∃ element ∈ list, transform element = .ok result := by
  have hforall := mapM_eq_ok_iff.mp hresults
  clear hresults
  induction hforall with
  | nil => cases hresult
  | cons hfirst _ ih =>
    rcases List.mem_cons.mp hresult with rfl | hrest
    · exact ⟨_, List.mem_cons_self, hfirst⟩
    · obtain ⟨element, helement, htransform⟩ := ih hrest
      exact ⟨element, List.mem_cons_of_mem _ helement, htransform⟩

/-- The elements of the list have results of a fallible map. -/
theorem mem_of_mapM {transform : α → Except ε β} {list : List α} {results : List β}
    (hresults : list.mapM transform = .ok results) {element : α} (helement : element ∈ list) :
    ∃ result ∈ results, transform element = .ok result := by
  have hforall := mapM_eq_ok_iff.mp hresults
  clear hresults
  induction hforall with
  | nil => cases helement
  | cons hfirst _ ih =>
    rcases List.mem_cons.mp helement with rfl | hrest
    · exact ⟨_, List.mem_cons_self, hfirst⟩
    · obtain ⟨result, hresult, htransform⟩ := ih hrest
      exact ⟨result, List.mem_cons_of_mem _ hresult, htransform⟩

/-- The last elements of related lists are related. -/
theorem getLast?_of_forall₂ {relates : α → β → Prop} {list : List α} {others : List β}
    (hrelated : List.Forall₂ relates list others) {element : α}
    (helement : list.getLast? = some element) :
    ∃ other, others.getLast? = some other ∧ relates element other := by
  induction hrelated with
  | nil => cases helement
  | @cons first other rest others hfirst hothers ih =>
    cases hothers with
    | nil =>
      rw [List.getLast?_singleton, Option.some.injEq] at helement
      exact ⟨other, rfl, helement ▸ hfirst⟩
    | cons =>
      rw [List.getLast?_cons_cons] at helement ⊢
      exact ih helement

/-- The last result of a fallible map comes from the last element. -/
theorem getLast?_of_mapM {transform : α → Except ε β} {list : List α} {results : List β}
    (hresults : list.mapM transform = .ok results) {element : α}
    (helement : list.getLast? = some element) :
    ∃ result, results.getLast? = some result ∧ transform element = .ok result :=
  getLast?_of_forall₂ (mapM_eq_ok_iff.mp hresults) helement

/-- A fallible map over a list succeeds exactly when it succeeds at every element. -/
theorem mapM_isOk_iff {transform : α → Except ε β} {list : List α} :
    (∃ results, list.mapM transform = .ok results) ↔
      ∀ element ∈ list, ∃ result, transform element = .ok result := by
  induction list with
  | nil => simp [pure, Except.pure]
  | cons element rest ih =>
    rw [List.forall_mem_cons, ← ih]
    simp only [List.mapM_cons, bind_eq_ok_iff]
    constructor
    · rintro ⟨results, first, hfirst, others, hothers, -⟩
      exact ⟨⟨first, hfirst⟩, others, hothers⟩
    · rintro ⟨⟨first, hfirst⟩, others, hothers⟩
      exact ⟨_, first, hfirst, others, hothers, rfl⟩

end OpfsWebauthn.Foundation
