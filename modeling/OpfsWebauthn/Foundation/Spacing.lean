import Mathlib.Data.List.Basic

/-!
# Texts up to white space

`collapse` replaces every run of white space in a text by one blank, and drops the blanks at both
ends. `marks` lists the visible symbols of a text, each with whether it is apart from the visible
symbol before: whether white space or the start of the text is in front of it.

`collapse_eq_iff` says that two texts have the same collapse exactly when they have the same marks.
The marks of an append are an append of marks (`marks_append`), so a statement about collapsed texts
becomes one about lists.
-/

set_option autoImplicit false
set_option relaxedAutoImplicit false

namespace OpfsWebauthn.Foundation

section Spacing

variable {α : Type*} (isSpace : α → Bool) (blank : α)

/-- One blank for every run of white space. The flag says whether a run has begun. -/
def squeeze : Bool → List α → List α
  | _, [] => []
  | inRun, symbol :: rest =>
    if isSpace symbol then
      if inRun then squeeze true rest else blank :: squeeze true rest
    else symbol :: squeeze false rest

/-- The text without the white space at its ends. -/
def trimSpace (text : List α) : List α :=
  ((text.dropWhile isSpace).reverse.dropWhile isSpace).reverse

/-- The text with its white space collapsed. -/
def collapse (text : List α) : List α :=
  trimSpace isSpace (squeeze isSpace blank false text)

/-- The visible symbols, each with whether it is apart from the one before. The flag says whether
the first symbol is. -/
def marks : Bool → List α → List (Bool × α)
  | _, [] => []
  | apart, symbol :: rest =>
    if isSpace symbol then marks true rest else (apart, symbol) :: marks false rest

/-- Whether a symbol after the text is apart from the visible symbols of the text. -/
def apartAfter : Bool → List α → Bool
  | apart, [] => apart
  | _, symbol :: rest => apartAfter (isSpace symbol) rest

/-- The text of some marks that follow a visible symbol. -/
def spellNext (next : List (Bool × α)) : List α :=
  next.flatMap fun mark ↦ if mark.1 then [blank, mark.2] else [mark.2]

/-- The text of some marks. -/
def spell : List (Bool × α) → List α
  | [] => []
  | mark :: next => mark.2 :: spellNext blank next

variable {isSpace blank}

/-! ### Marks -/

theorem marks_space {symbol : α} (hspace : isSpace symbol = true) (apart : Bool) (rest : List α) :
    marks isSpace apart (symbol :: rest) = marks isSpace true rest :=
  if_pos hspace

theorem marks_visible {symbol : α} (hvisible : isSpace symbol = false) (apart : Bool)
    (rest : List α) :
    marks isSpace apart (symbol :: rest) = (apart, symbol) :: marks isSpace false rest :=
  if_neg (Bool.eq_false_iff.mp hvisible)

/-- The marks of an append: the second text goes on where the first ends. -/
theorem marks_append (apart : Bool) (first second : List α) :
    marks isSpace apart (first ++ second) =
      marks isSpace apart first ++ marks isSpace (apartAfter isSpace apart first) second := by
  induction first generalizing apart with
  | nil => rfl
  | cons symbol rest ih =>
    cases hspace : isSpace symbol with
    | true =>
      rw [List.cons_append, marks_space hspace, marks_space hspace, ih, apartAfter, hspace]
    | false =>
      rw [List.cons_append, marks_visible hspace, marks_visible hspace, ih, apartAfter, hspace,
        List.cons_append]

/-- What follows an append follows its second text. -/
theorem apartAfter_append (apart : Bool) (first second : List α) :
    apartAfter isSpace apart (first ++ second) =
      apartAfter isSpace (apartAfter isSpace apart first) second := by
  induction first generalizing apart with
  | nil => rfl
  | cons symbol rest ih => exact ih (isSpace symbol)

/-- What is apart after a text is also apart after it when the text begins apart. -/
theorem apartAfter_mono {apart : Bool} {text : List α}
    (hafter : apartAfter isSpace apart text = true) : apartAfter isSpace true text = true := by
  cases text with
  | nil => rfl
  | cons symbol rest => exact hafter

/-- A text ends apart when it ends in white space. -/
theorem apartAfter_concat {symbol : α} (hspace : isSpace symbol = true) (apart : Bool)
    (text : List α) : apartAfter isSpace apart (text ++ [symbol]) = true := by
  rw [apartAfter_append]
  exact hspace

/-- White space has no marks, and sets apart. -/
theorem marks_spaces {spaces : List α} (hspaces : ∀ symbol ∈ spaces, isSpace symbol = true)
    (apart : Bool) : marks isSpace apart spaces = [] ∧
      (spaces ≠ [] → apartAfter isSpace apart spaces = true) := by
  induction spaces generalizing apart with
  | nil => exact ⟨rfl, fun hne ↦ absurd rfl hne⟩
  | cons symbol rest ih =>
    obtain ⟨hspace, hrest⟩ := List.forall_mem_cons.mp hspaces
    obtain ⟨hmarks, hafter⟩ := ih hrest true
    refine ⟨(marks_space hspace apart rest).trans hmarks, fun _ ↦ ?_⟩
    show apartAfter isSpace (isSpace symbol) rest = true
    rw [hspace]
    cases rest with
    | nil => rfl
    | cons other later => exact hafter (List.cons_ne_nil _ _)

/-- A text that is empty or begins with white space has the same marks wherever it begins. -/
theorem marks_of_head {text : List α} (hhead : text.head?.all isSpace = true) (apart : Bool) :
    marks isSpace apart text = marks isSpace true text := by
  cases text with
  | nil => rfl
  | cons symbol rest =>
    have hspace : isSpace symbol = true := hhead
    rw [marks_space hspace, marks_space hspace]

/-- The symbols of the marks are the visible ones. -/
theorem map_snd_marks (apart : Bool) (text : List α) :
    (marks isSpace apart text).map Prod.snd = text.filter fun symbol ↦ !isSpace symbol := by
  induction text generalizing apart with
  | nil => rfl
  | cons symbol rest ih =>
    cases hspace : isSpace symbol with
    | true => simp [marks_space hspace, ih, hspace]
    | false => simp [marks_visible hspace, ih, hspace]

/-- The symbol of a mark is visible. -/
theorem visible_of_mem_marks {apart : Bool} {text : List α} {mark : Bool × α}
    (hmark : mark ∈ marks isSpace apart text) : isSpace mark.2 = false := by
  have hmem : mark.2 ∈ (marks isSpace apart text).map Prod.snd := List.mem_map_of_mem hmark
  rw [map_snd_marks, List.mem_filter] at hmem
  simpa using hmem.2

/-- The first mark of a text that begins apart is apart. -/
theorem apart_of_marks_cons {text : List α} {mark : Bool × α} {next : List (Bool × α)}
    (hmarks : marks isSpace true text = mark :: next) : mark.1 = true := by
  induction text with
  | nil => cases hmarks
  | cons symbol rest ih =>
    cases hspace : isSpace symbol with
    | true => exact ih ((marks_space hspace true rest).symm.trans hmarks)
    | false =>
      rw [marks_visible hspace, List.cons.injEq] at hmarks
      rw [← hmarks.1]

/-- The marks of a text depend on its start in the first flag only. -/
theorem spell_marks (apart : Bool) (text : List α) :
    spell blank (marks isSpace apart text) = spell blank (marks isSpace true text) := by
  cases text with
  | nil => rfl
  | cons symbol rest =>
    cases hspace : isSpace symbol with
    | true => rw [marks_space hspace, marks_space hspace]
    | false =>
      rw [marks_visible hspace, marks_visible hspace]
      rfl

/-! ### The collapse as a function of the marks -/

/-- Squeezed text is spelled by its marks, up to a blank at the end. -/
theorem squeeze_eq_spell (text : List α) :
    (∃ tail, (tail = [] ∨ tail = [blank]) ∧ squeeze isSpace blank false text =
      spellNext blank (marks isSpace false text) ++ tail) ∧
    ∃ tail, (tail = [] ∨ tail = [blank] ∧ marks isSpace true text ≠ []) ∧
      squeeze isSpace blank true text = spell blank (marks isSpace true text) ++ tail := by
  induction text with
  | nil => exact ⟨⟨[], .inl rfl, rfl⟩, ⟨[], .inl rfl, rfl⟩⟩
  | cons symbol rest ih =>
    obtain ⟨⟨fresh, hfresh, hnext⟩, ⟨tail, htail, hrun⟩⟩ := ih
    cases hspace : isSpace symbol with
    | true =>
      have hbegun : squeeze isSpace blank true (symbol :: rest) =
          squeeze isSpace blank true rest := by
        simp [squeeze, hspace]
      have hblank : squeeze isSpace blank false (symbol :: rest) =
          blank :: squeeze isSpace blank true rest := by
        simp [squeeze, hspace]
      refine ⟨?_, tail, ?_, ?_⟩
      · rw [hblank, hrun, marks_space hspace]
        cases hmarks : marks isSpace true rest with
        | nil =>
          have hnone : tail = [] := htail.resolve_right fun hboth ↦ hboth.2 hmarks
          exact ⟨[blank], .inr rfl, by rw [hnone]; rfl⟩
        | cons mark next =>
          refine ⟨tail, htail.imp_right And.left, ?_⟩
          simp [spell, spellNext, apart_of_marks_cons hmarks]
      · rw [marks_space hspace]
        exact htail
      · rw [hbegun, hrun, marks_space hspace]
    | false =>
      have hsymbol : ∀ inRun, squeeze isSpace blank inRun (symbol :: rest) =
          symbol :: squeeze isSpace blank false rest := by
        simp [squeeze, hspace]
      constructor
      · refine ⟨fresh, hfresh, ?_⟩
        rw [hsymbol, hnext, marks_visible hspace]
        rfl
      · refine ⟨fresh, hfresh.imp_right fun hsome ↦ ⟨hsome, ?_⟩, ?_⟩
        · rw [marks_visible hspace]
          exact List.cons_ne_nil _ _
        · rw [hsymbol, hnext, marks_visible hspace]
          rfl

/-- White space at the end of a text that ends in a visible symbol is trimmed. -/
theorem trimSpace_of_visible {first last : α} {init tail : List α}
    (hfirst : isSpace first = false) (hlast : isSpace last = false)
    (htail : ∀ symbol ∈ tail, isSpace symbol = true) {body : List α}
    (hhead : body.head? = some first) (hbody : body = init ++ [last]) :
    trimSpace isSpace (body ++ tail) = body := by
  have hdrop : (body ++ tail).dropWhile isSpace = body ++ tail := by
    cases body with
    | nil => cases hhead
    | cons symbol rest =>
      obtain rfl := Option.some.inj hhead
      exact List.dropWhile_cons_of_neg (by simp [hfirst])
  have hreverse : ∀ symbol ∈ tail.reverse, isSpace symbol = true :=
    fun symbol hsymbol ↦ htail symbol (List.mem_reverse.mp hsymbol)
  rw [trimSpace, hdrop, List.reverse_append, List.dropWhile_append_of_pos hreverse, hbody,
    List.reverse_append]
  simp [hlast]

/-- The text of some marks ends in the symbol of one of them. -/
theorem spell_eq_append (mark : Bool × α) (next : List (Bool × α)) : ∃ init final,
    spell blank (mark :: next) = init ++ [final] ∧ final ∈ (mark :: next).map Prod.snd := by
  rcases List.eq_nil_or_concat next with rfl | ⟨before, last, rfl⟩
  · exact ⟨[], mark.2, rfl, List.mem_cons_self⟩
  · have hlast : last.2 ∈ (mark :: before.concat last).map Prod.snd :=
      List.mem_map_of_mem (by simp)
    cases hapart : last.1 with
    | true =>
      exact ⟨mark.2 :: spellNext blank before ++ [blank], last.2, by
        simp [spell, spellNext, hapart], hlast⟩
    | false =>
      exact ⟨mark.2 :: spellNext blank before, last.2, by simp [spell, spellNext, hapart], hlast⟩

/-- A blank at the start is trimmed. -/
theorem trimSpace_blank (hblank : isSpace blank = true) (text : List α) :
    trimSpace isSpace (blank :: text) = trimSpace isSpace text := by
  rw [trimSpace, List.dropWhile_cons_of_pos hblank, trimSpace]

/-- The collapse of a text is spelled by its marks. -/
theorem collapse_eq_spell (hblank : isSpace blank = true) (text : List α) :
    collapse isSpace blank text = spell blank (marks isSpace true text) := by
  obtain ⟨⟨tail, htail, hsqueeze⟩, -⟩ := @squeeze_eq_spell _ isSpace blank text
  rw [← spell_marks false, collapse, hsqueeze]
  have hspaces : ∀ symbol ∈ tail, isSpace symbol = true := by
    rcases htail with rfl | rfl
    · exact List.forall_mem_nil _
    · simpa using hblank
  cases hmarks : marks isSpace false text with
  | nil =>
    rcases htail with rfl | rfl
    · rfl
    · simp [spellNext, spell, trimSpace, hblank]
  | cons mark next =>
    have hvisible : ∀ symbol ∈ (mark :: next).map Prod.snd, isSpace symbol = false := by
      intro symbol hsymbol
      obtain ⟨other, hother, rfl⟩ := List.mem_map.mp hsymbol
      exact visible_of_mem_marks (hmarks ▸ hother)
    obtain ⟨init, final, hspell, hfinal⟩ := @spell_eq_append _ blank mark next
    have htrim : trimSpace isSpace (spell blank (mark :: next) ++ tail) =
        spell blank (mark :: next) :=
      trimSpace_of_visible (hvisible _ List.mem_cons_self)
        (hvisible final hfinal) hspaces rfl hspell
    cases hapart : mark.1 with
    | true =>
      have hbody : spellNext blank (mark :: next) ++ tail =
          blank :: (spell blank (mark :: next) ++ tail) := by
        simp [spellNext, spell, hapart]
      rw [hbody, trimSpace_blank hblank, htrim]
    | false =>
      have hbody : spellNext blank (mark :: next) = spell blank (mark :: next) := by
        simp [spellNext, spell, hapart]
      rw [hbody, htrim]

/-- The marks of what follows a visible symbol are the ones that were spelled. -/
theorem marks_spellNext (hblank : isSpace blank = true) {next : List (Bool × α)}
    (hvisible : ∀ mark ∈ next, isSpace mark.2 = false) :
    marks isSpace false (spellNext blank next) = next := by
  induction next with
  | nil => rfl
  | cons mark next ih =>
    obtain ⟨apart, symbol⟩ := mark
    obtain ⟨hsymbol, hnext⟩ := List.forall_mem_cons.mp hvisible
    have hrest := ih hnext
    cases apart with
    | true =>
      show marks isSpace false (blank :: symbol :: spellNext blank next) = _
      rw [marks_space hblank, marks_visible hsymbol, hrest]
    | false =>
      show marks isSpace false (symbol :: spellNext blank next) = _
      rw [marks_visible hsymbol, hrest]

/-- Collapsing a text keeps its marks. -/
theorem marks_collapse (hblank : isSpace blank = true) (text : List α) :
    marks isSpace true (collapse isSpace blank text) = marks isSpace true text := by
  rw [collapse_eq_spell hblank]
  cases hmarks : marks isSpace true text with
  | nil => rfl
  | cons mark next =>
    obtain ⟨apart, symbol⟩ := mark
    have hapart : apart = true := apart_of_marks_cons hmarks
    have hvisible : ∀ other ∈ (apart, symbol) :: next, isSpace other.2 = false :=
      fun other hother ↦ visible_of_mem_marks (hmarks ▸ hother)
    obtain ⟨hsymbol, hnext⟩ := List.forall_mem_cons.mp hvisible
    show marks isSpace true (symbol :: spellNext blank next) = _
    rw [marks_visible hsymbol, marks_spellNext hblank hnext, hapart]

/-- Two texts have the same collapse exactly when they have the same marks. -/
theorem collapse_eq_iff (hblank : isSpace blank = true) (first second : List α) :
    collapse isSpace blank first = collapse isSpace blank second ↔
      marks isSpace true first = marks isSpace true second := by
  constructor
  · intro hcollapse
    rw [← marks_collapse hblank first, hcollapse, marks_collapse hblank]
  · intro hmarks
    rw [collapse_eq_spell hblank, hmarks, collapse_eq_spell hblank]

end Spacing

end OpfsWebauthn.Foundation
