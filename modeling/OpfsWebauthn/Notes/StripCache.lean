import Mathlib.Data.List.Induction
import OpfsWebauthn.Foundation.OrderedMap
import OpfsWebauthn.Foundation.Recency
import OpfsWebauthn.Notes.Markdown

/-!
# The cache of previews

`stripMarkdown` keeps the previews of the sources it was called with in a map. The map is iterated
in the order of insertion: a hit deletes the entry and inserts it again, and an insertion over the
cap deletes the first entry.

`Caches` says that the entries are the previews of the sources requested last. `strip_transparent`
follows from it, with the exact condition under which a source is parsed again.
-/

set_option autoImplicit false
set_option relaxedAutoImplicit false

namespace OpfsWebauthn.Notes

open Foundation

/-- `STRIP_CACHE_CAP`. -/
def stripCacheCap : ℕ := 200

/-- The state of the module: `STRIP_CACHE` and `stripParseCalls`. -/
structure StripState where
  cache : OrderedMap JsString JsString
  stripParseCalls : ℕ

namespace StripState

/-- The state when the module is loaded. -/
def initial : StripState := ⟨.empty, 0⟩

variable (parse : JsString → Document)

/-- The result of `stripMarkdownUncached(source)`. -/
def stripMarkdownUncached (source : JsString) : JsString :=
  stripTree (documentTree (parse source))

/-- The eviction: the oldest entry goes when there are more than the cap. -/
def evict (cache : OrderedMap JsString JsString) : OrderedMap JsString JsString :=
  if cache.entries.length > stripCacheCap then
    match cache.keys.head? with
    | some oldest => cache.erase oldest
    | none => cache
  else cache

/-- `stripMarkdown(source)`. -/
def stripMarkdown (state : StripState) (source : JsString) : StripState × JsString :=
  if source = [] then (state, [])
  else
    match state.cache.get? source with
    | some cached => ({ state with cache := (state.cache.erase source).set source cached }, cached)
    | none =>
      let result := stripMarkdownUncached parse source
      (⟨evict (state.cache.set source result), state.stripParseCalls + 1⟩, result)

/-- The state after some calls. -/
def after (calls : List JsString) : StripState :=
  calls.foldl (fun state source ↦ (stripMarkdown parse state source).1) initial

/-- The calls with a source that is not empty. -/
def requests (calls : List JsString) : List JsString :=
  calls.filter fun source ↦ source ≠ []

/-- The entries are the previews of the sources requested last, oldest first. -/
def Caches (calls : List JsString) (cache : OrderedMap JsString JsString) : Prop :=
  cache.entries = (lastDistinct stripCacheCap (requests calls)).map fun source ↦
    (source, stripMarkdownUncached parse source)

/-- The source was not requested before, or as many distinct others as the cap were requested since
its last request. -/
def NeedsParse (calls : List JsString) (source : JsString) : Prop :=
  source ∉ calls ∨ ∃ before since, calls = before ++ source :: since ∧ source ∉ since ∧
    stripCacheCap ≤ (requests since).dedup.length

variable {parse} {calls : List JsString} {cache : OrderedMap JsString JsString}

/-- The keys of the cache are the sources requested last. -/
theorem Caches.keys_eq (hcaches : Caches parse calls cache) :
    cache.keys = lastDistinct stripCacheCap (requests calls) := by
  rw [OrderedMap.keys, hcaches, List.map_map]
  exact List.map_id _

/-- What is cached for a source is its preview. -/
theorem Caches.eq_uncached (hcaches : Caches parse calls cache) {source cached : JsString}
    (hcached : cache.get? source = some cached) : cached = stripMarkdownUncached parse source := by
  rw [← OrderedMap.mem_entries_iff, hcaches] at hcached
  obtain ⟨other, -, hentry⟩ := List.mem_map.mp hcached
  cases hentry
  rfl

/-- A hit moves the entry to the end. -/
theorem Caches.hit (hcaches : Caches parse calls cache) {source cached : JsString}
    (hsource : source ≠ []) (hcached : cache.get? source = some cached) :
    Caches parse (calls ++ [source]) ((cache.erase source).set source cached) := by
  have hmem : source ∈ lastDistinct stripCacheCap (requests calls) := by
    rw [← hcaches.keys_eq, OrderedMap.mem_keys_iff]
    exact ⟨cached, hcached⟩
  have habsent : source ∉ (cache.erase source).keys := by
    rw [OrderedMap.mem_keys_erase]
    exact fun hboth ↦ hboth.1 rfl
  have hrequests : requests (calls ++ [source]) = requests calls ++ [source] := by
    simp [requests, hsource]
  have herase : (cache.erase source).entries =
      ((lastDistinct stripCacheCap (requests calls)).filter fun other ↦ other ≠ source).map
        fun other ↦ (other, stripMarkdownUncached parse other) := by
    show (cache.entries.filter fun entry ↦ entry.1 ≠ source) = _
    rw [hcaches, List.filter_map]
    exact congrArg _ (List.filter_congr fun other _ ↦ rfl)
  rw [Caches, OrderedMap.entries_set_of_not_mem habsent, hrequests, lastDistinct_concat_hit hmem,
    List.map_append, hcaches.eq_uncached hcached, herase, List.map_singleton]

/-- A miss puts the entry at the end, and evicts the first one when the cache is full. -/
theorem Caches.miss (hcaches : Caches parse calls cache) {source : JsString}
    (hsource : source ≠ []) (hcached : cache.get? source = none) :
    Caches parse (calls ++ [source])
      (evict (cache.set source (stripMarkdownUncached parse source))) := by
  have habsent := (OrderedMap.get?_eq_none_iff cache source).mp hcached
  have hmem : source ∉ lastDistinct stripCacheCap (requests calls) := by
    rw [← hcaches.keys_eq]
    exact habsent
  have hrequests : requests (calls ++ [source]) = requests calls ++ [source] := by
    simp [requests, hsource]
  have hentries := OrderedMap.entries_set_of_not_mem habsent (stripMarkdownUncached parse source)
  have hcount : (cache.set source (stripMarkdownUncached parse source)).entries.length =
      (lastDistinct stripCacheCap (requests calls)).length + 1 := by
    rw [hentries, hcaches]
    simp
  have hle := length_lastDistinct_le stripCacheCap (requests calls)
  rw [Caches, hrequests, lastDistinct_concat_miss (by decide) hmem, evict, hcount]
  by_cases hfull : (lastDistinct stripCacheCap (requests calls)).length = stripCacheCap
  · rw [if_pos (by omega), if_pos hfull]
    cases hlast : lastDistinct stripCacheCap (requests calls) with
    | nil =>
      rw [hlast] at hfull
      cases hfull
    | cons oldest rest =>
      have hset : (cache.set source (stripMarkdownUncached parse source)).entries =
          (oldest, stripMarkdownUncached parse oldest) ::
            ((rest.map fun other ↦ (other, stripMarkdownUncached parse other)) ++
              [(source, stripMarkdownUncached parse source)]) := by
        rw [hentries, hcaches, hlast]
        rfl
      have hhead : (cache.set source (stripMarkdownUncached parse source)).keys.head? =
          some oldest := by
        rw [OrderedMap.keys, hset]
        rfl
      rw [hhead]
      dsimp only
      rw [OrderedMap.entries_erase_head hset, List.tail_cons, List.map_append, List.map_singleton]
  · rw [if_neg (by omega), if_neg hfull, hentries, hcaches, List.map_append, List.map_singleton]

/-- A call keeps the cache. -/
theorem Caches.step {state : StripState} (hcaches : Caches parse calls state.cache)
    (source : JsString) :
    Caches parse (calls ++ [source]) (stripMarkdown parse state source).1.cache := by
  unfold stripMarkdown
  by_cases hsource : source = []
  · have hrequests : requests (calls ++ [source]) = requests calls := by
      simp [requests, hsource]
    rw [if_pos hsource, Caches, hrequests]
    exact hcaches
  · rw [if_neg hsource]
    cases hcached : state.cache.get? source with
    | some cached => exact hcaches.hit hsource hcached
    | none => exact hcaches.miss hsource hcached

/-- After any calls, the cache holds the previews of the sources requested last. -/
theorem caches_after (calls : List JsString) : Caches parse calls (after parse calls).cache := by
  induction calls using List.reverseRecOn with
  | nil => rfl
  | append_singleton calls source ih =>
    rw [after, List.foldl_append]
    exact ih.step source

/-- A source has to be parsed exactly when it is not cached. -/
theorem needsParse_iff (calls : List JsString) {source : JsString} (hsource : source ≠ []) :
    NeedsParse calls source ↔ (after parse calls).cache.get? source = none := by
  have hkeep : ∀ before since, requests (before ++ source :: since) =
      requests before ++ source :: requests since := by
    intro before since
    simp [requests, hsource]
  have hlater : ∀ since, source ∉ since → source ∉ requests since :=
    fun since habsent hmem ↦ habsent (List.mem_of_mem_filter hmem)
  rw [OrderedMap.get?_eq_none_iff, (caches_after calls).keys_eq]
  constructor
  · rintro (hnew | ⟨before, since, rfl, habsent, hmany⟩) hmem
    · exact hnew (List.mem_of_mem_filter (mem_of_mem_lastDistinct hmem))
    · rw [hkeep, mem_lastDistinct_append (hlater since habsent)] at hmem
      omega
  · intro hevicted
    by_cases hcalls : source ∈ calls
    · obtain ⟨before, since, rfl, habsent⟩ := exists_last_use hcalls
      rw [hkeep, mem_lastDistinct_append (hlater since habsent)] at hevicted
      exact .inr ⟨before, since, rfl, habsent, Nat.le_of_not_lt hevicted⟩
    · exact .inl hcalls

/-- After any calls, a call returns the preview of its source and leaves at most as many entries as
the cap; for a source that is not empty the parser runs once when the source was not requested
before or enough others were requested since, and not at all otherwise. -/
theorem strip_transparent (hempty : parse [] = []) (calls : List JsString) (source : JsString) :
    let state := after parse calls
    let called := stripMarkdown parse state source
    called.2 = stripMarkdownUncached parse source ∧
    called.1.cache.entries.length ≤ stripCacheCap ∧
    (called.1.stripParseCalls = state.stripParseCalls ∨
      called.1.stripParseCalls = state.stripParseCalls + 1) ∧
    (source ≠ [] → (called.1.stripParseCalls = state.stripParseCalls + 1 ↔
      NeedsParse calls source)) := by
  intro state called
  have hcaches : Caches parse calls state.cache := caches_after calls
  have hsize : called.1.cache.entries.length ≤ stripCacheCap := by
    rw [hcaches.step source, List.length_map]
    exact length_lastDistinct_le _ _
  by_cases hsource : source = []
  · have hcalled : called = (state, []) := if_pos hsource
    have hpreview : stripMarkdownUncached parse [] = [] := by
      rw [stripMarkdownUncached, hempty]
      rfl
    rw [hcalled, hsource, hpreview]
    rw [hcalled] at hsize
    exact ⟨rfl, hsize, .inl rfl, fun hne ↦ absurd rfl hne⟩
  · have hneeds := @needsParse_iff parse calls source hsource
    cases hcached : state.cache.get? source with
    | some cached =>
      have hcalled : called =
          ({ state with cache := (state.cache.erase source).set source cached }, cached) := by
        show stripMarkdown parse state source = _
        rw [stripMarkdown, if_neg hsource, hcached]
      have hparsed : ¬ NeedsParse calls source := fun hneed ↦ by
        have hnone := hneeds.mp hneed
        rw [hcached] at hnone
        cases hnone
      refine ⟨?_, hsize, .inl (by rw [hcalled]), fun _ ↦ ⟨fun hone ↦ ?_, fun hneed ↦ ?_⟩⟩
      · rw [hcalled]
        exact hcaches.eq_uncached hcached
      · rw [hcalled] at hone
        exact absurd hone (Nat.succ_ne_self _).symm
      · exact absurd hneed hparsed
    | none =>
      have hcalled : called =
          (⟨evict (state.cache.set source (stripMarkdownUncached parse source)),
            state.stripParseCalls + 1⟩, stripMarkdownUncached parse source) := by
        show stripMarkdown parse state source = _
        rw [stripMarkdown, if_neg hsource, hcached]
      have hone : called.1.stripParseCalls = state.stripParseCalls + 1 := by rw [hcalled]
      exact ⟨by rw [hcalled], hsize, .inr hone, fun _ ↦ ⟨fun _ ↦ hneeds.mpr hcached, fun _ ↦ hone⟩⟩

/-- The parser on single words: a paragraph of one text. -/
def parseWord (source : JsString) : Document :=
  if source = [] then [] else [.paragraph [.text source]]

/-- A word that was requested before is not parsed again. -/
theorem strip_transparent_secondRequest :
    (stripMarkdown parseWord (after parseWord [jsString "one", jsString "two"])
      (jsString "one")).2 = stripMarkdownUncached parseWord (jsString "one") ∧
    ¬ NeedsParse [jsString "one", jsString "two"] (jsString "one") := by
  obtain ⟨hresult, -, -, hneeds⟩ :=
    @strip_transparent parseWord rfl [jsString "one", jsString "two"] (jsString "one")
  exact ⟨hresult, fun hneed ↦ absurd ((hneeds (by decide)).mpr hneed) (by decide +kernel)⟩

end StripState

end OpfsWebauthn.Notes
