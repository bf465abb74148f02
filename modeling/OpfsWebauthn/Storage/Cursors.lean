import Mathlib.Data.List.Lex
import Mathlib.Data.List.TakeWhile
import Mathlib.Data.Prod.Lex
import OpfsWebauthn.Foundation.KeysetPages
import OpfsWebauthn.Foundation.Outcome
import OpfsWebauthn.Storage.NoteRepository
import OpfsWebauthn.Storage.RowIdCodec

/-!
# Cursors of the listing

The cursor that `list` returns is the text of a day and an encoded row id. Reading it back gives the
day and the bytes of the row id: the day is a decimal number, `decode` inverts `encode`, and neither
text has a colon. So `list` is paging by the key (day, row id), highest first: `list_spec`. The day
is read as a double, so this holds of the days that are exact as doubles (`ExactDay`).
-/

set_option autoImplicit false
set_option relaxedAutoImplicit false

namespace OpfsWebauthn.Storage

open Foundation

/-! ### The two parts of a cursor -/

/-- The characters of a row id are not colons. -/
theorem RowId.colon_not_mem_of_encode {bytes : Bytes} {id : String}
    (hencode : RowId.encode bytes = .ok id) : ':' ∉ id.toList ∧ id.toList ≠ [] := by
  have hlength : bytes.length = RowId.rowIdBytes := by
    by_contra hother
    rw [RowId.encode, if_pos hother] at hencode
    cases hencode
  obtain ⟨groups, hgroups, hcount, hbounded, -⟩ := RowId.encode_spec hlength
  obtain rfl : String.ofList (groups.map RowId.charOf) = id :=
    Except.ok.inj (hgroups.symm.trans hencode)
  rw [String.toList_ofList]
  constructor
  · intro hcolon
    obtain ⟨group, hgroup, hchar⟩ := List.mem_map.mp hcolon
    have hall : ∀ group < 2 ^ 5, RowId.charOf group ≠ ':' := by decide +kernel
    exact hall group (hbounded group hgroup) hchar
  · intro hempty
    rw [List.map_eq_nil_iff] at hempty
    rw [hempty] at hcount
    cases hcount

/-- The bytes of a key are compared as their values are. -/
theorem RowId.octets_lt_octets_iff (first second : Bytes) :
    RowId.octets first < RowId.octets second ↔ first < second := by
  induction first generalizing second with
  | nil =>
    cases second with
    | nil => simp [RowId.octets]
    | cons byte rest => simp [RowId.octets]
  | cons byte rest ih =>
    cases second with
    | nil => simp [RowId.octets]
    | cons other others =>
      have hrest := ih others
      unfold RowId.octets at hrest
      rw [RowId.octets, RowId.octets, List.map_cons, List.map_cons, List.cons_lt_cons_iff,
        List.cons_lt_cons_iff, hrest, UInt8.toNat_inj, UInt8.lt_iff_toNat_lt]

theorem RowId.octets_injective : Function.Injective RowId.octets := by
  have hinjective : Function.Injective UInt8.toNat := fun first second ↦ UInt8.toNat_inj.mp
  exact hinjective.list_map

/-- The digits of a number are digits. -/
theorem isDigit_of_mem_repr {number : ℕ} {ch : Char} (hch : ch ∈ number.repr.toList) :
    ch.isDigit = true := by
  rw [Nat.toList_repr] at hch
  exact Nat.isDigit_of_mem_toDigits (by decide) (by decide) hch

theorem repr_ne_nil (number : ℕ) : number.repr.toList ≠ [] := by
  rw [Nat.toList_repr]
  exact Nat.toDigits_ne_nil

/-- The text of a number has no colon. -/
theorem colon_not_mem_toString (day : ℤ) :
    ':' ∉ (toString day).toList ∧ (toString day).toList ≠ [] := by
  have hdigits : ∀ number : ℕ, ':' ∉ number.repr.toList := by
    intro number hcolon
    cases isDigit_of_mem_repr hcolon
  cases day with
  | ofNat number => exact ⟨hdigits number, repr_ne_nil number⟩
  | negSucc number =>
    show ':' ∉ ("-" ++ (number + 1).repr).toList ∧ ("-" ++ (number + 1).repr).toList ≠ []
    rw [String.toList_append]
    constructor
    · intro hcolon
      rcases List.mem_append.mp hcolon with hsign | hnumber
      · exact absurd hsign (by decide)
      · exact hdigits (number + 1) hnumber
    · exact List.append_ne_nil_of_right_ne_nil _ (repr_ne_nil (number + 1))

namespace NoteRepositorySql

/-- The digits of a number are read as the number. -/
theorem leadingDigits_repr (number : ℕ) : leadingDigits number.repr.toList = some number := by
  have hall : number.repr.toList.takeWhile Char.isDigit = number.repr.toList := by
    apply List.takeWhile_eq_self_iff.mpr
    intro ch hch
    exact isDigit_of_mem_repr hch
  have hvalue : number.repr.toList.foldl
      (fun value ch ↦ 10 * value + (ch.toNat - '0'.toNat)) 0 = number := by
    rw [Nat.toList_repr]
    exact Nat.ofDigitChars_ten_toDigits
  unfold leadingDigits
  rw [hall]
  split
  · next hempty => exact absurd hempty (repr_ne_nil number)
  · rw [hvalue]

/-- A day that is read back as itself, because a double holds it. -/
def ExactDay (day : ℤ) : Prop :=
  day.natAbs ≤ 2 ^ 53

instance (day : ℤ) : Decidable (ExactDay day) := by
  unfold ExactDay
  infer_instance

/-- A table whose days are all exact. -/
def ExactDays (table : NotesTable) : Prop :=
  ∀ row ∈ table.entries, ExactDay row.2.updatedDay

instance (table : NotesTable) : Decidable (ExactDays table) := by
  unfold ExactDays
  infer_instance

/-- Digits are no white space. -/
theorem isStrWhiteSpace_of_isDigit {ch : Char} (hdigit : ch.isDigit = true) :
    isStrWhiteSpace ch = false := by
  have hrange : 48 ≤ ch.toNat ∧ ch.toNat ≤ 57 := by
    simpa [Char.isDigit, UInt32.le_iff_toNat_le] using hdigit
  have hother : ∀ code < 58, 48 ≤ code → (code ∈ [0x09, 0x0A, 0x0B, 0x0C, 0x0D, 0x20, 0xA0, 0x1680,
      0x2028, 0x2029, 0x202F, 0x205F, 0x3000, 0xFEFF] || (0x2000 ≤ code && code ≤ 0x200A)) =
        false := by
    decide
  exact hother ch.toNat (Nat.lt_succ_of_le hrange.2) hrange.1

/-- The text of a natural number is read as the nearest double. -/
theorem leadingNumber_repr (number : ℕ) : leadingNumber number.repr.toList = .ofNat number := by
  unfold leadingNumber
  rw [leadingDigits_repr]

/-- The text of an exact day is read back. -/
theorem parseInt_toString {day : ℤ} (hexact : ExactDay day) :
    parseInt (toString day).toList = .finite day := by
  cases day with
  | ofNat number =>
    show parseInt number.repr.toList = .finite ((number : ℤ) : ℚ)
    have hread : leadingNumber number.repr.toList = .finite ((number : ℤ) : ℚ) := by
      rw [leadingNumber_repr, Int.cast_natCast]
      exact ofNat_small hexact
    have hdigit : ∀ ch ∈ number.repr.toList, ch.isDigit = true := fun ch ↦ isDigit_of_mem_repr
    revert hread hdigit
    generalize number.repr.toList = digits
    intro hread hdigit
    cases digits with
    | nil => cases hread
    | cons ch rest =>
      have hch := hdigit ch List.mem_cons_self
      unfold parseInt
      rw [List.dropWhile_cons_of_neg (by rw [isStrWhiteSpace_of_isDigit hch]; decide)]
      split
      · next hminus =>
        obtain rfl := (List.cons.inj hminus).1
        cases hch
      · next hplus =>
        obtain rfl := (List.cons.inj hplus).1
        cases hch
      · exact hread
  | negSucc number =>
    show parseInt ("-" ++ (number + 1).repr).toList = .finite (Int.negSucc number : ℤ)
    rw [String.toList_append]
    show (leadingNumber (number + 1).repr.toList).neg = _
    rw [leadingNumber_repr]
    exact neg_ofNat_small hexact

/-- The columns of a row compare with an exact day as integers do. -/
theorem dayLess_finite (stored day : ℤ) : dayLess stored (.finite day) = decide (stored < day) :=
  decide_eq_decide.mpr Int.cast_lt

theorem dayEquals_finite (stored day : ℤ) :
    dayEquals stored (.finite day) = decide (stored = day) := by
  unfold dayEquals
  refine decide_eq_decide.mpr ?_
  rw [Number.finite.injEq, Int.cast_inj, eq_comm]

/-! ### The sort key -/

/-- What the listing is ordered by: the day, then the bytes of the row id. -/
def sortKey (row : Bytes × NoteColumns) : ℤ ×ₗ List ℕ :=
  toLex (row.2.updatedDay, RowId.octets row.1)

theorem sortKey_lt_iff (row : Bytes × NoteColumns) (day : ℤ) (bytes : Bytes) :
    sortKey row < toLex (day, RowId.octets bytes) ↔
      row.2.updatedDay < day ∨ (row.2.updatedDay = day ∧ row.1 < bytes) := by
  rw [sortKey, Prod.Lex.toLex_lt_toLex, RowId.octets_lt_octets_iff]

/-- The order of the query is the order of the sort keys, highest first. -/
theorem precedes_iff (row later : Bytes × NoteColumns) :
    Precedes row later ↔ sortKey later ≤ sortKey row := by
  have hlt := sortKey_lt_iff row later.2.updatedDay later.1
  rw [← not_lt, show sortKey later = toLex (later.2.updatedDay, RowId.octets later.1) from rfl, hlt,
    Precedes, ← List.not_lt, not_or, not_and]
  constructor
  · rintro (hday | ⟨hday, hid⟩)
    · exact ⟨by omega, fun heq ↦ by omega⟩
    · exact ⟨by omega, fun _ ↦ hid⟩
  · rintro ⟨hday, hid⟩
    rcases Int.lt_or_eq_of_le (Int.not_lt.mp hday) with hlt | heq
    · exact .inl hlt
    · exact .inr ⟨heq, hid heq.symm⟩

/-- All rows, in the order of the listing. -/
theorem itemsPast_none (rows : List (Bytes × NoteColumns)) :
    itemsPast sortKey none rows = rows.insertionSort Precedes := by
  have hall : (rows.filter fun row ↦
      (none : Option (ℤ ×ₗ List ℕ)).all fun last ↦ sortKey row < last) = rows :=
    List.filter_true rows
  rw [itemsPast, hall]
  congr!
  exact (precedes_iff _ _).symm

/-- The rows that a page returns are rows of the table. -/
theorem exists_row_of_list {table : NotesTable} {input : ListPageInput} {page : ListPageOutput}
    (hpage : list table input = .ok page) {shown : EncryptedNoteRow} (hshown : shown ∈ page.rows) :
    ∃ row ∈ table.entries, decodeRow row = .ok shown := by
  unfold list at hpage
  obtain ⟨cursor, -, hpage⟩ := bind_eq_ok_iff.mp hpage
  obtain ⟨rows, hrows, hpage⟩ := bind_eq_ok_iff.mp hpage
  obtain rfl := Except.ok.inj hpage
  obtain ⟨row, hrow, hdecode⟩ := exists_of_mem_mapM hrows hshown
  exact ⟨row, mem_of_mem_listQuery (List.mem_of_mem_take hrow), hdecode⟩

/-- The rows that the archive filter keeps. -/
def matching (includeArchived : Bool) (table : NotesTable) : List (Bytes × NoteColumns) :=
  table.entries.filter fun row ↦ includeArchived || row.2.archived = 0

/-- The sort keys of the rows of a table are distinct. -/
theorem nodup_sortKey (includeArchived : Bool) (table : NotesTable) :
    ((matching includeArchived table).map sortKey).Nodup := by
  have hrows : table.entries.Pairwise fun row later ↦ row.1 ≠ later.1 :=
    List.pairwise_map.mp table.nodup_keys
  refine List.pairwise_map.mpr ((hrows.sublist List.filter_sublist).imp ?_)
  intro row later hne hkey
  apply hne
  have hoctets : RowId.octets row.1 = RowId.octets later.1 :=
    congrArg (fun key ↦ (ofLex key).2) hkey
  exact RowId.octets_injective hoctets

/-- What a cursor stands for: the start, or the day and the row id of the last row. -/
inductive CursorDenotes : Option String → Option (ℤ ×ₗ List ℕ) → Prop
  | start : CursorDenotes none none
  | after {day : ℤ} (hexact : ExactDay day) {bytes : Bytes} {id : String}
      (hencode : RowId.encode bytes = .ok id) :
    CursorDenotes (some (toString day ++ ":" ++ id)) (some (toLex (day, RowId.octets bytes)))

theorem CursorDenotes.null {cursor : Option String} (hdenotes : CursorDenotes cursor none) :
    cursor = none := by
  cases hdenotes
  rfl

theorem CursorDenotes.eq_none {last : Option (ℤ ×ₗ List ℕ)} (hdenotes : CursorDenotes none last) :
    last = none := by
  cases hdenotes
  rfl

theorem CursorDenotes.exists_last {last : Option (ℤ ×ₗ List ℕ)} {text : String}
    (hdenotes : CursorDenotes (some text) last) : ∃ bound, last = some bound := by
  cases hdenotes
  exact ⟨_, rfl⟩

theorem CursorDenotes.ne_empty {last : Option (ℤ ×ₗ List ℕ)} {text : String}
    (hdenotes : CursorDenotes (some text) last) : text ≠ "" := by
  cases hdenotes with
  | after hexact hencode =>
    intro hempty
    have hchars := congrArg String.toList hempty
    rw [String.toList_append, String.toList_append, String.toList_empty] at hchars
    exact (RowId.colon_not_mem_of_encode hencode).2 (List.append_eq_nil_iff.mp hchars).2

/-- A cursor made of a day and an encoded id is well formed, and selects the rows below the day as
it is read and the bytes of the id. -/
theorem cursorWhere_day_id (day : ℤ) {bytes : Bytes} {id : String}
    (hencode : RowId.encode bytes = .ok id) :
    cursorWhere (some (toString day ++ ":" ++ id)) = .ok fun row ↦
      dayLess row.2.updatedDay (parseInt (toString day).toList) ||
        (dayEquals row.2.updatedDay (parseInt (toString day).toList) && row.1 < bytes) := by
  obtain ⟨hday, hdayNonempty⟩ := colon_not_mem_toString day
  obtain ⟨hid, hidNonempty⟩ := RowId.colon_not_mem_of_encode hencode
  have hchars : (toString day ++ ":" ++ id).toList = (toString day).toList ++ ':' :: id.toList := by
    rw [String.toList_append, String.toList_append]
    simp
  have hsplit : (toString day ++ ":" ++ id).toList.splitOn ':' =
      [(toString day).toList, id.toList] := by
    rw [hchars, List.splitOn_append_cons_self_of_not_mem hday, List.splitOn_eq_singleton hid]
  have hdecode : decodeRowId (String.ofList id.toList) = .ok bytes := by
    rw [String.ofList_toList, decodeRowId, mapError_eq_ok_iff]
    exact RowId.decode_encode hencode
  have hnonempty : toString day ++ ":" ++ id ≠ "" := by
    intro hempty
    have hnil := congrArg String.toList hempty
    rw [hchars, String.toList_empty] at hnil
    exact absurd hnil (List.append_ne_nil_of_left_ne_nil hdayNonempty _)
  unfold cursorWhere
  split
  · next habsent => cases habsent
  · next hempty => exact absurd (Option.some.inj hempty) hnonempty
  · next text _ htext =>
    obtain rfl := Option.some.inj htext
    rw [hsplit]
    dsimp only
    rw [if_neg (not_or.mpr ⟨hdayNonempty, hidNonempty⟩), hdecode]
    rfl

/-- The condition of a cursor selects the rows whose sort key is below it. -/
theorem cursorWhere_of_denotes {cursor : Option String} {last : Option (ℤ ×ₗ List ℕ)}
    (hdenotes : CursorDenotes cursor last) :
    cursorWhere cursor = .ok fun row ↦ last.all fun bound ↦ sortKey row < bound := by
  cases hdenotes with
  | start => rfl
  | @after day hexact bytes id hencode =>
    rw [cursorWhere_day_id day hencode, parseInt_toString hexact]
    congr 1
    funext row
    rw [Option.all_some, dayLess_finite, dayEquals_finite]
    have hkey := sortKey_lt_iff row day bytes
    simp only [decide_eq_decide.mpr hkey, Bool.decide_or, Bool.decide_and]

/-! ### What a page returns -/

/-- What `decodeRow` returns: the columns, and the id that its key is encoded as. -/
theorem decodeRow_eq_ok_iff {row : Bytes × NoteColumns} {shown : EncryptedNoteRow} :
    decodeRow row = .ok shown ↔ ∃ id, RowId.encode row.1 = .ok id ∧
      { id := id
        updatedDay := row.2.updatedDay
        archived := row.2.archived = 1
        titleNonce := row.2.titleNonce
        titleCiphertext := row.2.titleCiphertext
        bodyNonce := row.2.bodyNonce
        bodyCiphertext := row.2.bodyCiphertext } = shown := by
  unfold decodeRow encodeRowId
  cases RowId.encode row.1 with
  | error error => simp [Except.mapError, Except.map]
  | ok id => simp [Except.mapError, Except.map]

/-- The cursor that a page returns is well formed, whatever cursor it was fetched with. -/
theorem cursorWhere_nextCursor {table : NotesTable} {input : ListPageInput}
    {page : ListPageOutput} (hpage : list table input = .ok page) :
    ∃ condition, cursorWhere page.nextCursor = .ok condition := by
  unfold list at hpage
  obtain ⟨cursor, -, hpage⟩ := bind_eq_ok_iff.mp hpage
  obtain ⟨rows, hrows, hpage⟩ := bind_eq_ok_iff.mp hpage
  obtain rfl := Except.ok.inj hpage
  dsimp only
  split_ifs
  · cases hlast : rows.getLast? with
    | none => exact ⟨_, rfl⟩
    | some last =>
      have hmem : last ∈ rows := List.mem_of_getLast? hlast
      obtain ⟨row, -, hrow⟩ := exists_of_mem_mapM hrows hmem
      obtain ⟨id, hid, rfl⟩ := decodeRow_eq_ok_iff.mp hrow
      exact ⟨_, cursorWhere_day_id row.2.updatedDay hid⟩
  · exact ⟨_, rfl⟩

/-- The limit that `list` uses. -/
def pageLimit (limit : ℤ) : ℕ :=
  (max listLimitMin (min limit listLimitMax)).toNat

theorem pageLimit_pos (limit : ℤ) : 0 < pageLimit limit := by
  unfold pageLimit listLimitMin listLimitMax
  omega

/-- The query of `list` is the front of the rows past the cursor. -/
theorem listQuery_eq (table : NotesTable) (includeArchived : Bool)
    (last : Option (ℤ ×ₗ List ℕ)) (limit : ℕ) :
    listQuery table includeArchived (fun row ↦ last.all fun bound ↦ sortKey row < bound) limit =
      (itemsPast sortKey last (matching includeArchived table)).take limit := by
  unfold listQuery itemsPast matching
  rw [List.filter_filter]
  congr 1
  have hfilter : (fun row : Bytes × NoteColumns ↦ (includeArchived || row.2.archived = 0) &&
      last.all fun bound ↦ sortKey row < bound) =
      fun row ↦ (last.all fun bound ↦ sortKey row < bound) &&
        (includeArchived || row.2.archived = 0) := by
    funext row
    exact Bool.and_comm _ _
  rw [hfilter]
  congr!
  exact precedes_iff _ _

/-- A page of `list` is a page of the matching rows past the cursor, and its cursor stands for the
cursor of the page that follows, when the days of the table are exact. -/
theorem list_spec {table : NotesTable} {limit : ℤ} {cursor : Option String}
    {includeArchived : Bool} {last : Option (ℤ ×ₗ List ℕ)} (hdays : ExactDays table)
    (hdenotes : CursorDenotes cursor last)
    {page : ListPageOutput} (hpage : list table ⟨limit, cursor, includeArchived⟩ = .ok page) :
    (keysetPage sortKey (pageLimit limit) last (matching includeArchived table)).mapM decodeRow =
      .ok page.rows ∧
    CursorDenotes page.nextCursor
      (keysetNext sortKey (pageLimit limit) last (matching includeArchived table)) := by
  unfold list at hpage
  obtain ⟨condition, hcondition, hpage⟩ := bind_eq_ok_iff.mp hpage
  obtain rfl := Except.ok.inj ((cursorWhere_of_denotes hdenotes).symm.trans hcondition)
  obtain ⟨rows, hrows, hpage⟩ := bind_eq_ok_iff.mp hpage
  obtain rfl := Except.ok.inj hpage
  rw [listQuery_eq] at hrows ⊢
  change (List.take (pageLimit limit) (List.take (pageLimit limit + 1) _)).mapM decodeRow =
    .ok rows at hrows
  rw [List.take_take, Nat.min_eq_left (Nat.le_succ _)] at hrows
  refine ⟨hrows, ?_⟩
  generalize hitems : itemsPast sortKey last (matching includeArchived table) = items at hrows ⊢
  change CursorDenotes (if (items.take (pageLimit limit + 1)).length > pageLimit limit then
    rows.getLast?.map fun last ↦ toString last.updatedDay ++ ":" ++ last.id else none) _
  rw [List.length_take, keysetNext, keysetPage, hitems]
  by_cases hmore : pageLimit limit < items.length
  · have hlimit := pageLimit_pos limit
    rw [if_pos (by omega), if_pos hmore]
    have hnonempty : items.take (pageLimit limit) ≠ [] := by
      intro hempty
      have hlength := congrArg List.length hempty
      rw [List.length_take, List.length_nil] at hlength
      omega
    obtain ⟨row, hrow⟩ := Option.ne_none_iff_exists'.mp
      (List.getLast?_eq_none_iff.not.mpr hnonempty)
    obtain ⟨shown, hshown, hdecode⟩ := getLast?_of_mapM hrows hrow
    obtain ⟨id, hid, rfl⟩ := decodeRow_eq_ok_iff.mp hdecode
    have hmem : row ∈ matching includeArchived table := by
      have hitem : row ∈ items := List.mem_of_mem_take (List.mem_of_getLast? hrow)
      rw [← hitems] at hitem
      exact (mem_itemsPast.mp hitem).1
    rw [hrow, hshown]
    exact .after (hdays row (List.mem_of_mem_filter hmem)) hid
  · rw [if_neg (by omega), if_neg hmore]
    exact .start

/-- A page of a table whose keys are row ids is returned, when the cursor is well formed. -/
theorem list_isOk {table : NotesTable}
    (hkeys : ∀ row ∈ table.entries, row.1.length = RowId.rowIdBytes) (limit : ℤ)
    {cursor : Option String} (includeArchived : Bool) {condition : Bytes × NoteColumns → Bool}
    (hcursor : cursorWhere cursor = .ok condition) :
    ∃ page, list table ⟨limit, cursor, includeArchived⟩ = .ok page := by
  have hrows : ∃ rows, ((listQuery table includeArchived condition (pageLimit limit + 1)).take
      (pageLimit limit)).mapM decodeRow = .ok rows := by
    apply mapM_isOk_iff.mpr
    intro row hrow
    have hmem := mem_of_mem_listQuery (List.mem_of_mem_take hrow)
    obtain ⟨id, hid⟩ := RowId.encode_total (hkeys row hmem)
    exact ⟨_, decodeRow_eq_ok_iff.mpr ⟨id, hid, rfl⟩⟩
  obtain ⟨rows, hrows⟩ := hrows
  unfold list
  exact ⟨_, bind_eq_ok_iff.mpr ⟨_, hcursor, bind_eq_ok_iff.mpr ⟨rows, hrows, rfl⟩⟩⟩

end NoteRepositorySql

end OpfsWebauthn.Storage
