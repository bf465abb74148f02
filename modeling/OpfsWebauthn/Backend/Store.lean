import Mathlib.Algebra.Group.Nat.Defs
import OpfsWebauthn.Foundation.OrderedMap
import OpfsWebauthn.Storage.Rpc

/-!
# The rendezvous store of the share backend

`store.rs` and `store_memory.rs`: three maps under one mutex, for the rendezvous records, the
uploaded blobs and the mint counters. Every write first sweeps the entries of all three maps whose
deadline is not after the wall clock; reads do not sweep. `takeBlob` compares the deadline with the
clock of the handler, which is an argument.

Each method is a function of the maps and of the readings of the wall clock it makes;
`incrementMintCounter` makes two, one in the sweep and one for the new deadline.
-/

set_option autoImplicit false
set_option relaxedAutoImplicit false

namespace OpfsWebauthn.Backend

open Foundation Storage

/-- `u32::MAX`. -/
def u32Max : ℕ := 2 ^ 32 - 1

/-- `u64::MAX`. -/
def u64Max : ℕ := 2 ^ 64 - 1

/-- `saturating_add` below a maximum. -/
def saturatingAdd (max first second : ℕ) : ℕ :=
  min (first + second) max

/-- `RendezvousRecord`: the recipient's public key and its deadline in unix seconds. -/
structure RendezvousRecord where
  epk : Bytes
  expiresAt : ℕ
deriving DecidableEq, Repr

/-- `StoredBlob`. -/
structure StoredBlob where
  bytes : Bytes
  expiresAt : ℕ
deriving DecidableEq, Repr

/-- `Counter`. -/
structure Counter where
  count : ℕ
  expiresAt : ℕ
deriving DecidableEq, Repr

/-- `Expirable`. -/
class Expirable (V : Type) where
  expiresAt : V → ℕ

instance : Expirable RendezvousRecord := ⟨RendezvousRecord.expiresAt⟩
instance : Expirable StoredBlob := ⟨StoredBlob.expiresAt⟩
instance : Expirable Counter := ⟨Counter.expiresAt⟩

/-- `retain_unexpired(map, now)`. -/
def retainUnexpired {V : Type} [Expirable V] (map : OrderedMap String V) (now : ℕ) :
    OrderedMap String V :=
  map.retain fun _ value ↦ Expirable.expiresAt value > now

/-- `Inner`. A stored record has the fields of a `RendezvousRecord`. -/
structure Inner where
  records : OrderedMap String RendezvousRecord
  blobs : OrderedMap String StoredBlob
  counters : OrderedMap String Counter

namespace Inner

/-- `Inner::default()`. -/
def empty : Inner :=
  ⟨.empty, .empty, .empty⟩

/-- `sweep(inner)`, with the reading of the wall clock. -/
def sweep (inner : Inner) (now : ℕ) : Inner :=
  ⟨retainUnexpired inner.records now, retainUnexpired inner.blobs now,
    retainUnexpired inner.counters now⟩

/-- `put_rendezvous(code, record)`. -/
def putRendezvous (inner : Inner) (wall : ℕ) (code : String) (record : RendezvousRecord) :
    Inner × Bool :=
  let swept := inner.sweep wall
  if (swept.records.get? code).isSome then (swept, false)
  else ({ swept with records := swept.records.set code record }, true)

/-- `get_rendezvous(code)`. -/
def getRendezvous (inner : Inner) (code : String) : Option RendezvousRecord :=
  inner.records.get? code

/-- `put_blob(code, blob, expires_at)`. -/
def putBlob (inner : Inner) (wall : ℕ) (code : String) (blob : Bytes) (expiresAt : ℕ) :
    Inner × Bool :=
  let swept := inner.sweep wall
  if (swept.blobs.get? code).isSome then (swept, false)
  else ({ swept with blobs := swept.blobs.set code ⟨blob, expiresAt⟩ }, true)

/-- `take_blob(code, now)`. An expired blob is removed and not served. -/
def takeBlob (inner : Inner) (code : String) (now : ℕ) : Inner × Option Bytes :=
  let removed := { inner with blobs := inner.blobs.erase code }
  match inner.blobs.get? code with
  | some blob => if blob.expiresAt ≤ now then (removed, none) else (removed, some blob.bytes)
  | none => (removed, none)

/-- `increment_mint_counter(ip, ttl_seconds)`. The sweep reads the wall clock at `swept`, the
deadline is counted from `wall`; every hit moves it. -/
def incrementMintCounter (inner : Inner) (swept wall : ℕ) (ip : String) (ttlSeconds : ℕ) :
    Inner × ℕ :=
  let inner := inner.sweep swept
  let expiresAt := saturatingAdd u64Max wall ttlSeconds
  let entry := (inner.counters.get? ip).getD ⟨0, expiresAt⟩
  let count := saturatingAdd u32Max entry.count 1
  ({ inner with counters := inner.counters.set ip ⟨count, expiresAt⟩ }, count)

/-! ### What a sweep keeps -/

/-- A lookup after a sweep finds what was there and has not expired. -/
theorem get?_retainUnexpired {V : Type} [Expirable V] (map : OrderedMap String V) (now : ℕ)
    (key : String) (value : V) : (retainUnexpired map now).get? key = some value ↔
      map.get? key = some value ∧ now < Expirable.expiresAt value := by
  rw [retainUnexpired, OrderedMap.get?_retain, Option.filter_eq_some_iff, decide_eq_true_eq]

@[simp] theorem get?_records_sweep (inner : Inner) (now : ℕ) (code : String)
    (record : RendezvousRecord) : (inner.sweep now).records.get? code = some record ↔
      inner.records.get? code = some record ∧ now < record.expiresAt :=
  get?_retainUnexpired _ _ _ _

@[simp] theorem get?_blobs_sweep (inner : Inner) (now : ℕ) (code : String) (blob : StoredBlob) :
    (inner.sweep now).blobs.get? code = some blob ↔
      inner.blobs.get? code = some blob ∧ now < blob.expiresAt :=
  get?_retainUnexpired _ _ _ _

@[simp] theorem get?_counters_sweep (inner : Inner) (now : ℕ) (ip : String) (counter : Counter) :
    (inner.sweep now).counters.get? ip = some counter ↔
      inner.counters.get? ip = some counter ∧ now < counter.expiresAt :=
  get?_retainUnexpired _ _ _ _

/-! ### What the methods do to each map -/

/-- A record is stored exactly when the code is free after the sweep. -/
theorem putRendezvous_cases (inner : Inner) (wall : ℕ) (code : String)
    (record : RendezvousRecord) :
    ((inner.sweep wall).records.get? code = none ∧ inner.putRendezvous wall code record =
      ({ inner.sweep wall with records := (inner.sweep wall).records.set code record }, true)) ∨
    (∃ other, (inner.sweep wall).records.get? code = some other ∧
      inner.putRendezvous wall code record = (inner.sweep wall, false)) := by
  unfold putRendezvous
  cases hfound : (inner.sweep wall).records.get? code with
  | none => exact .inl ⟨rfl, by simp [hfound]⟩
  | some other => exact .inr ⟨other, rfl, by simp [hfound]⟩

/-- A blob is stored exactly when the code has none after the sweep. -/
theorem putBlob_cases (inner : Inner) (wall : ℕ) (code : String) (bytes : Bytes)
    (expiresAt : ℕ) :
    ((inner.sweep wall).blobs.get? code = none ∧ inner.putBlob wall code bytes expiresAt =
      ({ inner.sweep wall with
        blobs := (inner.sweep wall).blobs.set code ⟨bytes, expiresAt⟩ }, true)) ∨
    (∃ other, (inner.sweep wall).blobs.get? code = some other ∧
      inner.putBlob wall code bytes expiresAt = (inner.sweep wall, false)) := by
  unfold putBlob
  cases hfound : (inner.sweep wall).blobs.get? code with
  | none => exact .inl ⟨rfl, by simp [hfound]⟩
  | some other => exact .inr ⟨other, rfl, by simp [hfound]⟩

/-- A pickup leaves the code without a blob, whatever it returns. -/
theorem takeBlob_fst (inner : Inner) (code : String) (now : ℕ) :
    (inner.takeBlob code now).1 = { inner with blobs := inner.blobs.erase code } := by
  unfold takeBlob
  cases inner.blobs.get? code with
  | none => rfl
  | some blob =>
    by_cases hexpired : blob.expiresAt ≤ now
    · simp [hexpired]
    · simp [hexpired]

/-- A pickup succeeds exactly on a blob whose deadline is after the clock of the handler. -/
theorem takeBlob_snd_eq_some_iff (inner : Inner) (code : String) (now : ℕ) (bytes : Bytes) :
    (inner.takeBlob code now).2 = some bytes ↔
      ∃ expiresAt, inner.blobs.get? code = some ⟨bytes, expiresAt⟩ ∧ now < expiresAt := by
  unfold takeBlob
  cases inner.blobs.get? code with
  | none => simp
  | some blob =>
    obtain ⟨stored, deadline⟩ := blob
    by_cases hexpired : deadline ≤ now
    · have hnot : ¬ now < deadline := by omega
      simp [hexpired, hnot]
    · have hlt : now < deadline := by omega
      simp [hexpired, hlt]

end Inner

end OpfsWebauthn.Backend
