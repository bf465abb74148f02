import OpfsWebauthn.Auth.CredentialText
import OpfsWebauthn.Storage.Repo

/-!
# The credential store

`readVaultFile` and `writeVaultFile` of `credential-store.ts` over the origin's private file system.
A file that is written through a stream is read with its old content until the stream is closed:
what is written goes to a swap file, which `close()` puts in place and `abort()` drops. Getting the
handle with `create` makes an empty file when there is none.

Every step that is awaited may fail, and a failed write may have written anything. The steps act on
the disk one after another, so they are computations with a state that survives an error.

`set_atomic` says that a call that is rejected leaves what `get()` answers as it was, and that a
call that succeeds makes it answer with the credential.
-/

set_option autoImplicit false
set_option relaxedAutoImplicit false

namespace OpfsWebauthn.Auth.CredentialStore

open Foundation Storage Crypto

/-! ### The file system -/

/-- The vault file, if there is one, and the swap file of a stream that is open on it. -/
structure Disk where
  file : Option Bytes
  swap : Option Bytes
deriving DecidableEq, Repr

/-- A computation on the disk that may be rejected; what it did before stays done. -/
abbrev DiskStep (α : Type) :=
  ExceptT StoreError (StateM Disk) α

/-- Which steps of a write fail, and with what message. A failed write leaves some bytes in the
swap file. -/
structure WriteFaults where
  root : Bool
  getFileHandle : Option String
  createWritable : Option String
  write : Option (Bytes × String)
  abort : Option String
  close : Option String
deriving DecidableEq, Repr

/-- Which steps of a read fail, other than by a `NotFoundError`. -/
structure ReadFaults where
  root : Bool
  getFileHandle : Option String
  getFile : Option String
deriving DecidableEq, Repr

/-- A step that fails with a message, or goes on. -/
def attempt : Option String → DiskStep Unit
  | some message => throw (.failed message)
  | none => pure ()

/-- `opfsRoot()`. -/
def opfsRoot (missing : Bool) : DiskStep Unit :=
  if missing then throw .unavailable else pure ()

/-- `root.getFileHandle(VAULT_FILE, { create: true })`. -/
def createFileHandle (fault : Option String) : DiskStep Unit := do
  attempt fault
  modify fun disk ↦ { disk with file := some (disk.file.getD []) }

/-- `fileHandle.createWritable()`: the swap file starts empty. -/
def createWritable (fault : Option String) : DiskStep Unit := do
  attempt fault
  modify fun disk ↦ { disk with swap := some [] }

/-- `writable.write(text)`. -/
def write (fault : Option (Bytes × String)) (text : List Char) : DiskStep Unit :=
  match fault with
  | some (written, message) => do
    modify fun disk ↦ { disk with swap := some written }
    throw (.failed message)
  | none => modify fun disk ↦ { disk with swap := some (utf8 (String.ofList text)) }

/-- `writable.abort(err)`. -/
def abort (fault : Option String) : DiskStep Unit := do
  attempt fault
  modify fun disk ↦ { disk with swap := none }

/-- `writable.close()`: the swap file takes the place of the file. -/
def close (fault : Option String) : DiskStep Unit := do
  attempt fault
  modify fun disk ↦ { file := disk.swap, swap := none }

/-! ### Decoding a file -/

/-- A sequence of UTF-8 that is not complete: how many bytes are missing, the range of the next one,
and the number so far. -/
structure Utf8Pending where
  needed : ℕ
  lower : ℕ
  upper : ℕ
  codePoint : ℕ

/-- The first byte of a sequence: the characters it completes, and what it leaves pending. -/
def leadByte (byte : ℕ) : List Char × Option Utf8Pending :=
  if byte ≤ 0x7f then ([Char.ofNat byte], none)
  else if 0xc2 ≤ byte ∧ byte ≤ 0xdf then ([], some ⟨1, 0x80, 0xbf, byte % 0x20⟩)
  else if 0xe0 ≤ byte ∧ byte ≤ 0xef then
    ([], some ⟨2, if byte = 0xe0 then 0xa0 else 0x80, if byte = 0xed then 0x9f else 0xbf,
      byte % 0x10⟩)
  else if 0xf0 ≤ byte ∧ byte ≤ 0xf4 then
    ([], some ⟨3, if byte = 0xf0 then 0x90 else 0x80, if byte = 0xf4 then 0x8f else 0xbf,
      byte % 0x08⟩)
  else (['\uFFFD'], none)

/-- One more byte. A byte outside the range ends the sequence with a replacement character and is
looked at once more, as a first byte. -/
def nextByte (pending : Option Utf8Pending) (byte : ℕ) : List Char × Option Utf8Pending :=
  match pending with
  | none => leadByte byte
  | some sequence =>
    if sequence.lower ≤ byte ∧ byte ≤ sequence.upper then
      let codePoint := 0x40 * sequence.codePoint + byte % 0x40
      if sequence.needed = 1 then ([Char.ofNat codePoint], none)
      else ([], some ⟨sequence.needed - 1, 0x80, 0xbf, codePoint⟩)
    else
      let (chars, pending) := leadByte byte
      ('\uFFFD' :: chars, pending)

/-- Bytes that are not valid UTF-8, with replacement characters for the faults. -/
def replaceFaults (pending : Option Utf8Pending) : Bytes → List Char
  | [] => if pending.isSome then ['\uFFFD'] else []
  | byte :: rest =>
    let (chars, pending) := nextByte pending byte.toNat
    chars ++ replaceFaults pending rest

/-- `file.text()`: the decoder drops a byte order mark and never fails. -/
def fileText (bytes : Bytes) : List Char :=
  match decodeUtf8 bytes with
  | .ok text => text.toList
  | .error _ => (dropMark (String.ofList (replaceFaults none bytes))).toList

/-! ### The store -/

/-- `readVaultFile()`. -/
def readVaultFile (faults : ReadFaults) : DiskStep (Option StoredCredential) := do
  opfsRoot faults.root
  attempt faults.getFileHandle
  match (← get).file with
  | none => return none
  | some bytes => do
    attempt faults.getFile
    deserialize (fileText bytes)

/-- `writeVaultFile(credential)`. -/
def writeVaultFile (faults : WriteFaults) (credential : StoredCredential) : DiskStep Unit := do
  opfsRoot faults.root
  createFileHandle faults.getFileHandle
  createWritable faults.createWritable
  try
    write faults.write (stringify (serialize credential))
  catch cause =>
    try abort faults.abort catch _ => pure ()
    throw cause
  close faults.close

/-- A computation on the disk: how it is settled, and the disk after it. -/
def perform {α : Type} (step : DiskStep α) (disk : Disk) : Except StoreError α × Disk :=
  Id.run ((ExceptT.run step).run disk)

/-! ### What a write leaves behind -/

/-- A write that cannot succeed. -/
def WriteFaults.Fatal (faults : WriteFaults) : Prop :=
  faults.root = true ∨ faults.getFileHandle.isSome ∨ faults.createWritable.isSome ∨
    faults.write.isSome ∨ faults.close.isSome

/-- The file after `getFileHandle` with `create`. -/
def Disk.created (disk : Disk) : Disk :=
  { disk with file := some (disk.file.getD []) }

/-- How a write ends: with a fault it is rejected, and the file was at most created; without one
the text is in the file. -/
theorem perform_writeVaultFile (faults : WriteFaults) (credential : StoredCredential)
    (disk : Disk) :
    (faults.Fatal ∧ (∃ cause, (perform (writeVaultFile faults credential) disk).1 = .error cause) ∧
      ((perform (writeVaultFile faults credential) disk).2.file = disk.file ∨
        (perform (writeVaultFile faults credential) disk).2.file = disk.created.file)) ∨
    (¬ faults.Fatal ∧ (perform (writeVaultFile faults credential) disk).1 = .ok () ∧
      (perform (writeVaultFile faults credential) disk).2.file =
        some (utf8 (String.ofList (stringify (serialize credential))))) := by
  obtain ⟨root, getFileHandle, createWritable, write, abort, close⟩ := faults
  cases root with
  | true => exact Or.inl ⟨Or.inl rfl, ⟨_, rfl⟩, Or.inl rfl⟩
  | false =>
    cases getFileHandle with
    | some message => exact Or.inl ⟨Or.inr (Or.inl rfl), ⟨_, rfl⟩, Or.inl rfl⟩
    | none =>
      cases createWritable with
      | some message => exact Or.inl ⟨Or.inr (Or.inr (Or.inl rfl)), ⟨_, rfl⟩, Or.inr rfl⟩
      | none =>
        cases write with
        | some fault =>
          have hfatal : WriteFaults.Fatal ⟨false, none, none, some fault, abort, close⟩ :=
            Or.inr (Or.inr (Or.inr (Or.inl rfl)))
          cases abort with
          | some message => exact Or.inl ⟨hfatal, ⟨_, rfl⟩, Or.inr rfl⟩
          | none => exact Or.inl ⟨hfatal, ⟨_, rfl⟩, Or.inr rfl⟩
        | none =>
          cases close with
          | some message =>
            exact Or.inl ⟨Or.inr (Or.inr (Or.inr (Or.inr rfl))), ⟨_, rfl⟩, Or.inr rfl⟩
          | none =>
            refine Or.inr ⟨?_, rfl, rfl⟩
            simp [WriteFaults.Fatal]

/-! ### What a read answers -/

/-- What a read answers when the steps before it succeed: nothing without a file, and what the text
of the file deserializes to. -/
def answer (file : Option Bytes) : Except StoreError (Option StoredCredential) :=
  match file with
  | none => .ok none
  | some bytes => deserialize (fileText bytes)

/-- A read of files that can be read, unless it fails before it looks for the file. -/
theorem perform_readVaultFile (reads : ReadFaults) (hreadable : reads.getFile = none)
    (disk : Disk) :
    (perform (readVaultFile reads) disk).1 =
      if reads.root then .error .unavailable
      else match reads.getFileHandle with
        | some message => .error (.failed message)
        | none => answer disk.file := by
  obtain ⟨root, getFileHandle, getFile⟩ := reads
  obtain ⟨file, swap⟩ := disk
  have hnone : getFile = none := hreadable
  rw [hnone]
  cases root with
  | true => rfl
  | false =>
    cases getFileHandle with
    | some message => rfl
    | none =>
      cases file with
      | none => rfl
      | some bytes => rfl

/-- A read without a fault. -/
theorem readVaultFile_of_readable (disk : Disk) :
    (perform (readVaultFile ⟨false, none, none⟩) disk).1 = answer disk.file :=
  perform_readVaultFile ⟨false, none, none⟩ rfl disk

/-- An empty file is answered like no file. -/
theorem answer_created (disk : Disk) : answer disk.created.file = answer disk.file := by
  obtain ⟨file, swap⟩ := disk
  cases file with
  | none => rfl
  | some bytes => rfl

/-- Creating the file does not change what is answered. -/
theorem readVaultFile_created (reads : ReadFaults) (hreadable : reads.getFile = none)
    {disk after : Disk} (hfile : after.file = disk.file ∨ after.file = disk.created.file) :
    (perform (readVaultFile reads) after).1 = (perform (readVaultFile reads) disk).1 := by
  have hanswer : answer after.file = answer disk.file := by
    rcases hfile with hsame | hcreated
    · rw [hsame]
    · rw [hcreated, answer_created]
  rw [perform_readVaultFile reads hreadable, perform_readVaultFile reads hreadable, hanswer]

/-- The text of a credential is read from the file as it was written. -/
theorem fileText_stringify (serialized : Serialized) :
    fileText (utf8 (String.ofList (stringify serialized))) = stringify serialized := by
  have hmark : dropMark (String.ofList (stringify serialized)) =
      String.ofList (stringify serialized) := by
    rw [dropMark_eq_self_iff]
    intro hmark
    rw [StartsWithMark, String.toList_ofList] at hmark
    exact absurd (Option.some.inj hmark) (by decide)
  unfold fileText
  rw [decodeUtf8_utf8, hmark]
  exact String.toList_ofList

/-- A write is all or nothing and loses nothing. It is rejected exactly when a step fails. When it
is rejected, `get()` answers what it answered before, as long as files can be read. When it
succeeds, `get()` answers with the credential. -/
theorem set_allOrNothing (faults : WriteFaults) (disk : Disk) {credential : StoredCredential}
    (hfinite : IsFinite credential.createdAt) :
    (faults.Fatal ↔ ∃ cause, (perform (writeVaultFile faults credential) disk).1 = .error cause) ∧
      ((∃ cause, (perform (writeVaultFile faults credential) disk).1 = .error cause) →
        ∀ reads : ReadFaults, reads.getFile = none →
          (perform (readVaultFile reads) (perform (writeVaultFile faults credential) disk).2).1 =
            (perform (readVaultFile reads) disk).1) ∧
      ((perform (writeVaultFile faults credential) disk).1 = .ok () →
        (perform (readVaultFile ⟨false, none, none⟩)
          (perform (writeVaultFile faults credential) disk).2).1 = .ok (some credential)) := by
  rcases perform_writeVaultFile faults credential disk with
    ⟨hfatal, ⟨cause, hcause⟩, hfile⟩ | ⟨hsound, hok, hfile⟩
  · refine ⟨iff_of_true hfatal ⟨cause, hcause⟩, fun _ reads hreadable ↦ ?_, fun hok ↦ ?_⟩
    · exact readVaultFile_created reads hreadable hfile
    · rw [hcause] at hok
      cases hok
  · have hsettled : ¬ ∃ cause,
        (perform (writeVaultFile faults credential) disk).1 = .error cause := by
      rintro ⟨cause, hcause⟩
      rw [hok] at hcause
      cases hcause
    refine ⟨iff_of_false hsound hsettled, fun hrejected ↦ absurd hrejected hsettled, fun _ ↦ ?_⟩
    rw [readVaultFile_of_readable, hfile, answer, fileText_stringify,
      deserialize_stringify hfinite]

/-- A credential with every kind of value: bytes whose digits need both replacements, a lone
surrogate, and a time in milliseconds. -/
def sampleCredential : StoredCredential where
  credentialId := [0xfb, 0xff, 0xbf, 0xfa]
  prfSalt := [1, 2, 3]
  wrappedDek := []
  wrapNonce := [9]
  rpId := [0x61, 0xd83d]
  createdAt := ⟨.finite 1700000000000, fun value hvalue ↦ by
    rw [Number.finite.injEq] at hvalue
    rw [← hvalue]
    exact ⟨1700000000000, 0, by norm_num, by norm_num, by norm_num, by norm_num⟩⟩

/-- A write that breaks off while there is no file yet, and whose stream cannot be aborted. -/
theorem set_allOrNothing_brokenWrite :
    let faults : WriteFaults := ⟨false, none, none, some ([0x7b], "quota"), some "errored", none⟩
    let disk : Disk := ⟨none, none⟩
    (faults.Fatal ↔ ∃ cause,
      (perform (writeVaultFile faults sampleCredential) disk).1 = .error cause) ∧
      ((∃ cause, (perform (writeVaultFile faults sampleCredential) disk).1 = .error cause) →
        ∀ reads : ReadFaults, reads.getFile = none →
          (perform (readVaultFile reads)
            (perform (writeVaultFile faults sampleCredential) disk).2).1 =
              (perform (readVaultFile reads) disk).1) ∧
      ((perform (writeVaultFile faults sampleCredential) disk).1 = .ok () →
        (perform (readVaultFile ⟨false, none, none⟩)
          (perform (writeVaultFile faults sampleCredential) disk).2).1 =
            .ok (some sampleCredential)) :=
  set_allOrNothing _ _ ⟨1700000000000, rfl⟩

/-! ### The credentials of the screen -/

/-- A credential of the ceremonies, with its values as JavaScript has them. -/
def StoredCredential.ofCredential (credential : VaultCredential) : StoredCredential where
  credentialId := credential.credentialId
  prfSalt := credential.prfSalt
  wrappedDek := credential.wrappedDek
  wrapNonce := credential.wrapNonce
  rpId := jsString credential.rpId
  createdAt := .round credential.createdAt

/-- Below `2 ^ 53`, as every time of the clock is, the time of a credential of the ceremonies is a
double. Its text stands for this credential and no other, so the model of the screen may keep the
credential in place of its text. -/
theorem deserialize_ofCredential {credential : VaultCredential}
    (hcreatedAt : credential.createdAt < 2 ^ 53) :
    deserialize (stringify (serialize (.ofCredential credential))) =
      .ok (some (.ofCredential credential)) ∧
      ∀ other : VaultCredential, other.createdAt < 2 ^ 53 →
        StoredCredential.ofCredential other = .ofCredential credential → other = credential := by
  constructor
  · exact deserialize_stringify
      ⟨credential.createdAt, round_of_isDouble (isDouble_natCast hcreatedAt)⟩
  · intro other hother hsame
    obtain ⟨credentialId, prfSalt, wrappedDek, wrapNonce, rpId, createdAt⟩ := credential
    obtain ⟨otherId, otherSalt, otherDek, otherNonce, otherRpId, otherCreatedAt⟩ := other
    unfold StoredCredential.ofCredential at hsame
    simp only [StoredCredential.mk.injEq] at hsame
    obtain ⟨rfl, rfl, rfl, rfl, hrpId, htime⟩ := hsame
    have hnumbers : Number.round otherCreatedAt = Number.round createdAt :=
      congrArg Subtype.val htime
    rw [round_of_isDouble (isDouble_natCast hother),
      round_of_isDouble (isDouble_natCast hcreatedAt), Number.finite.injEq, Nat.cast_inj]
      at hnumbers
    have htimes : otherCreatedAt = createdAt := hnumbers
    rw [jsString_injective hrpId, htimes]

end OpfsWebauthn.Auth.CredentialStore
