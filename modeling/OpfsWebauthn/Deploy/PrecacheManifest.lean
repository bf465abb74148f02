import Mathlib.Data.Fin.VecNotation
import Mathlib.Data.List.FinRange
import Mathlib.Data.List.Infix
import Mathlib.Data.List.Lex
import Mathlib.Data.List.Sort
import OpfsWebauthn.Foundation.Delimited
import OpfsWebauthn.Foundation.JsonText
import OpfsWebauthn.Storage.Repo

/-!
# The version of the precache manifest

`build-precache-manifest.mjs` walks the output directory, sorts the paths of the files that it
includes, and hashes one stream: each path and each content, with a NUL after both. The first
sixteen digits of the hash are the version, and `sw.js` names its cache by it.

A path has no NUL, but a content may have some, so the stream does not say where a content ends.
`identifiesDeploy_iff` says for which two directories the version tells their files apart.
-/

set_option autoImplicit false
set_option relaxedAutoImplicit false

namespace OpfsWebauthn.Deploy

open Foundation Storage

/-! ### Directories -/

/-- The name of a directory entry. -/
abbrev FileName := {name : String // name ≠ "" ∧ '/' ∉ name.toList ∧ '\x00' ∉ name.toList}

/-- An entry of a directory. The entries of a directory are in the order of `readdir`, and their
names are distinct. -/
inductive Entry
  | file (content : Bytes)
  | directory (size : ℕ) (names : Fin size ↪ FileName) (entries : Fin size → Entry)
  /-- Neither a file nor a directory, such as a link. -/
  | special

/-- A directory. -/
structure Directory where
  size : ℕ
  names : Fin size ↪ FileName
  entries : Fin size → Entry

/-- A file that is included, with its path and what is read from it. -/
structure OutputFile where
  path : String
  content : Bytes
deriving DecidableEq, Repr

/-! ### The walk -/

/-- `EXCLUDE_BASENAMES`. -/
def excludeBasenames : List String := ["sw.js", "sw-manifest.js", "404.html", "index.txt"]

/-- `EXCLUDE_DIR_BASENAMES`. -/
def excludeDirBasenames : List String := ["404"]

/-- `rel.startsWith("api/") || rel.includes("/api/")`. -/
def isApiPath (rel : String) : Bool :=
  "api/".toList <+: rel.toList || "/api/".toList <:+: rel.toList

/-- The body of the loop of `walk`, on the entry with a name in the directory with a path. -/
def walkEntry (parent : String) (name : FileName) : Entry → List OutputFile
  | .directory size names entries =>
    if excludeDirBasenames.contains name.val then []
    else (List.finRange size).flatMap fun index ↦
      walkEntry (parent ++ name.val ++ "/") (names index) (entries index)
  | .special => []
  | .file content =>
    if excludeBasenames.contains name.val then []
    else if isApiPath (parent ++ name.val) then []
    else [⟨parent ++ name.val, content⟩]

/-- `walk(outDir, outDir)`, with the content of each file. -/
def walk (outDir : Directory) : List OutputFile :=
  (List.finRange outDir.size).flatMap fun index ↦
    walkEntry "" (outDir.names index) (outDir.entries index)

/-! ### The manifest -/

/-- What `files.sort()` compares: the code units of the path. -/
def sortKey (file : OutputFile) : List ℕ :=
  (jsString file.path).map UInt16.toNat

/-- The files after `files.sort()`. -/
def sortedFiles (outDir : Directory) : List OutputFile :=
  (walk outDir).insertionSort fun first second ↦ sortKey first ≤ sortKey second

/-- `"\0"`. -/
def nul : UInt8 := 0

/-- What the updates of the hash add up to. -/
def hashedStream (outDir : Directory) : Bytes :=
  (sortedFiles outDir).flatMap fun file ↦ utf8 file.path ++ [nul] ++ file.content ++ [nul]

/-- The manifest. -/
structure Manifest where
  version : String
  urls : List String
deriving DecidableEq, Repr

/-- `buildManifest(outDir)`, with SHA-256 as lower-case hexadecimal digits. -/
def buildManifest (sha256Hex : Bytes → String) (outDir : Directory) : Manifest where
  version := String.ofList ((sha256Hex (hashedStream outDir)).toList.take 16)
  urls := (sortedFiles outDir).map fun file ↦ "./" ++ file.path

/-- `CACHE_NAME` of the service worker. -/
def cacheName (manifest : Manifest) : String :=
  "opfs-shell-" ++ manifest.version

/-- Directories with different files have different versions and different cache names. -/
def IdentifiesDeploy (sha256Hex : Bytes → String) (first second : Directory) : Prop :=
  ¬ (∀ file, file ∈ walk first ↔ file ∈ walk second) →
    (buildManifest sha256Hex first).version ≠ (buildManifest sha256Hex second).version ∧
    cacheName (buildManifest sha256Hex first) ≠ cacheName (buildManifest sha256Hex second)

/-- The truncated hash does not collide on the streams of the two directories. -/
def NoCollision (sha256Hex : Bytes → String) (first second : Directory) : Prop :=
  (sha256Hex (hashedStream first)).toList.take 16 =
    (sha256Hex (hashedStream second)).toList.take 16 → hashedStream first = hashedStream second

/-- The paths and what stands between the NULs of the contents, in the order of the paths. -/
def nulSeparated (outDir : Directory) : List Bytes :=
  (sortedFiles outDir).flatMap fun file ↦ utf8 file.path :: file.content.splitOn nul

/-- How many NULs each content has, in the order of the paths. -/
def nulCounts (outDir : Directory) : List ℕ :=
  (sortedFiles outDir).map fun file ↦ file.content.count nul

/-! ### The paths -/

/-- The rest of a path after a name: nothing, or a separator and more. -/
def EndsName (rest : List Char) : Prop :=
  rest = [] ∨ ∃ more, rest = '/' :: more

/-- A path from a directory begins with the name of one entry. -/
theorem path_of_mem_walkEntry {entry : Entry} {parent : String} {name : FileName}
    {file : OutputFile} (hfile : file ∈ walkEntry parent name entry) :
    ∃ rest, file.path.toList = parent.toList ++ (name.val.toList ++ rest) ∧ EndsName rest := by
  induction entry generalizing parent name with
  | file content =>
    unfold walkEntry at hfile
    split_ifs at hfile
    · cases hfile
    · cases hfile
    · rw [List.mem_singleton] at hfile
      refine ⟨[], ?_, .inl rfl⟩
      rw [hfile, String.toList_append, List.append_nil]
  | directory size names entries ih =>
    unfold walkEntry at hfile
    split_ifs at hfile
    · cases hfile
    · obtain ⟨index, -, hbelow⟩ := List.mem_flatMap.mp hfile
      obtain ⟨rest, hpath, -⟩ := ih index hbelow
      refine ⟨'/' :: ((names index).val.toList ++ rest), ?_, .inr ⟨_, rfl⟩⟩
      rw [hpath]
      simp
  | special => cases hfile

/-- The name that a path begins with can be read back. -/
theorem takeWhile_name {name rest : List Char} (hname : '/' ∉ name) (hrest : EndsName rest) :
    (name ++ rest).takeWhile (fun ch ↦ ch ≠ '/') = name := by
  have hall : ∀ ch ∈ name, (decide (ch ≠ '/')) = true := by
    intro ch hch
    have hne : ch ≠ '/' := fun hsame ↦ hname (hsame ▸ hch)
    simpa using hne
  rw [List.takeWhile_append_of_pos hall]
  rcases hrest with rfl | ⟨more, rfl⟩
  · rw [List.takeWhile_nil, List.append_nil]
  · rw [List.takeWhile_cons_of_neg (by simp), List.append_nil]

/-- Two entries of a directory have no path in common. -/
theorem name_eq_of_path {parent : String} {first second : FileName} {entry other : Entry}
    {file copy : OutputFile} (hfile : file ∈ walkEntry parent first entry)
    (hcopy : copy ∈ walkEntry parent second other) (hpath : file.path = copy.path) :
    first = second := by
  obtain ⟨rest, hfirst, hrest⟩ := path_of_mem_walkEntry hfile
  obtain ⟨later, hsecond, hlater⟩ := path_of_mem_walkEntry hcopy
  have hnames : first.val.toList ++ rest = second.val.toList ++ later := by
    rw [hpath, hsecond] at hfirst
    exact (List.append_cancel_left hfirst).symm
  have htaken := congrArg (List.takeWhile fun ch ↦ ch ≠ '/') hnames
  rw [takeWhile_name first.property.2.1 hrest, takeWhile_name second.property.2.1 hlater] at htaken
  exact Subtype.ext (String.toList_inj.mp htaken)

/-- The paths below the entries of a directory are distinct when those below each entry are. -/
theorem nodup_paths {size : ℕ} (names : Fin size ↪ FileName) (entries : Fin size → Entry)
    (parent : String)
    (hentries : ∀ index, ((walkEntry parent (names index) (entries index)).map
      OutputFile.path).Nodup) :
    (((List.finRange size).flatMap fun index ↦
      walkEntry parent (names index) (entries index)).map OutputFile.path).Nodup := by
  rw [List.map_flatMap, List.nodup_flatMap]
  refine ⟨fun index _ ↦ hentries index, ?_⟩
  refine (List.nodup_finRange size).imp fun hne path hfirst hsecond ↦ hne ?_
  obtain ⟨file, hfile, hpath⟩ := List.mem_map.mp hfirst
  obtain ⟨copy, hcopy, hsame⟩ := List.mem_map.mp hsecond
  exact names.injective (name_eq_of_path hfile hcopy (hpath.trans hsame.symm))

/-- The paths below an entry are distinct. -/
theorem nodup_walkEntry (entry : Entry) (parent : String) (name : FileName) :
    ((walkEntry parent name entry).map OutputFile.path).Nodup := by
  induction entry generalizing parent name with
  | file content =>
    unfold walkEntry
    split_ifs
    · exact List.nodup_nil
    · exact List.nodup_nil
    · exact List.nodup_singleton _
  | directory size names entries ih =>
    unfold walkEntry
    split_ifs
    · exact List.nodup_nil
    · exact nodup_paths names entries _ fun index ↦ ih index _ _
  | special => exact List.nodup_nil

/-- The paths of a directory are distinct. -/
theorem nodup_walk (outDir : Directory) : ((walk outDir).map OutputFile.path).Nodup :=
  nodup_paths outDir.names outDir.entries "" fun _ ↦ nodup_walkEntry _ _ _

/-- A path has no NUL. -/
theorem nul_not_mem_path {entry : Entry} {parent : String} {name : FileName} {file : OutputFile}
    (hparent : '\x00' ∉ parent.toList) (hfile : file ∈ walkEntry parent name entry) :
    '\x00' ∉ file.path.toList := by
  induction entry generalizing parent name with
  | file content =>
    unfold walkEntry at hfile
    split_ifs at hfile
    · cases hfile
    · cases hfile
    · rw [List.mem_singleton] at hfile
      rw [hfile, String.toList_append, List.mem_append]
      exact fun hmem ↦ hmem.elim hparent name.property.2.2
  | directory size names entries ih =>
    unfold walkEntry at hfile
    split_ifs at hfile
    · cases hfile
    · obtain ⟨index, -, hbelow⟩ := List.mem_flatMap.mp hfile
      refine ih index ?_ hbelow
      rw [String.toList_append, String.toList_append, List.mem_append, List.mem_append]
      rintro ((hmem | hmem) | hmem)
      · exact hparent hmem
      · exact name.property.2.2 hmem
      · exact absurd hmem (by decide)
  | special => cases hfile

/-- Only the NUL has a zero among its bytes. -/
theorem nul_not_mem_utf8 {text : String} (htext : '\x00' ∉ text.toList) : nul ∉ utf8 text := by
  rw [← String.ofList_toList (s := text), utf8_ofList, List.mem_flatMap]
  rintro ⟨ch, hch, hbyte⟩
  have hzero : ch.val.toNat ≠ 0 := by
    intro hzero
    have hnul : ch = '\x00' := by
      rw [← Char.ofNat_toNat ch, Char.toNat, hzero]
    exact htext (hnul ▸ hch)
  have hsmall : ∀ number : ℕ, 0 < number → number < 256 → nul ≠ UInt8.ofNat number := by
    intro number hpos hlt hsame
    have hnat := congrArg UInt8.toNat hsame
    rw [UInt8.toNat_ofNat'] at hnat
    have hnul : nul.toNat = 0 := rfl
    omega
  unfold String.utf8EncodeChar at hbyte
  dsimp only at hbyte
  have hbound : ch.val.toNat < 0x110000 := by
    rcases ch.valid with hlow | ⟨-, hhigh⟩
    · exact Nat.lt_trans hlow (by decide)
    · exact hhigh
  split_ifs at hbyte
  · simp only [List.mem_singleton] at hbyte
    exact hsmall _ (by omega) (by omega) hbyte
  · simp only [List.mem_cons, List.not_mem_nil, or_false] at hbyte
    rcases hbyte with hbyte | hbyte <;> exact hsmall _ (by omega) (by omega) hbyte
  · simp only [List.mem_cons, List.not_mem_nil, or_false] at hbyte
    rcases hbyte with hbyte | hbyte | hbyte <;> exact hsmall _ (by omega) (by omega) hbyte
  · simp only [List.mem_cons, List.not_mem_nil, or_false] at hbyte
    rcases hbyte with hbyte | hbyte | hbyte | hbyte <;>
      exact hsmall _ (by omega) (by omega) hbyte

/-- No path of a directory has a NUL. -/
theorem nul_not_mem_utf8_path {outDir : Directory} {file : OutputFile}
    (hfile : file ∈ sortedFiles outDir) : nul ∉ utf8 file.path := by
  rw [sortedFiles, List.mem_insertionSort, walk, List.mem_flatMap] at hfile
  obtain ⟨index, -, hbelow⟩ := hfile
  exact nul_not_mem_utf8 (nul_not_mem_path (by decide) hbelow)

/-! ### The order -/

/-- Directories with the same files have them in the same order. -/
theorem sortedFiles_eq {first second : Directory}
    (hfiles : ∀ file, file ∈ walk first ↔ file ∈ walk second) :
    sortedFiles first = sortedFiles second := by
  have hperm : ∀ outDir, (sortedFiles outDir).Perm (walk outDir) :=
    fun outDir ↦ List.perm_insertionSort _ _
  have hsorted : ∀ outDir, (sortedFiles outDir).Pairwise fun file other ↦
      sortKey file ≤ sortKey other := by
    intro outDir
    have htrans : IsTrans OutputFile fun file other ↦ sortKey file ≤ sortKey other :=
      ⟨fun _ _ _ ↦ le_trans⟩
    have htotal : Std.Total fun file other : OutputFile ↦ sortKey file ≤ sortKey other :=
      ⟨fun _ _ ↦ le_total _ _⟩
    exact List.pairwise_insertionSort _ _
  have hnodup : ∀ outDir, (walk outDir).Nodup := fun outDir ↦ (nodup_walk outDir).of_map _
  have hwalks : (walk first).Perm (walk second) :=
    (List.perm_ext_iff_of_nodup (hnodup first) (hnodup second)).mpr hfiles
  refine List.Perm.eq_of_pairwise ?_ (hsorted first) (hsorted second)
    ((hperm first).trans (hwalks.trans (hperm second).symm))
  -- files with the same sort key have the same path, so they are the same file
  intro file other hfile hother hle hge
  have hkeys : (jsString file.path).map UInt16.toNat = (jsString other.path).map UInt16.toNat :=
    le_antisymm hle hge
  have hunits := List.map_injective_iff.mpr (fun _ _ ↦ UInt16.toNat_inj.mp) hkeys
  have hpath := jsString_injective hunits
  have hmem : file ∈ walk second := (hfiles file).mp ((hperm first).mem_iff.mp hfile)
  exact List.inj_on_of_nodup_map (nodup_walk second) hmem ((hperm second).mem_iff.mp hother) hpath

/-! ### The stream -/

/-- The stream is what the pieces between the NULs give, with a NUL after each. -/
theorem hashedStream_eq (outDir : Directory) :
    hashedStream outDir = terminated nul (nulSeparated outDir) := by
  unfold hashedStream nulSeparated
  induction sortedFiles outDir with
  | nil => rfl
  | cons file rest ih =>
    have hfile : terminated nul (utf8 file.path :: file.content.splitOn nul) =
        utf8 file.path ++ [nul] ++ file.content ++ [nul] := by
      rw [List.append_assoc, ← @terminated_splitOn _ _ nul file.content]
      rfl
    rw [List.flatMap_cons, List.flatMap_cons, ih, ← hfile]
    exact List.flatMap_append.symm

/-- No piece has a NUL. -/
theorem nul_not_mem_nulSeparated (outDir : Directory) :
    ∀ piece ∈ nulSeparated outDir, nul ∉ piece := by
  intro piece hpiece
  obtain ⟨file, hfile, hpart⟩ := List.mem_flatMap.mp hpiece
  rcases List.mem_cons.mp hpart with rfl | hcontent
  · exact nul_not_mem_utf8_path hfile
  · exact not_mem_of_mem_splitOn piece hcontent

/-- The pieces and the numbers of NULs determine the files. -/
theorem files_of_nulSeparated {first second : List OutputFile}
    (hcounts : (first.map fun file ↦ file.content.count nul) =
      second.map fun file ↦ file.content.count nul)
    (hpieces : (first.flatMap fun file ↦ utf8 file.path :: file.content.splitOn nul) =
      second.flatMap fun file ↦ utf8 file.path :: file.content.splitOn nul) :
    first = second := by
  induction first generalizing second with
  | nil => exact (List.map_eq_nil_iff.mp hcounts.symm).symm
  | cons file rest ih =>
    cases second with
    | nil => cases hcounts
    | cons other later =>
      rw [List.map_cons, List.map_cons, List.cons.injEq] at hcounts
      rw [List.flatMap_cons, List.flatMap_cons] at hpieces
      have hlength : (utf8 file.path :: file.content.splitOn nul).length =
          (utf8 other.path :: other.content.splitOn nul).length := by
        rw [List.length_cons, List.length_cons, length_splitOn, length_splitOn, hcounts.1]
      obtain ⟨hfirst, hlater⟩ := List.append_inj hpieces hlength
      obtain ⟨hpath, hparts⟩ := List.cons.inj hfirst
      have hjoined : ∀ content : Bytes, [nul].intercalate (content.splitOn nul) = content :=
        fun _ ↦ List.intercalate_splitOn nul
      have hcontent : file.content = other.content := by
        rw [← hjoined file.content, hparts, hjoined]
      have hsame : file = other := by
        cases file
        cases other
        rw [OutputFile.mk.injEq]
        exact ⟨utf8_injective hpath, hcontent⟩
      rw [hsame, ih hcounts.2 hlater]

/-- The version tells the files of two directories apart exactly when the contents have the same
numbers of NULs, one by one in the order of the paths, or what stands between the NULs differs. -/
theorem identifiesDeploy_iff {sha256Hex : Bytes → String} {first second : Directory}
    (hcollision : NoCollision sha256Hex first second) :
    IdentifiesDeploy sha256Hex first second ↔
      nulCounts first = nulCounts second ∨ nulSeparated first ≠ nulSeparated second := by
  constructor
  · intro hidentifies
    by_cases hpieces : nulSeparated first = nulSeparated second
    · have hversion : (buildManifest sha256Hex first).version =
          (buildManifest sha256Hex second).version := by
        rw [buildManifest, buildManifest, hashedStream_eq, hashedStream_eq, hpieces]
      have hfiles : ∀ file, file ∈ walk first ↔ file ∈ walk second := by
        by_contra hdifferent
        exact (hidentifies hdifferent).1 hversion
      left
      rw [nulCounts, sortedFiles_eq hfiles, nulCounts]
    · exact .inr hpieces
  · intro hcondition hdifferent
    have hversion : (buildManifest sha256Hex first).version ≠
        (buildManifest sha256Hex second).version := by
      intro hsame
      have hstreams := hcollision (String.ofList_inj.mp hsame)
      rw [hashedStream_eq, hashedStream_eq, terminated_inj (nul_not_mem_nulSeparated first)
        (nul_not_mem_nulSeparated second)] at hstreams
      have hcounts := hcondition.resolve_right (not_not_intro hstreams)
      have hsorted : sortedFiles first = sortedFiles second :=
        files_of_nulSeparated hcounts hstreams
      refine hdifferent fun file ↦ ?_
      have hmem : ∀ outDir, file ∈ sortedFiles outDir ↔ file ∈ walk outDir :=
        fun outDir ↦ List.mem_insertionSort _
      rw [← hmem, hsorted, hmem]
    refine ⟨hversion, fun hname ↦ hversion ?_⟩
    have hchars := congrArg String.toList hname
    rw [cacheName, cacheName, String.toList_append, String.toList_append] at hchars
    exact String.toList_inj.mp (List.append_cancel_left hchars)

/-! ### Two pairs of directories -/

/-- A directory of one file. -/
def oneFile (name : FileName) (content : Bytes) : Directory :=
  ⟨1, ⟨fun _ ↦ name, fun _ _ _ ↦ Subsingleton.elim _ _⟩, fun _ ↦ .file content⟩

/-- `index.html`. -/
def indexHtml : FileName := ⟨"index.html", by decide⟩

/-- SHA-256 at the streams of the shells `A` and `B`. -/
def twoShells (stream : Bytes) : String :=
  if stream = utf8 "index.html" ++ [0, 0x41, 0] then
    "cd324f37fb171efddcba360510bd62e384ca496b8f79075cc3de12c7aa49e04b"
  else "2a898653782da3b3bff4da31e7d4b84cf1f040a8512bf7f6bcaa51a658144c9c"

/-- A shell without a NUL that changes one byte changes the version. -/
theorem identifiesDeploy_iff_twoShells :
    (buildManifest twoShells (oneFile indexHtml [0x41])).version ≠
      (buildManifest twoShells (oneFile indexHtml [0x42])).version := by
  have hcollision : NoCollision twoShells (oneFile indexHtml [0x41]) (oneFile indexHtml [0x42]) :=
    fun hsame ↦ absurd hsame (by decide +kernel)
  have hidentifies := (identifiesDeploy_iff hcollision).mpr (.inl (by decide +kernel))
  refine (hidentifies fun hfiles ↦ ?_).1
  have hmem := (hfiles ⟨"index.html", [0x41]⟩).mp (by decide +kernel)
  exact absurd hmem (by decide +kernel)

/-- `a`. -/
def nameA : FileName := ⟨"a", by decide⟩

/-- `b`. -/
def nameB : FileName := ⟨"b", by decide⟩

/-- The file `a` with the content `x`, and the file `b` with the content `y`. -/
def twoFiles : Directory where
  size := 2
  names := ⟨![nameA, nameB], by unfold Function.Injective; decide⟩
  entries := ![.file [0x78], .file [0x79]]

/-- A file `a` with the content `x`, NUL, `b`, NUL, `y` gives the version of two files. -/
theorem not_identifiesDeploy_twoFiles : ¬ ∀ sha256Hex first second,
    NoCollision sha256Hex first second → IdentifiesDeploy sha256Hex first second := by
  intro hidentifies
  have hstreams : hashedStream (oneFile nameA [0x78, 0, 0x62, 0, 0x79]) =
      hashedStream twoFiles := by decide +kernel
  have hversions := hidentifies twoShells _ _ (fun _ ↦ hstreams) fun hfiles ↦ by
    have hmem := (hfiles ⟨"b", [0x79]⟩).mpr (by decide +kernel)
    exact absurd hmem (by decide +kernel)
  refine hversions.1 ?_
  rw [buildManifest, buildManifest, hstreams]

end OpfsWebauthn.Deploy
