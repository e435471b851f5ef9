import SupernoteModule.Generation.EntryHash
import SupernoteModule.Lib.RecordStream
import SupernoteModule.Python.Collections

/-!
# What the hash of an entry identifies

Every part of a hashed record is closed by a NUL, except the last one. Two trees with one stream can
therefore only differ where a content or a link target takes in the records that come after it.
-/

namespace SupernoteModule.Generation

open SupernoteModule.Lib SupernoteModule.Python

/-! ### Texts without NUL -/

theorem utf8_eq_flatMap (text : String) :
    utf8 text = text.toList.flatMap String.utf8EncodeChar := by
  rw [utf8, String.toUTF8_eq_toByteArray, ← String.utf8Encode_toList, List.utf8Encode,
    List.data_toByteArray, List.toList_toArray]

theorem utf8_injective : Function.Injective utf8 := by
  intro left right hbytes
  rw [utf8, utf8, String.toUTF8_eq_toByteArray, String.toUTF8_eq_toByteArray] at hbytes
  apply String.toByteArray_inj.mp
  apply ByteArray.ext
  exact Array.toList_inj.mp hbytes

theorem zero_eq_ofNat {value : Nat} (hvalue : value < 256) :
    0 = UInt8.ofNat value ↔ value = 0 := by
  constructor
  · intro hzero
    have hnat := congrArg UInt8.toNat hzero
    rw [UInt8.toNat_ofNat', Nat.mod_eq_of_lt hvalue] at hnat
    exact hnat.symm
  · rintro rfl
    rfl

/-- Only NUL is encoded with a zero byte. -/
theorem eq_nul_of_zero_mem {char : Char} (hzero : 0 ∈ String.utf8EncodeChar char) :
    char = '\x00' := by
  have hbound : char.val.toNat < 0x110000 := by
    have hvalid := char.valid
    simp only [UInt32.isValidChar, Nat.isValidChar] at hvalid
    omega
  have hcode : char.val.toNat = 0 := by
    unfold String.utf8EncodeChar at hzero
    simp only at hzero
    split_ifs at hzero with hone htwo hthree <;>
      · simp only [List.mem_cons, List.not_mem_nil, or_false] at hzero
        repeat rw [zero_eq_ofNat (by omega)] at hzero
        omega
  exact Char.ext (UInt32.toNat_inj.mp hcode)

theorem zero_not_mem_utf8 {text : String} (htext : '\x00' ∉ text.toList) : 0 ∉ utf8 text := by
  rw [utf8_eq_flatMap, List.mem_flatMap]
  rintro ⟨char, hchar, hzero⟩
  exact htext (eq_nul_of_zero_mem hzero ▸ hchar)

/-- A text without NUL can be read off the front of a stream. -/
theorem utf8_append_inj {left right : String} {before after : Bytes}
    (hleft : '\x00' ∉ left.toList) (hright : '\x00' ∉ right.toList)
    (hstream : utf8 left ++ 0 :: before = utf8 right ++ 0 :: after) :
    left = right ∧ before = after := by
  obtain ⟨htexts, hrest⟩ :=
    closed_inj (zero_not_mem_utf8 hleft) (zero_not_mem_utf8 hright) hstream
  exact ⟨utf8_injective htexts, hrest⟩

theorem nul_not_mem_octal (mode : Nat) :
    '\x00' ∉ (String.ofList (Nat.toDigits 8 mode)).toList := by
  rw [String.toList_ofList]
  intro hmem
  exact absurd (Nat.isDigit_of_mem_toDigits (by decide) (by decide) hmem) (by decide)

theorem octal_injective {left right : Nat}
    (htext : String.ofList (Nat.toDigits 8 left) = String.ofList (Nat.toDigits 8 right)) :
    left = right := by
  rw [← Nat.ofDigitChars_toDigits (b := 8) (n := left) (by decide) (by decide),
    String.ofList_injective htext, Nat.ofDigitChars_toDigits (by decide) (by decide)]

theorem nul_not_mem_kind (kind : EntryKind) : '\x00' ∉ kind.text.toList := by
  cases kind <;> decide

theorem kind_text_injective {left right : EntryKind} (htext : left.text = right.text) :
    left = right := by
  cases left <;> cases right <;> first | rfl | exact absurd htext (by decide)

/-! ### Paths -/

/-- How the path of an entry is written, the root being the current directory. -/
def pathText (path : List String) : String :=
  if path = [] then "." else PurePosixPath.joinComponents path

theorem nul_not_mem_pathText {path : List String} (hnames : ∀ name ∈ path, IsFileName name) :
    '\x00' ∉ (pathText path).toList := by
  cases path with
  | nil => decide
  | cons first rest =>
      obtain ⟨hfirst, hrest⟩ := List.forall_mem_cons.mp hnames
      rw [pathText, if_neg (List.cons_ne_nil _ _), PurePosixPath.toList_joinComponents_cons]
      rw [List.mem_append, not_or]
      refine ⟨hfirst.2.2, ?_⟩
      rw [List.mem_flatMap]
      rintro ⟨name, hname, hmem⟩
      obtain hslash | hmem := List.mem_cons.mp hmem
      · exact absurd hslash (by decide)
      · exact (hrest name hname).2.2 hmem

theorem components_pathText {path : List String} (hnames : ∀ name ∈ path, IsFileName name) :
    PurePosixPath.components (pathText path) = path := by
  by_cases hroot : path = []
  · subst hroot
    decide
  · rw [pathText, if_neg hroot]
    exact PurePosixPath.components_join fun name hname => (hnames name hname).1

theorem pathText_injective {left right : List String} (hleft : ∀ name ∈ left, IsFileName name)
    (hright : ∀ name ∈ right, IsFileName name) (htext : pathText left = pathText right) :
    left = right := by
  rw [← components_pathText hleft, htext, components_pathText hright]

/-! ### The stream of a tree -/

/-- What a record says before its last part. -/
structure RecordHeader where
  path : List String
  kind : EntryKind
  mode : Nat

def RecordHeader.encode (header : RecordHeader) : Bytes :=
  utf8 (pathText header.path) ++ [0] ++ utf8 header.kind.text ++ [0] ++
    utf8 (String.ofList (Nat.toDigits 8 header.mode)) ++ [0]

theorem RecordHeader.encode_append (header : RecordHeader) (rest : Bytes) :
    header.encode ++ rest =
      utf8 (pathText header.path) ++ 0 :: (utf8 header.kind.text ++
        0 :: (utf8 (String.ofList (Nat.toDigits 8 header.mode)) ++ 0 :: rest)) := by
  simp [encode]

theorem RecordHeader.separate {left right : RecordHeader} {before after : Bytes}
    (hleft : ∀ name ∈ left.path, IsFileName name) (hright : ∀ name ∈ right.path, IsFileName name)
    (hstream : left.encode ++ before = right.encode ++ after) :
    left = right ∧ before = after := by
  rw [encode_append, encode_append] at hstream
  obtain ⟨hpath, hstream⟩ :=
    utf8_append_inj (nul_not_mem_pathText hleft) (nul_not_mem_pathText hright) hstream
  obtain ⟨hkind, hstream⟩ :=
    utf8_append_inj (nul_not_mem_kind left.kind) (nul_not_mem_kind right.kind) hstream
  obtain ⟨hmode, hrest⟩ :=
    utf8_append_inj (nul_not_mem_octal left.mode) (nul_not_mem_octal right.mode) hstream
  have hheader : left = right := by
    obtain ⟨leftPath, leftKind, leftMode⟩ := left
    obtain ⟨rightPath, rightKind, rightMode⟩ := right
    obtain rfl : leftPath = rightPath := pathText_injective hleft hright hpath
    obtain rfl : leftKind = rightKind := kind_text_injective hkind
    obtain rfl : leftMode = rightMode := octal_injective hmode
    rfl
  exact ⟨hheader, hrest⟩

/-- The records of `_update_entry_hash`. -/
def entryFormat : RecordFormat UInt8 (List String × EntryFacts) RecordHeader where
  header entry := ⟨entry.1, entry.2.kind, entry.2.mode⟩
  body entry := entry.2.body
  encode := RecordHeader.encode
  Valid header := ∀ name ∈ header.path, IsFileName name
  determined hheader hbody := by
    obtain ⟨hpath, hkind, hmode⟩ := RecordHeader.mk.inj hheader
    exact Prod.ext hpath (EntryFacts.ext_of_parts hkind hmode hbody)
  nonempty header := by simp [RecordHeader.encode]
  separate := RecordHeader.separate

theorem entryFormat_record (path : List String) (facts : EntryFacts) :
    entryFormat.record (path, facts) = SourceTree.updateEntryHash (pathText path) facts := by
  simp [RecordFormat.record, entryFormat, RecordHeader.encode, SourceTree.updateEntryHash]

namespace SourceTree

variable (tree : SourceTree)

/-- The entries in the order they are hashed. -/
def walk : List (List String × EntryFacts) :=
  ([], tree.root) :: tree.iterTreeNoFollow

variable {tree}

theorem facts?_eq_some {path : List String} {facts : EntryFacts} :
    tree.facts? path = some facts ↔ (path, facts) ∈ ([], tree.root) :: tree.below :=
  lookup_eq_some_iff tree.distinct

theorem path_ne_nil {path : List String} {facts : EntryFacts}
    (hentry : (path, facts) ∈ tree.below) : path ≠ [] := by
  rintro rfl
  have hdistinct := tree.distinct
  rw [List.map_cons, List.nodup_cons] at hdistinct
  have hroot : [] ∈ tree.below.map Prod.fst := List.mem_map.mpr ⟨_, hentry, rfl⟩
  exact hdistinct.1 hroot

/-- Going up from an entry ends at the root, which is a directory. -/
theorem root_directory_of_mem (length : Nat) {path : List String} {facts : EntryFacts}
    (hlength : path.length ≤ length) (hentry : (path, facts) ∈ tree.below) :
    tree.root.kind = .directory := by
  induction length generalizing path facts with
  | zero =>
      have hnil : path = [] := List.eq_nil_of_length_eq_zero (by omega)
      exact absurd hnil (path_ne_nil hentry)
  | succ length ih =>
      obtain ⟨above, habove, hkind⟩ := Option.map_eq_some_iff.mp (tree.topped _ hentry)
      obtain hroot | hbelow := List.mem_cons.mp (facts?_eq_some.mp habove)
      · rw [(Prod.mk.inj hroot).2] at hkind
        exact hkind
      · have hshorter : path.dropLast.length ≤ length := by
          rw [List.length_dropLast]
          omega
        exact ih hshorter hbelow

variable (tree)

theorem below_eq_nil (hroot : tree.root.kind ≠ .directory) : tree.below = [] := by
  apply List.eq_nil_iff_forall_not_mem.mpr
  intro entry hentry
  exact hroot (root_directory_of_mem _ le_rfl hentry)

theorem perm_iterTreeNoFollow : tree.iterTreeNoFollow.Perm tree.below := by
  unfold iterTreeNoFollow
  split_ifs with hroot
  · exact List.perm_insertionSort _ _
  · rw [tree.below_eq_nil hroot]

theorem mem_walk {path : List String} {facts : EntryFacts} :
    (path, facts) ∈ tree.walk ↔ tree.facts? path = some facts := by
  rw [facts?_eq_some, walk, List.mem_cons, List.mem_cons, tree.perm_iterTreeNoFollow.mem_iff]

theorem valid_of_mem_walk {entry : List String × EntryFacts} (hentry : entry ∈ tree.walk) :
    entryFormat.Valid (entryFormat.header entry) := by
  obtain rfl | hbelow := List.mem_cons.mp hentry
  · intro name hname
    cases hname
  · exact tree.named entry (tree.perm_iterTreeNoFollow.mem_iff.mp hbelow)

/-- The bytes that are hashed are the stream of the walk. -/
theorem hashEntryNoFollow_eq (sha256 : Bytes → String) :
    tree.hashEntryNoFollow sha256 = sha256 (entryFormat.stream tree.walk) := by
  have hroot : entryFormat.record ([], tree.root) = updateEntryHash "." tree.root :=
    entryFormat_record [] tree.root
  have hbelow : ∀ entry ∈ tree.iterTreeNoFollow,
      updateEntryHash (PurePosixPath.joinComponents entry.1) entry.2 =
        entryFormat.record entry := by
    intro entry hentry
    have hproper := path_ne_nil (tree.perm_iterTreeNoFollow.mem_iff.mp hentry)
    rw [entryFormat_record, pathText, if_neg hproper]
  rw [hashEntryNoFollow, walk, RecordFormat.stream_cons, hroot]
  congr 2
  exact List.flatMap_congr hbelow

variable {tree} {left right : SourceTree}

theorem same_of_walk_eq (hwalk : left.walk = right.walk) : left.Same right := by
  intro path
  ext facts
  rw [← mem_walk, ← mem_walk, hwalk]

/-- Trees that differ in the body of an entry are not the same. -/
theorem not_same_of_absorbs (habsorbs : entryFormat.Absorbs left.walk right.walk) :
    ¬ left.Same right := by
  obtain ⟨front, long, short, laterLong, laterShort, extra, hlong, hshort, hheader, hextra, hbody,
    _⟩ := habsorbs
  intro hsame
  have hpath : long.1 = short.1 := (RecordHeader.mk.inj hheader).1
  have hleft : left.facts? long.1 = some long.2 := by
    rw [← mem_walk, hlong]
    simp
  have hright : right.facts? short.1 = some short.2 := by
    rw [← mem_walk, hshort]
    simp
  have hfacts : long.2 = short.2 := by
    rw [hsame, hpath, hright] at hleft
    exact (Option.some.inj hleft).symm
  have hlengths := congrArg List.length hbody
  rw [show entryFormat.body long = entryFormat.body short from congrArg EntryFacts.body hfacts,
    List.length_append] at hlengths
  exact hextra (List.eq_nil_of_length_eq_zero (by omega))

/-- **Equal hashes identify two entries exactly when neither of them absorbs records of the other:
at the first place where their walks differ, both have a file or both a link of one name and mode,
and the content or target of the one is longer by what the other one's later records begin with.**
-/
theorem hashEntryNoFollow_identifies_iff (sha256 : Bytes → String)
    (hcollision : sha256 (entryFormat.stream left.walk) = sha256 (entryFormat.stream right.walk) →
      entryFormat.stream left.walk = entryFormat.stream right.walk) :
    (left.hashEntryNoFollow sha256 = right.hashEntryNoFollow sha256 → left.Same right) ↔
      ¬ entryFormat.Absorbs left.walk right.walk ∧ ¬ entryFormat.Absorbs right.walk left.walk := by
  have hvalid : ∀ tree : SourceTree, ∀ entry ∈ tree.walk,
      entryFormat.Valid (entryFormat.header entry) := fun tree _ => tree.valid_of_mem_walk
  rw [hashEntryNoFollow_eq, hashEntryNoFollow_eq]
  constructor
  · intro hidentifies
    constructor
    · intro habsorbs
      exact not_same_of_absorbs habsorbs (hidentifies (congrArg sha256 habsorbs.stream_eq))
    · intro habsorbs
      have hsame := hidentifies (congrArg sha256 habsorbs.stream_eq.symm)
      exact not_same_of_absorbs habsorbs fun path => (hsame path).symm
  · rintro ⟨hleft, hright⟩ hhash
    obtain hwalk | habsorbs | habsorbs :=
      (RecordFormat.stream_eq_iff (hvalid left) (hvalid right)).mp (hcollision hhash)
    · exact same_of_walk_eq hwalk
    · exact absurd habsorbs hleft
    · exact absurd habsorbs hright

/-! ### One file in the place of two -/

/-- A directory with regular files. -/
def directoryOf (files : List (String × Bytes)) (hdistinct : (files.map Prod.fst).Nodup)
    (hnames : ∀ file ∈ files, IsFileName file.1) : SourceTree where
  root := .directory 0o755
  below := files.map fun (name, content) => ([name], .file 0o644 content)
  distinct := by
    have hpaths : ((files.map Prod.fst).map fun name => [name]).Nodup :=
      hdistinct.map fun _ _ hpath => (List.cons.inj hpath).1
    rw [List.map_map] at hpaths
    rw [List.map_cons, List.map_map, List.nodup_cons]
    exact ⟨by simp, hpaths⟩
  named := by
    intro entry hentry
    obtain ⟨file, hfile, rfl⟩ := List.mem_map.mp hentry
    simpa using hnames file hfile
  topped := by
    intro entry hentry
    obtain ⟨file, _, rfl⟩ := List.mem_map.mp hentry
    rfl

/-- The content `X`, followed by what is hashed for a file `b` with the content `Y`. -/
def absorbingContent : Bytes :=
  utf8 "X" ++ updateEntryHash "b" (.file 0o644 (utf8 "Y"))

def oneFile : SourceTree :=
  directoryOf [("a", absorbingContent)] (by decide) (by decide)

def twoFiles : SourceTree :=
  directoryOf [("a", utf8 "X"), ("b", utf8 "Y")] (by decide) (by decide)

/-- **A file that holds the record of another one has the hash of the two.** -/
theorem oneFile_collides_twoFiles :
    ¬ oneFile.Same twoFiles ∧
      ∀ sha256, oneFile.hashEntryNoFollow sha256 = twoFiles.hashEntryNoFollow sha256 := by
  constructor
  · intro hsame
    exact absurd (hsame ["b"]) (by decide)
  · intro sha256
    exact congrArg sha256 (by decide)

/-! ### Two contents of one file -/

def treeX : SourceTree :=
  directoryOf [("a", utf8 "X")] (by decide) (by decide)

def treeY : SourceTree :=
  directoryOf [("a", utf8 "Y")] (by decide) (by decide)

/-- The SHA-256 of the streams of `treeX` and `treeY`. -/
def digests (bytes : Bytes) : String :=
  if bytes = entryFormat.stream treeX.walk then
    "32a9ae4ce1a91a5f4d59a022113feb3adeed1d45e91a05f2c02e43e56fe816cd"
  else "2882d31cdc34522430be65449e69de187534052406d31159b2dd1178f10f17f0"

theorem hashEntryNoFollow_identifies_iff_contents :
    (treeX.hashEntryNoFollow digests = treeY.hashEntryNoFollow digests → treeX.Same treeY) ↔
      ¬ entryFormat.Absorbs treeX.walk treeY.walk ∧ ¬ entryFormat.Absorbs treeY.walk treeX.walk :=
  hashEntryNoFollow_identifies_iff digests fun hdigests => absurd hdigests (by decide)

end SourceTree

end SupernoteModule.Generation
