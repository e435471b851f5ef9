import SupernoteModule.Spec.JavaSpelling

/-!
# Reading back the types of a record

The reader finds the annotations of all levels and credits them to the outermost one; what is left
of the text is the spelling of the type without annotations.
-/

namespace SupernoteModule.Frontend

/-! ### Words -/

/-- A character that no step of the reader takes away or stops at. -/
def IsSolid (char : Char) : Prop :=
  char ≠ '@' ∧ isPatternSpace char = false ∧ isJvmSpace char = false ∧
    isLineTerminator char = false

theorem nullableLength?_of_ne {char : Char} (hchar : char ≠ '@') (rest : List Char) :
    nullableLength? (char :: rest) = none := by
  have hqualified : "@org.jspecify.annotations.Nullable".toList.isPrefixOf (char :: rest) =
    false := by
    rw [Bool.eq_false_iff]
    intro hprefix
    obtain ⟨tail, htail⟩ := List.isPrefixOf_iff_prefix.mp hprefix
    exact hchar (List.cons.inj htail).1.symm
  have hsimple : "@Nullable".toList.isPrefixOf (char :: rest) = false := by
    rw [Bool.eq_false_iff]
    intro hprefix
    obtain ⟨tail, htail⟩ := List.isPrefixOf_iff_prefix.mp hprefix
    exact hchar (List.cons.inj htail).1.symm
  simp only [nullableLength?, List.findSome?_cons, List.findSome?_nil, hqualified, hsimple,
    Bool.false_and]
  rfl

section Words

variable {word : List Char}

theorem annotationUses_word (hword : '@' ∉ word) (rest : List Char) :
    annotationUses (word ++ rest) = annotationUses rest := by
  induction word with
  | nil => rfl
  | cons char word ih =>
      have hchar : char ≠ '@' := fun heq => hword (heq ▸ List.mem_cons_self)
      rw [List.cons_append, annotationUses, if_neg (by simp [hchar])]
      exact ih fun hmem => hword (List.mem_cons_of_mem _ hmem)

theorem hasNullable_word (hword : '@' ∉ word) (rest : List Char) :
    hasNullable (word ++ rest) = hasNullable rest := by
  induction word with
  | nil => rfl
  | cons char word ih =>
      have hchar : char ≠ '@' := fun heq => hword (heq ▸ List.mem_cons_self)
      rw [List.cons_append, hasNullable, nullableLength?_of_ne hchar]
      exact ih fun hmem => hword (List.mem_cons_of_mem _ hmem)

theorem removeNullable_word (hword : '@' ∉ word) (rest : List Char) :
    removeNullable 0 (word ++ rest) = word ++ removeNullable 0 rest := by
  induction word with
  | nil => rfl
  | cons char word ih =>
      have hchar : char ≠ '@' := fun heq => hword (heq ▸ List.mem_cons_self)
      rw [List.cons_append, removeNullable, nullableLength?_of_ne hchar]
      exact congrArg (char :: ·) (ih fun hmem => hword (List.mem_cons_of_mem _ hmem))

end Words

/-! ### Annotations -/

section Annotations

variable {imports : String → Option String} {scope : JavaScope} {nullable simply : Bool}
  {marking : List Char}

/-- Every annotation in the text is the one that is supported. -/
def Supported (imports : String → Option String) (text : List Char) : Prop :=
  ∀ use ∈ nullableUses imports text, use = jspecifyNullable

/-- What the reader makes of a part of a spelling: whether it finds an annotation there, the names
of the annotations, and what it keeps. -/
structure Reads (nullable : Bool) (names : List String) (text base : List Char) : Prop where
  found : ∀ rest, hasNullable (text ++ rest) = (nullable || hasNullable rest)
  removed : ∃ kept, kept.filter (fun char => ! isPatternSpace char) = base ∧
    ∀ rest, removeNullable 0 (text ++ rest) = kept ++ removeNullable 0 rest
  uses : ∀ rest, annotationUses (text ++ rest) = names ++ annotationUses rest
  plain : (∀ char ∈ text, IsPlain char) ↔ ∀ char ∈ base, IsPlain char

theorem Reads.append {found : Bool} {names nextNames : List String}
    {text base next nextBase : List Char} (hfirst : Reads nullable names text base)
    (hnext : Reads found nextNames next nextBase) :
    Reads (nullable || found) (names ++ nextNames) (text ++ next) (base ++ nextBase) := by
  obtain ⟨kept, hkept, hremoved⟩ := hfirst.removed
  obtain ⟨nextKept, hnextKept, hnextRemoved⟩ := hnext.removed
  refine ⟨fun rest => ?_, ⟨kept ++ nextKept, ?_, fun rest => ?_⟩, fun rest => ?_, ?_⟩
  · rw [List.append_assoc, hfirst.found, hnext.found, Bool.or_assoc]
  · rw [List.filter_append, hkept, hnextKept]
  · rw [List.append_assoc, hremoved, hnextRemoved, List.append_assoc]
  · rw [List.append_assoc, hfirst.uses, hnext.uses, List.append_assoc]
  · rw [List.forall_mem_append, List.forall_mem_append, hfirst.plain, hnext.plain]

theorem reads_word {word : List Char} (hsolid : ∀ char ∈ word, IsSolid char) :
    Reads false [] word word := by
  have hword : '@' ∉ word := fun hmem => (hsolid '@' hmem).1 rfl
  refine ⟨fun rest => ?_, ⟨word, ?_, removeNullable_word hword⟩, annotationUses_word hword,
    Iff.rfl⟩
  · rw [hasNullable_word hword, Bool.false_or]
  · rw [List.filter_eq_self]
    intro char hchar
    simp [(hsolid char hchar).2.1]

theorem reads_of_pattern {pattern : List Char} {name : String} (space : Bool)
    (hfound : ∀ rest, hasNullable (pattern ++ rest) = true)
    (hremoved : ∀ rest, removeNullable 0 (pattern ++ rest) = ' ' :: removeNullable 0 rest)
    (huses : ∀ rest, annotationUses (pattern ++ rest) = name :: annotationUses rest)
    (hplain : ∀ char ∈ pattern, IsPlain char) :
    Reads true [name] ((if space then [' '] else []) ++ pattern) [] := by
  have hword : '@' ∉ (if space then [' '] else []) := by cases space <;> decide
  refine ⟨fun rest => ?_, ⟨(if space then [' '] else []) ++ [' '], ?_, fun rest => ?_⟩,
    fun rest => ?_, iff_of_true ?_ (List.forall_mem_nil _)⟩
  · rw [List.append_assoc, hasNullable_word hword, hfound]
    rfl
  · cases space <;> decide
  · rw [List.append_assoc, removeNullable_word hword, List.append_assoc, hremoved]
    rfl
  · rw [List.append_assoc, annotationUses_word hword]
    exact huses rest
  · intro char hchar
    rcases List.mem_append.mp hchar with hspace | hpattern
    · cases space <;> simp_all [IsPlain]
    · exact hplain char hpattern

/-- The annotations that are written, and whether one of them is by its simple name. -/
structure Written (simply : Bool) (names : List String) : Prop where
  known : ∀ name ∈ names, name = "Nullable" ∨ name = jspecifyNullable
  simply_iff : "Nullable" ∈ names ↔ simply = true

theorem Written.append {inside : Bool} {names nextNames : List String}
    (hfirst : Written simply names) (hnext : Written inside nextNames) :
    Written (simply || inside) (names ++ nextNames) := by
  constructor
  · rw [List.forall_mem_append]
    exact ⟨hfirst.known, hnext.known⟩
  · rw [List.mem_append, hfirst.simply_iff, hnext.simply_iff, Bool.or_eq_true]

theorem written_nil : Written false [] :=
  ⟨List.forall_mem_nil _, iff_of_false List.not_mem_nil Bool.false_ne_true⟩

theorem reads_of_annotates (hannotates : Annotates scope nullable simply marking) :
    ∃ names, Reads nullable names marking [] ∧ Written simply names := by
  cases hannotates with
  | absent =>
      exact ⟨[], ⟨fun _ => rfl, ⟨[], rfl, fun _ => rfl⟩, fun _ => rfl, Iff.rfl⟩, written_nil⟩
  | simple space =>
      refine ⟨["Nullable"], ?_, ?_, ?_⟩
      · apply reads_of_pattern space (fun _ => rfl) (fun _ => rfl) (fun _ => rfl)
        simp [IsPlain]
      · exact fun name hname => .inl (List.mem_singleton.mp hname)
      · exact iff_of_true (List.mem_singleton_self _) rfl
  | full space =>
      refine ⟨[jspecifyNullable], ?_, ?_, ?_⟩
      · apply reads_of_pattern space (fun _ => rfl) (fun _ => rfl) (fun _ => rfl)
        simp [IsPlain]
      · exact fun name hname => .inr (List.mem_singleton.mp hname)
      · apply iff_of_false _ Bool.false_ne_true
        rw [List.mem_singleton]
        decide

theorem mem_nullableUses {text : List Char} {use : String} :
    use ∈ nullableUses imports text ↔ simpleName use = "Nullable" ∧ ∃ name ∈ annotationUses text,
      (if '.' ∈ name.toList then name else (imports name).getD name) = use := by
  have hsimple : (use.toList.reverse.takeWhile (· ≠ '.')).reverse = "Nullable".toList ↔
      simpleName use = "Nullable" := by
    constructor
    · intro hlast
      rw [simpleName, hlast, String.ofList_toList]
    · intro hlast
      calc
        _ = (simpleName use).toList := String.toList_ofList.symm
        _ = "Nullable".toList := congrArg String.toList hlast
  rw [nullableUses, List.mem_filter, List.mem_map, and_comm, decide_eq_true_eq, hsimple]

/-- The annotations of a spelling are supported if the one by its simple name is imported. -/
theorem supported_iff (scope : JavaScope) {names : List String} {text : List Char}
    (huses : annotationUses text = names) (hwritten : Written simply names) :
    Supported scope.imports text ↔
      (simply = true → scope.imports "Nullable" = some jspecifyNullable) := by
  have hdot : '.' ∈ jspecifyNullable.toList := by decide
  have hplain : '.' ∉ "Nullable".toList := by decide
  subst huses
  rw [← hwritten.simply_iff]
  constructor
  · intro hsupported hmem
    have hsimple : simpleName ((scope.imports "Nullable").getD "Nullable") = "Nullable" := by
      cases himport : scope.imports "Nullable" with
      | none => decide
      | some full => exact scope.imports_named "Nullable" full himport
    have huse := hsupported _ (mem_nullableUses.mpr ⟨hsimple, "Nullable", hmem, if_neg hplain⟩)
    cases himport : scope.imports "Nullable" with
    | none =>
        rw [himport] at huse
        exact absurd huse (by decide)
    | some full =>
        rw [himport] at huse
        exact congrArg some huse
  · rintro himported use huse
    obtain ⟨-, name, hname, rfl⟩ := mem_nullableUses.mp huse
    rcases hwritten.known name hname with rfl | rfl
    · rw [if_neg hplain, himported hname]
      rfl
    · exact if_pos hdot

end Annotations

/-! ### What the reader takes a name for -/

inductive ReadsAs (imports : String → Option String) (packageName : String) :
    List Char → String → Prop where
  | scalar {name : List Char} {jvmType : String}
      (hscalar : directJavaTypes.lookup (String.ofList name) = some jvmType) :
      ReadsAs imports packageName name jvmType
  | qualified {name : List Char} (hname : IsJavaName name)
      (hother : directJavaTypes.lookup (String.ofList name) = none) (hdot : '.' ∈ name) :
      ReadsAs imports packageName name (String.ofList name)
  | simple {name : List Char} (hname : IsJavaName name)
      (hother : directJavaTypes.lookup (String.ofList name) = none) (hdot : '.' ∉ name) :
      ReadsAs imports packageName name
        ((imports (String.ofList name)).getD (packageName ++ "." ++ String.ofList name))

theorem lookup_primitive {name : String} (hname : name ∈ primitiveTypes) :
    directJavaTypes.lookup name = some name := by
  simp only [primitiveTypes, List.mem_cons, List.not_mem_nil, or_false] at hname
  rcases hname with rfl | rfl | rfl | rfl | rfl | rfl <;> rfl

theorem lookup_boxed {name : String} (hname : name ∈ boxedTypes) :
    directJavaTypes.lookup name = some ("java.lang." ++ name) := by
  simp only [boxedTypes, List.mem_cons, List.not_mem_nil, or_false] at hname
  rcases hname with rfl | rfl | rfl | rfl | rfl | rfl <;> decide

/-- The names of the table are the scalars, and full names, which stand for themselves. -/
theorem lookup_cases {name jvmType : String}
    (hlookup : directJavaTypes.lookup name = some jvmType) :
    name ∈ primitiveTypes ∨ name ∈ boxedTypes ∨ '.' ∈ name.toList ∧ jvmType = name := by
  have hall : directJavaTypes.all (fun entry => decide (entry.1 ∈ primitiveTypes) ||
      (decide (entry.1 ∈ boxedTypes) ||
        (decide ('.' ∈ entry.1.toList) && decide (entry.2 = entry.1)))) = true := by decide
  obtain ⟨before, after, htable, -⟩ := List.lookup_eq_some_iff.mp hlookup
  have hentry := List.all_eq_true.mp hall (name, jvmType) (by rw [htable]; simp)
  simpa only [Bool.or_eq_true, Bool.and_eq_true, decide_eq_true_eq] using hentry

theorem dot_not_mem_scalar {name : String} (hname : name ∈ primitiveTypes ∨ name ∈ boxedTypes) :
    '.' ∉ name.toList := by
  have hall : (primitiveTypes ++ boxedTypes).all (fun name => ! name.toList.contains '.') =
    true := by
    decide
  have hentry := List.all_eq_true.mp hall name (List.mem_append.mpr hname)
  simpa using hentry

/-- A dotted name is read as it stands. -/
theorem readsAs_dotted (imports : String → Option String) (packageName : String) {name : List Char}
    (hname : IsJavaName name) (hdot : '.' ∈ name) :
    ReadsAs imports packageName name (String.ofList name) := by
  cases hlookup : directJavaTypes.lookup (String.ofList name) with
  | none => exact .qualified hname hlookup hdot
  | some jvmType =>
      have hscalar : ∀ other : String, other ∈ primitiveTypes ∨ other ∈ boxedTypes →
          String.ofList name ≠ other := by
        intro other hother heq
        have hmem : '.' ∈ other.toList := by rwa [← heq, String.toList_ofList]
        exact dot_not_mem_scalar hother hmem
      rcases lookup_cases hlookup with hprimitive | hboxed | ⟨-, rfl⟩
      · exact absurd rfl (hscalar _ (.inl hprimitive))
      · exact absurd rfl (hscalar _ (.inr hboxed))
      · exact .scalar hlookup

theorem takeWhile_dot {first : List Char} (hdot : '.' ∉ first) (rest : List Char) :
    (first ++ '.' :: rest).takeWhile (· ≠ '.') = first := by
  rw [List.takeWhile_append_of_pos (fun char hchar => ?_), List.takeWhile_cons_of_neg (by simp),
    List.append_nil]
  rw [decide_eq_true_eq]
  rintro rfl
  exact hdot hchar

/-- What the reader takes a name for is what it denotes, exactly if nothing in scope shadows it. -/
theorem Denotes.readsAs {scope : JavaScope} {name : List Char} {jvmType : String}
    (hname : Denotes scope name jvmType) :
    ∃ read, ReadsAs scope.imports scope.packageName name read ∧
      (read = jvmType ↔ scope.Unshadowed name) := by
  have hdotted (first rest : List Char) : '.' ∈ first ++ '.' :: rest :=
    List.mem_append_right _ List.mem_cons_self
  cases hname with
  | primitive hprimitive =>
      refine ⟨jvmType, .scalar ?_, ?_⟩
      · rw [String.ofList_toList]
        exact lookup_primitive hprimitive
      · rw [JavaScope.Unshadowed, if_neg (dot_not_mem_scalar (.inl hprimitive)),
          String.ofList_toList, if_pos hprimitive]
        exact iff_of_true rfl trivial
  | simple hjava hdot hclass hresolve =>
      by_cases hboxed : String.ofList name ∈ boxedTypes
      · refine ⟨_, .scalar (lookup_boxed hboxed), ?_⟩
        rw [JavaScope.Unshadowed, if_neg hdot, if_neg hclass, if_pos hboxed, hresolve,
          Option.some.injEq, eq_comm]
      · have hother : directJavaTypes.lookup (String.ofList name) = none := by
          cases hlookup : directJavaTypes.lookup (String.ofList name) with
          | none => rfl
          | some found =>
              rcases lookup_cases hlookup with hprimitive | hscalar | ⟨hmem, -⟩
              · exact absurd hprimitive hclass
              · exact absurd hscalar hboxed
              · rw [String.toList_ofList] at hmem
                exact absurd hmem hdot
        refine ⟨_, .simple hjava hother hdot, ?_⟩
        rw [JavaScope.Unshadowed, if_neg hdot, if_neg hclass, if_neg hboxed, hresolve,
          Option.some.injEq, eq_comm]
  | @member outer inner full hjava hdot hresolve =>
      refine ⟨_, readsAs_dotted _ _ hjava (hdotted outer inner), ?_⟩
      rw [JavaScope.Unshadowed, if_pos (hdotted outer inner), takeWhile_dot hdot, hresolve,
        String.ofList_append, String.append_left_inj]
      constructor
      · rintro rfl other hother
        exact (Option.some.inj hother).symm
      · exact fun hsame => (hsame full rfl).symm
  | @full first rest hjava hdot hresolve =>
      refine ⟨_, readsAs_dotted _ _ hjava (hdotted first rest), ?_⟩
      rw [JavaScope.Unshadowed, if_pos (hdotted first rest), takeWhile_dot hdot, hresolve]
      refine iff_of_true rfl ?_
      intro other hother
      cases hother

/-! ### Spellings without annotations -/

/-- A spelling without annotations and without space. -/
inductive Bare (imports : String → Option String) (packageName : String) :
    JvmTypeSource → List Char → Prop where
  | named {name : List Char} {jvmType : String} (hname : ReadsAs imports packageName name jvmType) :
      Bare imports packageName (.mk jvmType false []) name
  | list {qualifier text : List Char} {element : JvmTypeSource}
      (hqualifier : qualifier = [] ∨ qualifier = "java.util.".toList)
      (helement : Bare imports packageName element text) :
      Bare imports packageName (.mk "java.util.List" false [element])
        (qualifier ++ ("List<".toList ++ (text ++ ['>'])))

section Bare

variable {imports : String → Option String} {packageName : String} {type : JvmTypeSource}
  {base name : List Char} {jvmType : String}

theorem toNat_of_isNameChar {char : Char} (hchar : isNameChar char = true) :
    (char.toNat = 46 ∨ char.toNat = 95 ∨ 48 ≤ char.toNat ∧ char.toNat ≤ 57 ∨
      65 ≤ char.toNat ∧ char.toNat ≤ 90 ∨ 97 ≤ char.toNat ∧ char.toNat ≤ 122) := by
  have hupper : char.isUpper = decide ('A'.val ≤ char.val ∧ char.val ≤ 'Z'.val) := rfl
  have hlower : char.isLower = (decide ('a'.val ≤ char.val) && decide (char.val ≤ 'z'.val)) := rfl
  have hdigit : char.isDigit = (decide ('0'.val ≤ char.val) && decide (char.val ≤ '9'.val)) := rfl
  have halphanum : char.isAlphanum = (char.isUpper || char.isLower || char.isDigit) := rfl
  rw [isNameChar, isWordChar, halphanum, hupper, hlower, hdigit] at hchar
  simp only [Bool.or_eq_true, Bool.and_eq_true, decide_eq_true_eq, UInt32.le_iff_toNat_le] at hchar
  have hnat : char.toNat = char.val.toNat := rfl
  have hbounds : 'A'.val.toNat = 65 ∧ 'Z'.val.toNat = 90 ∧ 'a'.val.toNat = 97 ∧
      'z'.val.toNat = 122 ∧ '0'.val.toNat = 48 ∧ '9'.val.toNat = 57 := by decide
  rcases hchar with (((hletter | hletter) | hnumber) | rfl) | rfl
  · omega
  · omega
  · omega
  · exact .inr (.inl rfl)
  · exact .inl rfl

/-- Codes by which a character is solid. -/
theorem isSolid_of_toNat {char : Char} (hat : char.toNat ≠ 64) (hlow : 32 < char.toNat)
    (hspace : isJvmSpace char = false) (hline : isLineTerminator char = false) : IsSolid char := by
  refine ⟨?_, ?_, hspace, hline⟩
  · rintro rfl
    exact hat rfl
  · rw [isPatternSpace, decide_eq_false_iff_not]
    intro hmem
    have hcode : ∀ other ∈ [' ', '\t', '\n', '\x0b', '\x0c', '\r'], other.toNat ≤ 32 := by
      simp
    have hless := hcode char hmem
    omega

theorem isSolid_of_isJavaNameChar {char : Char} (hchar : IsJavaNameChar char) :
    IsSolid char ∧ char ≠ '<' := by
  have hangle (hcode : char.toNat ≠ 60) : char ≠ '<' := by
    rintro rfl
    exact hcode rfl
  rcases hchar with hname | rfl | ⟨hcode, hspace, hline⟩
  · have hcode := toNat_of_isNameChar hname
    refine ⟨isSolid_of_toNat (by omega) (by omega) ?_ ?_, hangle (by omega)⟩
    · simp only [isJvmSpace, List.mem_cons, List.not_mem_nil, or_false, Bool.or_eq_false_iff,
        Bool.and_eq_false_iff, decide_eq_false_iff_not]
      omega
    · simp only [isLineTerminator, List.mem_cons, List.not_mem_nil, or_false,
        decide_eq_false_iff_not]
      omega
  · exact ⟨isSolid_of_toNat (by decide) (by decide) (by decide) (by decide), by decide⟩
  · exact ⟨isSolid_of_toNat (by omega) (by omega) hspace hline, hangle (by omega)⟩

theorem mem_directJavaTypes (hscalar : directJavaTypes.lookup (String.ofList name) = some jvmType) :
    ∀ char ∈ name, isNameChar char = true ∨ char = '[' ∨ char = ']' := by
  have hall : directJavaTypes.all (fun entry => entry.1.toList.all fun char =>
      isNameChar char || char = '[' || char = ']') = true := by decide
  obtain ⟨before, after, htable, _⟩ := List.lookup_eq_some_iff.mp hscalar
  intro char hchar
  have hentry := List.all_eq_true.mp hall (String.ofList name, jvmType) (by rw [htable]; simp)
  rw [String.toList_ofList] at hentry
  simpa [or_assoc] using List.all_eq_true.mp hentry char hchar

theorem ReadsAs.solid (hname : ReadsAs imports packageName name jvmType) :
    ∀ char ∈ name, IsSolid char ∧ char ≠ '<' := by
  cases hname with
  | scalar hscalar =>
      intro char hchar
      rcases mem_directJavaTypes hscalar char hchar with hword | rfl | rfl
      · exact isSolid_of_isJavaNameChar (.inl hword)
      · exact ⟨isSolid_of_toNat (by decide) (by decide) (by decide) (by decide), by decide⟩
      · exact ⟨isSolid_of_toNat (by decide) (by decide) (by decide) (by decide), by decide⟩
  | qualified hname =>
      exact fun char hchar => isSolid_of_isJavaNameChar (hname.characters char hchar)
  | simple hname =>
      exact fun char hchar => isSolid_of_isJavaNameChar (hname.characters char hchar)

theorem ReadsAs.ne_nil (hname : ReadsAs imports packageName name jvmType) : name ≠ [] := by
  rintro rfl
  cases hname with
  | scalar hscalar =>
      have hnone : directJavaTypes.lookup (String.ofList []) = none := by decide
      rw [hnone] at hscalar
      cases hscalar
  | qualified hname =>
      obtain ⟨_, _, hnil, _⟩ := hname.begins
      cases hnil
  | simple hname =>
      obtain ⟨_, _, hnil, _⟩ := hname.begins
      cases hnil

theorem solid_list {qualifier text : List Char}
    (hqualifier : qualifier = [] ∨ qualifier = "java.util.".toList)
    (htext : ∀ char ∈ text, IsSolid char) :
    ∀ char ∈ qualifier ++ ("List<".toList ++ (text ++ ['>'])), IsSolid char := by
  have hsolid : ∀ char : Char, (32 < char.toNat ∧ char.toNat ≠ 64 ∧ char.toNat < 128) →
      IsSolid char := by
    intro char hcode
    refine isSolid_of_toNat hcode.2.1 hcode.1 ?_ ?_
    · simp only [isJvmSpace, List.mem_cons, List.not_mem_nil, or_false, Bool.or_eq_false_iff,
        Bool.and_eq_false_iff, decide_eq_false_iff_not]
      omega
    · simp only [isLineTerminator, List.mem_cons, List.not_mem_nil, or_false,
        decide_eq_false_iff_not]
      omega
  have hopener : "List<".toList.all (fun char =>
      decide (32 < char.toNat ∧ char.toNat ≠ 64 ∧ char.toNat < 128)) = true := by decide
  have hutil : "java.util.".toList.all (fun char =>
      decide (32 < char.toNat ∧ char.toNat ≠ 64 ∧ char.toNat < 128)) = true := by decide
  intro char hchar
  rcases List.mem_append.mp hchar with hmem | hchar
  · rcases hqualifier with rfl | rfl
    · cases hmem
    · exact hsolid char (by simpa using List.all_eq_true.mp hutil char hmem)
  · rcases List.mem_append.mp hchar with hmem | hchar
    · exact hsolid char (by simpa using List.all_eq_true.mp hopener char hmem)
    · rcases List.mem_append.mp hchar with hmem | hmem
      · exact htext char hmem
      · rw [List.mem_singleton.mp hmem]
        exact hsolid '>' (by decide)

theorem Bare.solid (hbare : Bare imports packageName type base) : ∀ char ∈ base, IsSolid char := by
  induction hbare with
  | named hname => exact fun char hchar => (hname.solid char hchar).1
  | list hqualifier _ ih => exact solid_list hqualifier ih

theorem Bare.ne_nil (hbare : Bare imports packageName type base) : base ≠ [] := by
  cases hbare with
  | named hname => exact hname.ne_nil
  | list => simp

end Bare

/-! ### Reading what is left -/

theorem dropWhile_of_solid {text : List Char} (hsolid : ∀ char ∈ text, IsSolid char) :
    text.dropWhile isJvmSpace = text := by
  cases text with
  | nil => rfl
  | cons char text =>
      exact List.dropWhile_cons_of_neg (by simp [(hsolid char List.mem_cons_self).2.2.1])

theorem trimJvm_of_solid {text : List Char} (hsolid : ∀ char ∈ text, IsSolid char) :
    trimJvm text = text := by
  have hreverse : ∀ char ∈ text.reverse, IsSolid char := fun char hchar =>
    hsolid char (List.mem_reverse.mp hchar)
  rw [trimJvm, dropWhile_of_solid hsolid, dropWhile_of_solid hreverse, List.reverse_reverse]

theorem listArgument?_name {name : List Char} (hangle : '<' ∉ name) :
    listArgument? name = none := by
  rw [listArgument?, if_neg]
  intro hprefix
  obtain ⟨tail, htail⟩ := List.isPrefixOf_iff_prefix.mp hprefix
  have hmem : '<' ∈ withoutUtil name := by
    rw [← htail]
    exact List.mem_append_left _ (by decide)
  apply hangle
  rw [withoutUtil] at hmem
  split at hmem
  · exact List.mem_of_mem_drop hmem
  · exact hmem

theorem listArgument?_list {qualifier text : List Char}
    (hqualifier : qualifier = [] ∨ qualifier = "java.util.".toList) (hnonempty : text ≠ [])
    (hsolid : ∀ char ∈ text, IsSolid char) :
    listArgument? (qualifier ++ ("List<".toList ++ (text ++ ['>']))) = some text := by
  have hbody : withoutUtil (qualifier ++ ("List<".toList ++ (text ++ ['>']))) =
      "List<".toList ++ (text ++ ['>']) := by
    rcases hqualifier with rfl | rfl
    · rfl
    · rfl
  have hlines : text.any isLineTerminator = false := by
    rw [List.any_eq_false]
    intro char hchar
    simp [(hsolid char hchar).2.2.2]
  have hdrop : ("List<".toList ++ (text ++ ['>'])).drop 5 = text ++ ['>'] := rfl
  rw [listArgument?, hbody, if_pos (List.isPrefixOf_iff_prefix.mpr (List.prefix_append _ _)), hdrop]
  simp [hlines, hnonempty]

/-! ### Spellings with annotations -/

section Spelling

variable {scope : JavaScope} {leaf : List Char} {simply nullable : Bool} {names : List String}
  {type : JvmTypeSource} {text base : List Char}

theorem NamesList.cases {qualifier : List Char} (hqualifier : NamesList scope qualifier) :
    qualifier = [] ∨ qualifier = "java.util.".toList := by
  cases hqualifier with
  | simple => exact .inl rfl
  | full => exact .inr rfl

/-- **What the reader makes of a spelling.** It finds an annotation where some level has one, and
keeps a spelling without annotations, of the type that its name is taken for. -/
theorem Spells.reads (hspells : Spells scope leaf simply type text) :
    ∃ names base bare, Reads type.someNullable names text base ∧ Written simply names ∧
      Bare scope.imports scope.packageName bare base ∧
      (bare = type.erased ↔ scope.Unshadowed leaf) := by
  induction hspells with
  | @named qualifier simple marking jvmType nullable simply hleaf hname _ hmarking =>
      subst hleaf
      obtain ⟨read, hread, hsame⟩ := hname.readsAs
      obtain ⟨names, hmarked, hwritten⟩ := reads_of_annotates hmarking
      have hqualifier : ∀ char ∈ qualifier, IsSolid char := fun char hchar =>
        (hread.solid char (List.mem_append_left simple hchar)).1
      have hsimple : ∀ char ∈ simple, IsSolid char := fun char hchar =>
        (hread.solid char (List.mem_append_right qualifier hchar)).1
      have hreads := (reads_word hqualifier).append (hmarked.append (reads_word hsimple))
      refine ⟨names, qualifier ++ simple, .mk read false [], ?_, hwritten, .named hread, ?_⟩
      · simpa [JvmTypeSource.someNullable, JvmTypeSource.someNullableAmong] using hreads
      · rw [← hsame, JvmTypeSource.erased, JvmTypeSource.erasedAll, JvmTypeSource.mk.injEq]
        simp
  | @list qualifier marking text element nullable simply inside hlist hmarking _ ih =>
      obtain ⟨inner, base, bare, hreads, hinside, hbare, hsame⟩ := ih
      obtain ⟨names, hmarked, hwritten⟩ := reads_of_annotates hmarking
      have hqualifier := hlist.cases
      have hsolid := solid_list hqualifier hbare.solid
      have hwords : (∀ char ∈ qualifier, IsSolid char) ∧ (∀ char ∈ "List<".toList, IsSolid char) ∧
          ∀ char ∈ ['>'], IsSolid char := by
        refine ⟨?_, ?_, ?_⟩
        · exact fun char hchar => hsolid char (List.mem_append_left _ hchar)
        · exact fun char hchar => hsolid char
            (List.mem_append_right _ (List.mem_append_left _ hchar))
        · exact fun char hchar => hsolid char
            (List.mem_append_right _ (List.mem_append_right _ (List.mem_append_right _ hchar)))
      have hall := (reads_word hwords.1).append (hmarked.append
        ((reads_word hwords.2.1).append (hreads.append (reads_word hwords.2.2))))
      refine ⟨names ++ inner, qualifier ++ ("List<".toList ++ (base ++ ['>'])),
        .mk "java.util.List" false [bare], ?_, hwritten.append hinside,
        .list hqualifier hbare, ?_⟩
      · simpa [JvmTypeSource.someNullable, JvmTypeSource.someNullableAmong] using hall
      · rw [← hsame, JvmTypeSource.erased, JvmTypeSource.erasedAll, JvmTypeSource.erasedAll,
          JvmTypeSource.mk.injEq]
        simp

theorem Reads.bareSpelling_eq (hreads : Reads nullable names text base)
    (hsolid : ∀ char ∈ base, IsSolid char) : bareSpelling text = base := by
  obtain ⟨kept, hkept, hremoved⟩ := hreads.removed
  have hall : removeNullable 0 text = kept := by
    have hnil := hremoved []
    rwa [List.append_nil, removeNullable, List.append_nil] at hnil
  rw [bareSpelling, hall, hkept, trimJvm_of_solid hsolid]

theorem Reads.hasNullable_eq (hreads : Reads nullable names text base) :
    hasNullable text = nullable := by
  have hnil := hreads.found []
  rwa [List.append_nil, hasNullable, Bool.or_false] at hnil

theorem Reads.uses_eq (hreads : Reads nullable names text base) : annotationUses text = names := by
  have hnil := hreads.uses []
  rwa [List.append_nil, annotationUses, List.append_nil] at hnil

theorem supported_of_solid {imports : String → Option String}
    (hsolid : ∀ char ∈ text, IsSolid char) : Supported imports text := by
  intro use huse
  obtain ⟨-, name, hname, -⟩ := mem_nullableUses.mp huse
  rw [(reads_word hsolid).uses_eq] at hname
  cases hname

end Spelling

/-! ### Parsing -/

section Parsing

variable {imports : String → Option String} {packageName : String} {type : JvmTypeSource}
  {text base name argument : List Char} {jvmType : String}

theorem parseJavaSourceType_list (hsupported : Supported imports text)
    (hargument : listArgument? (bareSpelling text) = some argument) :
    parseJavaSourceType imports packageName text = (do
      let element ← parseJavaSourceType imports packageName argument
      return .mk "java.util.List" (hasNullable text) [element]) := by
  have hnone : (nullableUses imports text).find? (· ≠ jspecifyNullable) = none := by
    rw [List.find?_eq_none]
    exact fun use huse => by simpa using hsupported use huse
  rw [parseJavaSourceType, hnone]
  dsimp only
  split
  · rename_i found hfound
    obtain rfl : argument = found := Option.some.inj (hargument.symm.trans hfound)
    rfl
  · rename_i hmissing
    rw [hargument] at hmissing
    cases hmissing

/-- An annotation that is not supported is reported. -/
theorem parseJavaSourceType_unsupported (hunsupported : ¬ Supported imports text)
    (result : JvmTypeSource) : parseJavaSourceType imports packageName text ≠ .ok result := by
  have hsome : ∃ use, (nullableUses imports text).find? (· ≠ jspecifyNullable) = some use := by
    rw [← Option.isSome_iff_exists, List.find?_isSome]
    unfold Supported at hunsupported
    push Not at hunsupported
    obtain ⟨use, huse, hne⟩ := hunsupported
    exact ⟨use, huse, by simpa using hne⟩
  obtain ⟨use, hfind⟩ := hsome
  rw [parseJavaSourceType, hfind]
  exact fun hok => by cases hok

theorem parseJavaSourceType_name (hsupported : Supported imports text)
    (hargument : listArgument? (bareSpelling text) = none) :
    parseJavaSourceType imports packageName text =
      match directJavaTypes.lookup (String.ofList (bareSpelling text)) with
      | some direct => .ok (.mk direct (hasNullable text) [])
      | none =>
          if isClassName (bareSpelling text) then
            .ok (.mk (if '.' ∈ bareSpelling text then String.ofList (bareSpelling text)
              else (imports (String.ofList (bareSpelling text))).getD
                (packageName ++ "." ++ String.ofList (bareSpelling text))) (hasNullable text) [])
          else .error s!"unsupported Java record component type {String.ofList text}" := by
  have hnone : (nullableUses imports text).find? (· ≠ jspecifyNullable) = none := by
    rw [List.find?_eq_none]
    exact fun use huse => by simpa using hsupported use huse
  rw [parseJavaSourceType, hnone]
  dsimp only
  split
  · rename_i found hfound
    rw [hargument] at hfound
    cases hfound
  · rfl

theorem isPlain_of_isNameChar {char : Char} (hchar : isNameChar char = true) : IsPlain char := by
  have hcode := toNat_of_isNameChar hchar
  refine ⟨?_, by omega⟩
  rintro rfl
  simp at hcode

theorem isNameChar_iff_plain {char : Char} (hname : IsJavaNameChar char) :
    isNameChar char = true ↔ IsPlain char := by
  refine ⟨isPlain_of_isNameChar, fun hplain => ?_⟩
  rcases hname with hchar | hdollar | ⟨hcode, _⟩
  · exact hchar
  · exact absurd hdollar hplain.1
  · exact absurd hplain.2 (by omega)

theorem isClassName_iff_plain (hname : IsJavaName name) :
    isClassName name = true ↔ ∀ char ∈ name, IsPlain char := by
  obtain ⟨first, rest, rfl, hdigit, hdot⟩ := hname.begins
  have hfirst := hname.characters first List.mem_cons_self
  have hrest : rest.all isNameChar = true ↔ ∀ char ∈ rest, IsPlain char := by
    rw [List.all_eq_true]
    exact forall₂_congr fun char hchar =>
      isNameChar_iff_plain (hname.characters char (List.mem_cons_of_mem _ hchar))
  have hbegins : (first.isAlpha || decide (first = '_')) = isNameChar first := by
    have halphanum : first.isAlphanum = (first.isAlpha || first.isDigit) := rfl
    simp [isNameChar, isWordChar, halphanum, hdigit, hdot]
  rw [isClassName, hbegins, Bool.and_eq_true, hrest, isNameChar_iff_plain hfirst,
    List.forall_mem_cons]

theorem plain_of_scalar (hscalar : directJavaTypes.lookup (String.ofList name) = some jvmType) :
    ∀ char ∈ name, IsPlain char := by
  intro char hchar
  rcases mem_directJavaTypes hscalar char hchar with hword | rfl | rfl
  · exact isPlain_of_isNameChar hword
  · exact ⟨by decide, by decide⟩
  · exact ⟨by decide, by decide⟩

theorem plain_list {qualifier : List Char}
    (hqualifier : qualifier = [] ∨ qualifier = "java.util.".toList) :
    (∀ char ∈ qualifier ++ ("List<".toList ++ (text ++ ['>'])), IsPlain char) ↔
      ∀ char ∈ text, IsPlain char := by
  have hopener : ∀ char ∈ "List<".toList, IsPlain char := by simp [IsPlain]
  have hcloser : ∀ char ∈ ['>'], IsPlain char := by simp [IsPlain]
  have hutil : ∀ char ∈ qualifier, IsPlain char := by
    rcases hqualifier with rfl | rfl
    · exact List.forall_mem_nil _
    · simp [IsPlain]
  rw [List.forall_mem_append, List.forall_mem_append, List.forall_mem_append,
    and_iff_right hutil, and_iff_right hopener, and_iff_left hcloser]

theorem Bare.withNullable_false (hbare : Bare imports packageName type base) :
    type.withNullable false = type := by
  cases hbare <;> rfl

theorem parse_of_name (hname : ReadsAs imports packageName base jvmType)
    (hsupported : Supported imports text) (htext : bareSpelling text = base)
    (result : JvmTypeSource) :
    parseJavaSourceType imports packageName text = .ok result ↔
      (∀ char ∈ base, IsPlain char) ∧ result = .mk jvmType (hasNullable text) [] := by
  have hangle : '<' ∉ base := fun hmem => (hname.solid '<' hmem).2 rfl
  rw [parseJavaSourceType_name hsupported (htext ▸ listArgument?_name hangle), htext]
  have hclass {qualified : String} (hjava : IsJavaName base) :
      (if isClassName base then
        Except.ok (JvmTypeSource.mk qualified (hasNullable text) [])
      else .error s!"unsupported Java record component type {String.ofList text}") = .ok result ↔
      (∀ char ∈ base, IsPlain char) ∧ result = .mk qualified (hasNullable text) [] := by
    rw [← isClassName_iff_plain hjava]
    by_cases hplain : isClassName base = true
    · rw [if_pos hplain, and_iff_right hplain, Except.ok.injEq, eq_comm]
    · rw [if_neg hplain]
      exact ⟨(fun hok => by cases hok), fun hboth => absurd hboth.1 hplain⟩
  cases hname with
  | scalar hscalar =>
      rw [hscalar, and_iff_right (plain_of_scalar hscalar)]
      dsimp only
      rw [Except.ok.injEq, eq_comm]
  | qualified hjava hother hdot =>
      rw [hother]
      dsimp only
      rw [if_pos hdot]
      exact hclass hjava
  | simple hjava hother hdot =>
      rw [hother]
      dsimp only
      rw [if_neg hdot]
      exact hclass hjava

/-- Of a spelling that keeps the spelling of a type without annotations, the reader makes that type,
nullable at the outermost level as soon as the text has an annotation anywhere. -/
theorem parse_of_bare (hbare : Bare imports packageName type base) :
    ∀ {text : List Char}, Supported imports text → bareSpelling text = base →
      ∀ result, parseJavaSourceType imports packageName text = .ok result ↔
        (∀ char ∈ base, IsPlain char) ∧ result = type.withNullable (hasNullable text) := by
  induction hbare with
  | named hname => exact fun hsupported htext => parse_of_name hname hsupported htext
  | @list qualifier inner element hqualifier helement ih =>
      intro text hsupported htext result
      have hsolid := helement.solid
      have hargument : listArgument? (bareSpelling text) = some inner :=
        htext ▸ listArgument?_list hqualifier helement.ne_nil hsolid
      have hword : Reads false [] inner inner := reads_word hsolid
      have helementParse : ∀ found, parseJavaSourceType imports packageName inner = .ok found ↔
          (∀ char ∈ inner, IsPlain char) ∧ found = element := by
        intro found
        rw [ih (supported_of_solid hsolid) (hword.bareSpelling_eq hsolid) found,
          hword.hasNullable_eq, helement.withNullable_false]
      rw [parseJavaSourceType_list hsupported hargument, plain_list hqualifier]
      cases hparse : parseJavaSourceType imports packageName inner with
      | error message =>
          have hplain : ¬ ∀ char ∈ inner, IsPlain char := by
            intro hplain
            have hok := (helementParse element).mpr ⟨hplain, rfl⟩
            rw [hparse] at hok
            cases hok
          exact ⟨(fun hok => by cases hok), fun hboth => absurd hboth.1 hplain⟩
      | ok found =>
          obtain ⟨hplain, rfl⟩ := (helementParse found).mp hparse
          rw [and_iff_right hplain]
          change Except.ok (JvmTypeSource.mk "java.util.List" (hasNullable text) [found]) =
            Except.ok result ↔ _
          rw [Except.ok.injEq, eq_comm]
          rfl

end Parsing

/-! ### Levels -/

namespace JvmTypeSource

mutual

theorem someNullable_erased (type : JvmTypeSource) : type.erased.someNullable = false := by
  cases type with
  | mk jvmType nullable arguments =>
      rw [erased, someNullable, someNullableAmong_erased arguments]
      rfl

theorem someNullableAmong_erased (arguments : List JvmTypeSource) :
    someNullableAmong (erasedAll arguments) = false := by
  cases arguments with
  | nil => rfl
  | cons argument arguments =>
      rw [erasedAll, someNullableAmong, someNullable_erased argument,
        someNullableAmong_erased arguments]
      rfl

end

mutual

theorem erased_eq {type : JvmTypeSource} (hnone : type.someNullable = false) :
    type.erased = type := by
  cases type with
  | mk jvmType nullable arguments =>
      rw [someNullable, Bool.or_eq_false_iff] at hnone
      rw [erased, erasedAll_eq hnone.2, hnone.1]

theorem erasedAll_eq {arguments : List JvmTypeSource}
    (hnone : someNullableAmong arguments = false) : erasedAll arguments = arguments := by
  cases arguments with
  | nil => rfl
  | cons argument arguments =>
      rw [someNullableAmong, Bool.or_eq_false_iff] at hnone
      rw [erasedAll, erased_eq hnone.1, erasedAll_eq hnone.2]

end

theorem erased_withNullable (nullable : Bool) (type : JvmTypeSource) :
    (type.withNullable nullable).erased = type.erased := by
  cases type
  rfl

/-- Crediting the outermost level with the annotations of all levels changes no type of which only
the outermost level is nullable, and every other. -/
theorem credited_eq_iff (type : JvmTypeSource) :
    type = type.erased.withNullable type.someNullable ↔ type.OuterOnly := by
  cases type with
  | mk jvmType nullable arguments =>
      rw [erased, withNullable, someNullable, OuterOnly, mk.injEq]
      constructor
      · intro heq
        rw [heq.2.2]
        exact someNullableAmong_erased arguments
      · intro hnone
        rw [hnone, erasedAll_eq hnone, Bool.or_false]
        exact ⟨rfl, rfl, rfl⟩

end JvmTypeSource

/-! ### Reading back -/

section ReadingBack

variable {scope : JavaScope} {leaf : List Char} {simply : Bool} {type : JvmTypeSource}
  {text base : List Char}

theorem Bare.erased_eq {imports : String → Option String} {packageName : String}
    (hbare : Bare imports packageName type base) : type.erased = type := by
  induction hbare with
  | named => rfl
  | list _ _ ih =>
      rw [JvmTypeSource.erased, JvmTypeSource.erasedAll, ih]
      rfl

/-- A type is what the reader credits it to be, exactly if only its outermost level is nullable and
what is left of it is the type without annotations. -/
theorem eq_credited_iff {bare : JvmTypeSource} (hbare : bare.erased = bare) :
    type = bare.withNullable type.someNullable ↔ type.OuterOnly ∧ bare = type.erased := by
  constructor
  · intro htype
    have hsame : bare = type.erased := by
      rw [htype, JvmTypeSource.erased_withNullable, hbare]
    refine ⟨?_, hsame⟩
    rwa [← type.credited_eq_iff, ← hsame]
  · rintro ⟨houter, rfl⟩
    exact type.credited_eq_iff.mpr houter

/-- What the reader makes of any spelling. -/
theorem Spells.parse_eq_ok (hspells : Spells scope leaf simply type text) :
    ∃ bare : JvmTypeSource, bare.erased = bare ∧ (bare = type.erased ↔ scope.Unshadowed leaf) ∧
      ∀ result, parseJavaSourceType scope.imports scope.packageName text = .ok result ↔
        (∀ char ∈ text, IsPlain char) ∧
          (simply = true → scope.imports "Nullable" = some jspecifyNullable) ∧
          result = bare.withNullable type.someNullable := by
  obtain ⟨names, base, bare, hreads, hwritten, hbare, hsame⟩ := hspells.reads
  refine ⟨bare, hbare.erased_eq, hsame, ?_⟩
  intro result
  have hsupported := supported_iff scope hreads.uses_eq hwritten
  rw [← hsupported]
  by_cases hknown : Supported scope.imports text
  · rw [parse_of_bare hbare hknown (hreads.bareSpelling_eq hbare.solid) result,
      hreads.hasNullable_eq, hreads.plain, and_iff_right hknown]
  · apply iff_of_false (parseJavaSourceType_unsupported hknown result)
    exact fun hall => hknown hall.2.1

/-- **Reading back a type.** From the spelling of a type the reader returns that type exactly if no
level below the outermost one is nullable, every character of its names is a letter, a digit or an
underscore of ASCII, no class in scope shadows its name, and an annotation by its simple name is
imported as a single class. -/
theorem parse_spells_iff (hspells : Spells scope leaf simply type text) :
    parseJavaSourceType scope.imports scope.packageName text = .ok type ↔
      type.OuterOnly ∧ (∀ char ∈ text, IsPlain char) ∧ scope.Unshadowed leaf ∧
        (simply = true → scope.imports "Nullable" = some jspecifyNullable) := by
  obtain ⟨bare, hbare, hsame, hparse⟩ := hspells.parse_eq_ok
  rw [hparse type, eq_credited_iff hbare, hsame]
  constructor
  · rintro ⟨hplain, himported, houter, hunshadowed⟩
    exact ⟨houter, hplain, hunshadowed, himported⟩
  · rintro ⟨houter, hplain, hunshadowed, himported⟩
    exact ⟨hplain, himported, houter, hunshadowed⟩

end ReadingBack

/-! ### A nullable element -/

def nullableElement : JvmTypeSource :=
  .mk "java.util.List" false [.mk "java.lang.String" true []]

/-- A source that imports the annotation and the list. -/
def importingScope : JavaScope where
  packageName := "app"
  imports name := if name = "Nullable" then some jspecifyNullable else
    if name = "List" then some "java.util.List" else none
  members _ := none
  declares _ := false
  onDemand name := if name ∈ boxedTypes then some ("java.lang." ++ name) else none
  imports_named name full himport := by
    split at himport
    · rename_i hname
      rw [hname, ← Option.some.inj himport]
      decide
    · split at himport
      · rename_i hname
        rw [hname, ← Option.some.inj himport]
        decide
      · cases himport
  boxed name hname := if_pos hname

theorem isJavaName_string : IsJavaName "String".toList := by
  refine ⟨?_, 'S', "tring".toList, rfl, by decide, by decide⟩
  intro char hchar
  have hall : "String".toList.all isNameChar = true := by decide
  exact .inl (List.all_eq_true.mp hall char hchar)

theorem unshadowed_string : importingScope.Unshadowed "String".toList := by
  rw [JavaScope.Unshadowed, if_neg (by decide), if_neg (by decide), if_pos (by decide)]
  decide

theorem spells_string {nullable simply : Bool} {marking : List Char}
    (hmarking : Annotates importingScope nullable simply marking) :
    Spells importingScope "String".toList simply (.mk "java.lang.String" nullable [])
      (marking ++ "String".toList) := by
  have hdenotes : Denotes importingScope "String".toList "java.lang.String" :=
    .simple isJavaName_string (by decide) (by decide) (by decide)
  exact @Spells.named _ _ [] _ _ _ _ _ rfl hdenotes (.inl ⟨by decide, by decide, .inl rfl⟩) hmarking

theorem spells_nullableElement :
    Spells importingScope "String".toList true nullableElement
      "List<@Nullable String>".toList :=
  @Spells.list _ _ [] _ _ _ _ _ _ (.simple rfl) .absent (spells_string (.simple false rfl))

theorem parse_spells_nullable_list :
    Spells importingScope "String".toList true
        (.mk "java.util.List" true [.mk "java.lang.String" false []])
        "@Nullable List<String>".toList ∧
      parseJavaSourceType importingScope.imports importingScope.packageName
          "@Nullable List<String>".toList =
        .ok (.mk "java.util.List" true [.mk "java.lang.String" false []]) := by
  have hspells : Spells importingScope "String".toList true
      (.mk "java.util.List" true [.mk "java.lang.String" false []])
      "@Nullable List<String>".toList :=
    @Spells.list _ _ [] _ _ _ _ _ _ (.simple rfl) (.simple false rfl) (spells_string .absent)
  refine ⟨hspells, (parse_spells_iff hspells).mpr ⟨rfl, ?_, unshadowed_string, fun _ => rfl⟩⟩
  simp [IsPlain]

/-- The annotation of an element is credited to the list. -/
theorem nullable_element_credited_to_list :
    Spells importingScope "String".toList true nullableElement "List<@Nullable String>".toList ∧
      parseJavaSourceType importingScope.imports importingScope.packageName
          "List<@Nullable String>".toList =
        .ok (.mk "java.util.List" true [.mk "java.lang.String" false []]) ∧
      parseJavaSourceType importingScope.imports importingScope.packageName
          "List<@Nullable String>".toList ≠ .ok nullableElement := by
  have hplain : ∀ char ∈ "List<@Nullable String>".toList, IsPlain char := by simp [IsPlain]
  obtain ⟨bare, -, hsame, hparse⟩ := spells_nullableElement.parse_eq_ok
  have hbare := hsame.mpr unshadowed_string
  have hread := (hparse _).mpr ⟨hplain, fun _ => rfl, rfl⟩
  rw [hbare] at hread
  refine ⟨spells_nullableElement, hread, ?_⟩
  rw [hread]
  intro heq
  have hfields := JvmTypeSource.mk.inj (Except.ok.inj heq)
  exact Bool.noConfusion hfields.2.1

end SupernoteModule.Frontend
