import SupernoteModule.Proof.SemanticManifest
import SupernoteModule.Spec.TypeScriptTypes

/-!
# Types read back from TypeScript

Every text lexes to its tokens whatever stands behind it, and from the tokens of a type the reader
takes its structure, as long as no declaration takes a word that TypeScript reads otherwise.
-/

namespace SupernoteModule.Codegen

open SupernoteModule.Lib SupernoteModule.Python SupernoteModule.Semantic

/-! ### Lexing -/

section Lexing

variable {word rest : List Char}

/-- A word ends in front of the text. -/
def EndsWord (rest : List Char) : Prop :=
  ∀ char, rest.head? = some char → isTsWordChar char = false

theorem tsTokens_word {text : List Char} (htext : text.all isTsWordChar = true) :
    tsTokens word (text ++ rest) = tsTokens (word ++ text) rest := by
  induction text generalizing word with
  | nil => rw [List.nil_append, List.append_nil]
  | cons char text ih =>
      rw [List.all_cons, Bool.and_eq_true] at htext
      rw [List.cons_append, tsTokens, if_pos htext.1, ih htext.2, List.append_assoc]
      rfl

theorem tsTokens_endWord (hrest : EndsWord rest) :
    tsTokens word rest = (tsTokens [] rest).map (endWord word) := by
  cases rest with
  | nil => rfl
  | cons char rest =>
      have hchar : ¬ isTsWordChar char = true := by
        rw [hrest char rfl]
        exact Bool.false_ne_true
      have hnil : endWord [] = id := by
        funext tokens
        exact if_pos rfl
      rw [tsTokens, tsTokens, if_neg hchar, if_neg hchar, hnil]
      by_cases hspace : char = ' '
      · rw [if_pos hspace, if_pos hspace, Option.map_id, id_eq]
      rw [if_neg hspace, if_neg hspace]
      by_cases hopening : char = '('
      · rw [if_pos hopening, if_pos hopening, Option.map_map]
        rfl
      rw [if_neg hopening, if_neg hopening]
      by_cases hclosing : char = ')'
      · rw [if_pos hclosing, if_pos hclosing, Option.map_map]
        rfl
      rw [if_neg hclosing, if_neg hclosing]
      by_cases hbracket : char = '['
      · rw [if_pos hbracket, if_pos hbracket, Option.map_map]
        rfl
      rw [if_neg hbracket, if_neg hbracket]
      by_cases hcloser : char = ']'
      · rw [if_pos hcloser, if_pos hcloser, Option.map_map]
        rfl
      rw [if_neg hcloser, if_neg hcloser]
      by_cases hbar : char = '|'
      · rw [if_pos hbar, if_pos hbar, Option.map_map]
        rfl
      rw [if_neg hbar, if_neg hbar]
      rfl

/-- The tokens that a text has in front of any text that ends a word. -/
def LexesTo (text : List Char) (tokens : List TsToken) : Prop :=
  ∀ rest, EndsWord rest → tsTokens [] (text ++ rest) = (tsTokens [] rest).map (tokens ++ ·)

theorem lexesTo_word {name : String} (hname : name.toList.all isTsWordChar = true)
    (hnonempty : name ≠ "") : LexesTo name.toList [.word name] := by
  intro rest hrest
  have hlist : name.toList ≠ [] := by rwa [ne_eq, String.toList_eq_nil_iff]
  rw [tsTokens_word hname, List.nil_append, tsTokens_endWord hrest]
  apply congrFun
  apply congrArg
  funext tokens
  rw [endWord, if_neg hlist, String.ofList_toList]
  rfl

theorem LexesTo.append {first next : List Char} {firstTokens nextTokens : List TsToken}
    (hfirst : LexesTo first firstTokens) (hnext : LexesTo next nextTokens)
    (hends : ∀ rest, EndsWord rest → EndsWord (next ++ rest)) :
    LexesTo (first ++ next) (firstTokens ++ nextTokens) := by
  intro rest hrest
  rw [List.append_assoc, hfirst _ (hends rest hrest), hnext rest hrest, Option.map_map]
  apply congrFun
  apply congrArg
  funext tokens
  exact (List.append_assoc ..).symm

theorem tsTokens_space (word rest : List Char) :
    tsTokens word (' ' :: rest) = (tsTokens [] rest).map (endWord word) := by
  rw [tsTokens, if_neg (by decide), if_pos rfl]

theorem tsTokens_bar (rest : List Char) :
    tsTokens [] ('|' :: rest) = (tsTokens [] rest).map (TsToken.bar :: ·) := by
  rw [tsTokens, if_neg (by decide), if_neg (by decide), if_neg (by decide), if_neg (by decide),
    if_neg (by decide), if_neg (by decide), if_pos rfl]
  rfl

theorem lexesTo_null : LexesTo " | null".toList [.bar, .word "null"] := by
  intro rest hrest
  have hword := @tsTokens_word [] rest "null".toList (by decide)
  have htext : " | null".toList ++ rest = ' ' :: '|' :: ' ' :: ("null".toList ++ rest) := rfl
  rw [htext, tsTokens_space, tsTokens_bar, tsTokens_space, hword, List.nil_append,
    tsTokens_endWord hrest, Option.map_map, Option.map_map, Option.map_map]
  rfl

theorem lexesTo_closing : LexesTo ")".toList [.closing] := by
  intro rest hrest
  have htext : ")".toList ++ rest = ')' :: rest := rfl
  rw [htext, tsTokens, if_neg (by decide), if_neg (by decide), if_neg (by decide), if_pos rfl]
  rfl

theorem lexesTo_openingBracket : LexesTo ['['] [.openingBracket] := by
  intro rest hrest
  rw [List.singleton_append, tsTokens, if_neg (by decide), if_neg (by decide),
    if_neg (by decide), if_neg (by decide), if_pos rfl]
  rfl

theorem lexesTo_closingBracket : LexesTo [']'] [.closingBracket] := by
  intro rest hrest
  rw [List.singleton_append, tsTokens, if_neg (by decide), if_neg (by decide),
    if_neg (by decide), if_neg (by decide), if_neg (by decide), if_pos rfl]
  rfl

theorem endsWord_cons {char : Char} {rest : List Char} (hchar : isTsWordChar char = false) :
    EndsWord (char :: rest) := by
  intro other hother
  obtain rfl := Option.some.inj hother
  exact hchar

theorem lexesTo_brackets : LexesTo "[]".toList [.openingBracket, .closingBracket] :=
  lexesTo_openingBracket.append lexesTo_closingBracket fun _ _ => endsWord_cons (by decide)

end Lexing

/-! ### The tokens of a type -/

section Tokens

variable {declarations : List SemanticDeclaration}

def tokensOf (declarations : List SemanticDeclaration) : TypeNode → List TsToken
  | .void => [.word "void"]
  | .scalar kind => [.word (typeScriptScalar kind)]
  | .enumRef typeId | .valueRef typeId | .objectRef typeId =>
      [.word (((declarationNames declarations).lookup typeId).elim "" (·.name))]
  | .nullable element => tokensOf declarations element ++ [.bar, .word "null"]
  | .array element =>
      (if element.kind = .nullable then
        [.opening] ++ tokensOf declarations element ++ [.closing]
      else tokensOf declarations element) ++ [.openingBracket, .closingBracket]

theorem isTsWordChar_of_isIdentifier {name : String} (hname : isIdentifier name = true) :
    name.toList.all isTsWordChar = true := by
  rw [isIdentifier] at hname
  cases htext : name.toList with
  | nil => rfl
  | cons first rest =>
      rw [htext] at hname
      dsimp only at hname
      rw [Bool.and_eq_true] at hname
      rw [List.all_cons, Bool.and_eq_true, List.all_eq_true]
      refine ⟨?_, fun char hchar => ?_⟩
      · have hfirst := hname.1
        have halphanum : first.isAlphanum = (first.isAlpha || first.isDigit) := rfl
        rw [Bool.or_eq_true] at hfirst
        rw [isTsWordChar, halphanum]
        rcases hfirst with halpha | hline <;> simp_all
      · have hrest := List.all_eq_true.mp hname.2 char hchar
        rw [Bool.or_eq_true] at hrest
        rw [isTsWordChar]
        rcases hrest with halphanum | hline <;> simp_all

theorem headerIdentifier {featureId typeId name : String}
    (hheader : validateDeclarationHeader featureId typeId name = .ok ()) :
    isIdentifier name = true ∧ typeId = s!"{featureId}:type:{name}" := by
  simp only [validateDeclarationHeader, semanticTypeId, bind_eq_ok, require_eq_ok, exists_unit,
    validateIdentifier_eq_ok, pure_eq_ok] at hheader
  obtain ⟨_, hname, _, ⟨_, _, rfl⟩, rfl⟩ := hheader
  exact ⟨hname, rfl⟩

/-- The name of a declaration is an identifier, and ends its identity. -/
theorem declaration_identified (declaration : SemanticDeclaration) :
    isIdentifier declaration.name = true ∧
      ∃ featureId : String, declaration.typeId = s!"{featureId}:type:{declaration.name}" := by
  cases declaration with
  | enum declaration =>
      have hvalid := declaration.valid
      simp only [SemanticEnumDeclaration.Fields.postInit, bind_eq_ok, exists_unit] at hvalid
      obtain ⟨hname, htype⟩ := headerIdentifier hvalid.1
      exact ⟨hname, _, htype⟩
  | value declaration =>
      have hvalid := declaration.valid
      simp only [SemanticValueDeclaration.Fields.postInit, bind_eq_ok, exists_unit] at hvalid
      obtain ⟨hname, htype⟩ := headerIdentifier hvalid.1
      exact ⟨hname, _, htype⟩
  | object declaration =>
      have hvalid := declaration.valid
      simp only [SemanticObjectDeclaration.Fields.postInit, bind_eq_ok, exists_unit] at hvalid
      obtain ⟨hname, htype⟩ := headerIdentifier hvalid.1
      exact ⟨hname, _, htype⟩

/-- The identity of a declaration determines its name. -/
theorem name_of_typeId {first next : SemanticDeclaration} (htype : first.typeId = next.typeId) :
    first.name = next.name := by
  obtain ⟨hfirst, featureId, hfirstId⟩ := declaration_identified first
  obtain ⟨hnext, otherId, hnextId⟩ := declaration_identified next
  have hsolid : ∀ {name : String}, isIdentifier name = true → ':' ∉ name.toList := by
    intro name hname hmem
    have hword := List.all_eq_true.mp (isTsWordChar_of_isIdentifier hname) ':' hmem
    exact absurd hword (by decide)
  have hsplit : ∀ featureId name : String, (s!"{featureId}:type:{name}").toList =
      (featureId.toList ++ ":type".toList) ++ ':' :: name.toList := by
    intro featureId name
    have hshape : s!"{featureId}:type:{name}" = featureId ++ ":type:" ++ name := rfl
    rw [hshape, String.toList_append, String.toList_append, List.append_assoc, List.append_assoc]
    rfl
  rw [hfirstId, hnextId] at htype
  have hlists := congrArg String.toList htype
  rw [hsplit, hsplit, append_cons_inj (hsolid hfirst) (hsolid hnext)] at hlists
  exact String.toList_inj.mp hlists.2

end Tokens

/-! ### Names -/

section Names

variable {declarations : List SemanticDeclaration} {functionNames : Claims}

theorem claimTypeNames_nodup : ∀ {names result : Claims},
    declarations.foldlM (claimTypeName functionNames) names = .ok result →
      (declarations.map (·.name)).Nodup ∧ ∀ declaration ∈ declarations,
        names.lookup declaration.name = none := by
  induction declarations with
  | nil =>
      intro names result _
      exact ⟨List.nodup_nil, fun declaration hmem => absurd hmem List.not_mem_nil⟩
  | cons declaration declarations ih =>
      intro names result hfold
      rw [List.foldlM_cons, bind_eq_ok] at hfold
      obtain ⟨claimed, hclaim, hrest⟩ := hfold
      rw [claimTypeName] at hclaim
      cases hfunction : functionNames.lookup declaration.name with
      | some location =>
          rw [hfunction] at hclaim
          cases hclaim
      | none =>
          cases hname : names.lookup declaration.name with
          | some previous =>
              rw [hfunction, hname] at hclaim
              cases hclaim
          | none =>
              rw [hfunction, hname] at hclaim
              obtain rfl := Except.ok.inj hclaim
              obtain ⟨hnodup, hothers⟩ := ih hrest
              have hapart : ∀ other ∈ declarations, other.name ≠ declaration.name ∧
                  names.lookup other.name = none := by
                intro other hother
                have hlookup := hothers other hother
                rw [List.lookup_cons] at hlookup
                by_cases hsame : other.name = declaration.name
                · rw [hsame, beq_self_eq_true] at hlookup
                  cases hlookup
                · rw [beq_false_of_ne hsame] at hlookup
                  exact ⟨hsame, hlookup⟩
              refine ⟨?_, ?_⟩
              · rw [List.map_cons, List.nodup_cons]
                refine ⟨?_, hnodup⟩
                intro hmem
                obtain ⟨other, hother, hsame⟩ := List.mem_map.mp hmem
                exact (hapart other hother).1 hsame
              · intro other hother
                cases List.mem_cons.mp hother with
                | inl hsame =>
                    rw [hsame]
                    exact hname
                | inr hmem => exact (hapart other hmem).2

/-- The names of a published API are distinct. -/
theorem names_nodup {api : PublicApi} {featureName : Option String}
    (hvalid : validatePublicNames api featureName = .ok ()) :
    (api.declarations.map (·.name)).Nodup := by
  simp only [validatePublicNames, bind_eq_ok] at hvalid
  obtain ⟨_, _, _, _, _, hfold, _⟩ := hvalid
  exact (claimTypeNames_nodup hfold).1

theorem typeIds_nodup (hnames : (declarations.map (·.name)).Nodup) :
    (declarations.map (·.typeId)).Nodup := by
  rw [List.Nodup, List.pairwise_map] at hnames ⊢
  apply hnames.imp
  intro first next hdistinct hsame
  exact hdistinct (name_of_typeId hsame)

theorem find_name (hnames : (declarations.map (·.name)).Nodup) {declaration : SemanticDeclaration}
    (hmem : declaration ∈ declarations) :
    declarations.find? (·.name = declaration.name) = some declaration := by
  induction declarations with
  | nil => cases hmem
  | cons first declarations ih =>
      rw [List.map_cons, List.nodup_cons] at hnames
      by_cases hsame : first.name = declaration.name
      · rw [List.find?_cons_of_pos (by simpa using hsame)]
        cases List.mem_cons.mp hmem with
        | inl hfirst => rw [hfirst]
        | inr hrest => exact absurd (List.mem_map.mpr ⟨declaration, hrest, hsame.symm⟩) hnames.1
      · rw [List.find?_cons_of_neg (by simpa using hsame)]
        apply ih hnames.2
        cases List.mem_cons.mp hmem with
        | inl hfirst => exact absurd (congrArg SemanticDeclaration.name hfirst.symm) hsame
        | inr hrest => exact hrest

theorem not_taken {name : String} (hfree : isTakenName name = false) :
    builtInTypes.contains name = false ∧ reservedWords.contains name = false ∧
      name ≠ "Uint8Array" := by
  rw [isTakenName, Bool.or_eq_false_iff, Bool.or_eq_false_iff] at hfree
  exact ⟨hfree.1.1, hfree.1.2, of_decide_eq_false hfree.2⟩

theorem readWord_name (hnames : (declarations.map (·.name)).Nodup)
    {declaration : SemanticDeclaration} (hmem : declaration ∈ declarations)
    (hbuiltIn : builtInTypes.contains declaration.name = false)
    (hreserved : reservedWords.contains declaration.name = false) :
    readWord declarations declaration.name = some (.declared declaration.typeId) := by
  unfold readWord
  rw [hbuiltIn, if_neg Bool.false_ne_true, hreserved, if_neg Bool.false_ne_true,
    find_name hnames hmem]

theorem readWord_scalar (hfree : ∀ declaration ∈ declarations, declaration.name ≠ "Uint8Array")
    (kind : ScalarKind) :
    readWord declarations (typeScriptScalar kind) = some (structureOf (.scalar kind)) := by
  cases kind with
  | bytes =>
      have habsent : declarations.find? (·.name = "Uint8Array") = none := by
        apply List.find?_eq_none.mpr
        intro declaration hmem hname
        exact hfree declaration hmem (of_decide_eq_true hname)
      unfold readWord
      rw [typeScriptScalar, if_neg (by decide), if_neg (by decide), habsent]
      rfl
  | bool | int32 | int64 | float32 | float64 | string => rfl

end Names

/-! ### From a type to its tokens -/

section Lexed

variable {declarations : List SemanticDeclaration} {node : TypeNode} {text : String}

theorem lexesTo_declared {typeId : String} (hnode : typeScriptNode declarations (.valueRef typeId) =
    .ok text) : ∃ declaration ∈ declarations, declaration.typeId = typeId ∧
      declaration.name = text ∧ LexesTo text.toList [.word text] ∧
        (declarationNames declarations).lookup typeId = some declaration := by
  rw [typeScriptNode] at hnode
  cases hfound : (declarationNames declarations).lookup typeId with
  | none =>
      rw [hfound] at hnode
      cases hnode
  | some declaration =>
      rw [hfound] at hnode
      obtain rfl := Except.ok.inj hnode
      obtain ⟨hmem, htype⟩ := of_lookup_dictOf hfound
      obtain ⟨hname, _⟩ := declaration_identified declaration
      exact ⟨declaration, hmem, htype, rfl, lexesTo_word (isTsWordChar_of_isIdentifier hname)
        (ne_empty_of_isIdentifier hname), rfl⟩

/-- A parenthesis ends a word, whatever stands behind it. -/
theorem LexesTo.behind_opening {text : List Char} {tokens : List TsToken}
    (htext : LexesTo text tokens) : LexesTo ("(".toList ++ text) ([.opening] ++ tokens) := by
  intro rest hrest
  have hsplit : "(".toList ++ text ++ rest = '(' :: (text ++ rest) := rfl
  rw [hsplit, tsTokens, if_neg (by decide), if_neg (by decide), if_pos rfl, htext rest hrest,
    Option.map_map]
  rfl

/-- The text of a type lexes to its tokens. -/
theorem lexesTo_node (hnode : typeScriptNode declarations node = .ok text) :
    LexesTo text.toList (tokensOf declarations node) := by
  induction node generalizing text with
  | void =>
      obtain rfl := Except.ok.inj hnode
      exact lexesTo_word (by decide) (by decide)
  | scalar kind =>
      obtain rfl := Except.ok.inj hnode
      apply lexesTo_word
      · cases kind <;> decide
      · cases kind <;> decide
  | enumRef typeId | valueRef typeId | objectRef typeId =>
      obtain ⟨declaration, _, _, rfl, hlexes, hfound⟩ := lexesTo_declared hnode
      rw [tokensOf, hfound]
      exact hlexes
  | nullable element ih =>
      rw [typeScriptNode, bind_eq_ok] at hnode
      obtain ⟨inner, hinner, hnode⟩ := hnode
      obtain rfl := Except.ok.inj hnode
      rw [String.toList_append, tokensOf]
      apply (ih hinner).append lexesTo_null
      intro rest _
      exact endsWord_cons (by decide)
  | array element ih =>
      rw [typeScriptNode, bind_eq_ok] at hnode
      obtain ⟨inner, hinner, hnode⟩ := hnode
      rw [tokensOf]
      have hbrackets : ∀ rest, EndsWord rest → EndsWord ("[]".toList ++ rest) := by
        intro rest _
        exact endsWord_cons (by decide)
      by_cases hkind : element.kind = .nullable
      · rw [if_pos hkind] at hnode
        obtain rfl := Except.ok.inj hnode
        rw [if_pos hkind, String.toList_append, String.toList_append, String.toList_append]
        apply LexesTo.append _ lexesTo_brackets hbrackets
        have hclosing : ∀ rest, EndsWord rest → EndsWord (")".toList ++ rest) := by
          intro rest _
          exact endsWord_cons (by decide)
        apply LexesTo.append _ lexesTo_closing hclosing
        exact (ih hinner).behind_opening
      · rw [if_neg hkind] at hnode
        obtain rfl := Except.ok.inj hnode
        rw [if_neg hkind, String.toList_append]
        exact (ih hinner).append lexesTo_brackets hbrackets

theorem tsTokens_node (hnode : typeScriptNode declarations node = .ok text) :
    tsTokens [] text.toList = some (tokensOf declarations node) := by
  have hlexes := lexesTo_node hnode [] nofun
  rw [List.append_nil] at hlexes
  rw [hlexes]
  exact congrArg some (List.append_nil _)

end Lexed

/-! ### From the tokens to the type -/

section Read

variable {declarations : List SemanticDeclaration} {node : TypeNode} {text : String}

/-- A union ends in front of what follows. -/
def EndsUnion (rest : List TsToken) : Prop :=
  rest = [] ∨ ∃ later, rest = .closing :: later

theorem readBrackets_of_endsUnion {type : TsType} {rest : List TsToken} (hends : EndsUnion rest) :
    readBrackets type rest = (type, rest) := by
  rcases hends with rfl | ⟨later, rfl⟩
  · rfl
  · rfl

/-- The tokens of a type read as it in both places, whatever follows. -/
structure ReadsTo (declarations : List SemanticDeclaration) (node : TypeNode) : Prop where
  operand : node.kind ≠ .nullable → ∀ fuel rest,
    (tokensOf declarations node).length ≤ fuel + 1 →
      readOperand declarations (readUnion declarations fuel) (tokensOf declarations node ++ rest) =
        some (readBrackets (structureOf node) rest)
  whole : ∀ fuel rest, EndsUnion rest → (tokensOf declarations node).length ≤ fuel →
    readUnion declarations fuel (tokensOf declarations node ++ rest) = some (structureOf node, rest)

theorem tokensOf_ne_nil (declarations : List SemanticDeclaration) (node : TypeNode) :
    0 < (tokensOf declarations node).length := by
  cases node with
  | void | scalar | enumRef | valueRef | objectRef => exact Nat.zero_lt_one
  | nullable | array =>
      rw [tokensOf, List.length_append]
      exact Nat.add_pos_right _ (Nat.zero_lt_succ _)

/-- An operand that stands alone is a union. -/
theorem ReadsTo.of_operand
    (hoperand : ∀ fuel rest, (tokensOf declarations node).length ≤ fuel + 1 →
      readOperand declarations (readUnion declarations fuel) (tokensOf declarations node ++ rest) =
        some (readBrackets (structureOf node) rest)) : ReadsTo declarations node where
  operand _ := hoperand
  whole fuel rest hends hfuel := by
    cases fuel with
    | zero => exact absurd hfuel (Nat.not_le_of_lt (tokensOf_ne_nil declarations node))
    | succ fuel =>
        rw [readUnion, hoperand fuel rest hfuel, readBrackets_of_endsUnion hends]
        rcases hends with rfl | ⟨later, rfl⟩
        · rfl
        · rfl

theorem readsTo_word {word : String} (htokens : tokensOf declarations node = [.word word])
    (hread : readWord declarations word = some (structureOf node)) : ReadsTo declarations node := by
  apply ReadsTo.of_operand
  intro fuel rest _
  rw [htokens, List.singleton_append, readOperand, hread]
  rfl

theorem readsTo_nullable {element : TypeNode} (helement : ReadsTo declarations element)
    (hkind : element.kind ≠ .nullable) : ReadsTo declarations (.nullable element) := by
  refine ⟨fun hnullable => absurd rfl hnullable, ?_⟩
  intro fuel rest hends hfuel
  rw [tokensOf, List.length_append] at hfuel
  have hpositive := tokensOf_ne_nil declarations element
  obtain ⟨fuel, rfl⟩ : ∃ less, fuel = less + 1 + 1 := ⟨fuel - 2, by
    simp only [List.length_cons, List.length_nil] at hfuel
    omega⟩
  have hoperand := helement.operand hkind (fuel + 1) (.bar :: .word "null" :: rest) (by
    simp only [List.length_cons, List.length_nil] at hfuel
    omega)
  have hnull : readUnion declarations (fuel + 1) (.word "null" :: rest) =
      some (.builtIn "null", rest) := by
    have hword : readOperand declarations (readUnion declarations fuel) (.word "null" :: rest) =
        some (readBrackets (.builtIn "null") rest) := rfl
    rw [readUnion, hword, readBrackets_of_endsUnion hends]
    rcases hends with rfl | ⟨later, rfl⟩
    · rfl
    · rfl
  have htokens : tokensOf declarations element ++ [.bar, .word "null"] ++ rest =
      tokensOf declarations element ++ .bar :: .word "null" :: rest :=
    List.append_assoc ..
  rw [tokensOf, htokens, readUnion, hoperand]
  have hbar : readBrackets (structureOf element) (.bar :: .word "null" :: rest) =
      (structureOf element, .bar :: .word "null" :: rest) := rfl
  rw [hbar]
  dsimp only
  rw [hnull]
  rfl

theorem readsTo_array {element : TypeNode} (helement : ReadsTo declarations element) :
    ReadsTo declarations (.array element) := by
  apply ReadsTo.of_operand
  intro fuel rest hfuel
  rw [tokensOf] at hfuel ⊢
  have hbrackets : readBrackets (structureOf element)
      (.openingBracket :: .closingBracket :: rest) =
        readBrackets (structureOf (.array element)) rest := by
    rw [readBrackets, structureOf]
  by_cases hkind : element.kind = .nullable
  · rw [if_pos hkind] at hfuel ⊢
    have hinside := helement.whole fuel
      (.closing :: .openingBracket :: .closingBracket :: rest) (.inr ⟨_, rfl⟩) (by
        simp only [List.length_append, List.length_cons, List.length_nil] at hfuel
        omega)
    have htokens : [.opening] ++ tokensOf declarations element ++ [.closing] ++
        [.openingBracket, .closingBracket] ++ rest =
        .opening :: (tokensOf declarations element ++
          .closing :: .openingBracket :: .closingBracket :: rest) := by
      simp
    rw [htokens, readOperand, hinside]
    exact congrArg some hbrackets
  · rw [if_neg hkind] at hfuel ⊢
    have hinside := helement.operand hkind fuel (.openingBracket :: .closingBracket :: rest) (by
      rw [List.length_append] at hfuel
      omega)
    have htokens : tokensOf declarations element ++ [.openingBracket, .closingBracket] ++ rest =
        tokensOf declarations element ++ .openingBracket :: .closingBracket :: rest :=
      List.append_assoc ..
    rw [htokens, hinside, hbrackets]

/-- **Reading a type back.** -/
theorem readsTo_node (hnames : (declarations.map (·.name)).Nodup)
    (hfree : ∀ declaration ∈ declarations, isTakenName declaration.name = false)
    (hvalid : node.Valid) (hnode : typeScriptNode declarations node = .ok text) :
    ReadsTo declarations node := by
  induction node generalizing text with
  | void => exact @readsTo_word _ .void "void" rfl rfl
  | scalar kind =>
      have hbytes : ∀ declaration ∈ declarations, declaration.name ≠ "Uint8Array" :=
        fun declaration hmem => (not_taken (hfree declaration hmem)).2.2
      exact readsTo_word rfl (readWord_scalar hbytes kind)
  | enumRef typeId | valueRef typeId | objectRef typeId =>
      obtain ⟨declaration, hmem, rfl, rfl, _, hfound⟩ := lexesTo_declared hnode
      obtain ⟨hbuiltIn, hreserved, _⟩ := not_taken (hfree declaration hmem)
      apply readsTo_word _ (readWord_name hnames hmem hbuiltIn hreserved)
      rw [tokensOf, hfound]
      rfl
  | nullable element ih =>
      rw [typeScriptNode, bind_eq_ok] at hnode
      obtain ⟨inner, hinner, _⟩ := hnode
      apply readsTo_nullable (ih hvalid.2 hinner)
      have hpost := hvalid.1
      simp only [TypeNode.postInit, bind_eq_ok, require_eq_ok, exists_unit] at hpost
      exact hpost.2
  | array element ih =>
      rw [typeScriptNode, bind_eq_ok] at hnode
      obtain ⟨inner, hinner, _⟩ := hnode
      exact readsTo_array (ih hvalid.2 hinner)

theorem readTypeScript_of_readsTo (hnode : typeScriptNode declarations node = .ok text)
    (hreads : ReadsTo declarations node) :
    readTypeScript declarations text = some (structureOf node) := by
  have hwhole := hreads.whole ((tokensOf declarations node).length + 1) [] (.inl rfl)
    (Nat.le_succ _)
  rw [List.append_nil] at hwhole
  simp only [readTypeScript, tsTokens_node hnode, hwhole, Option.bind_eq_bind, Option.bind_some]

/-- A text of one word is read as that word. -/
theorem readTypeScript_word {word : String} (hlexes : LexesTo word.toList [.word word]) :
    readTypeScript declarations word = readWord declarations word := by
  have htokens := hlexes [] nofun
  rw [List.append_nil] at htokens
  have hempty : tsTokens [] [] = some [] := rfl
  rw [hempty] at htokens
  have hunion : readUnion declarations ([TsToken.word word].length + 1) [.word word] =
      (readWord declarations word).map fun type => (type, []) := by
    rw [List.length_singleton, readUnion, readOperand]
    cases readWord declarations word <;> rfl
  unfold readTypeScript
  rw [htokens, Option.map_some, Option.bind_eq_bind, Option.bind_some]
  rw [List.append_nil, hunion]
  cases readWord declarations word <;> rfl

end Read

/-! ### The declarations of a feature -/

section Readable

variable {api : PublicApi} {featureName : Option String}

theorem readsBack_of_free (hnames : (api.declarations.map (·.name)).Nodup)
    (hfree : ∀ declaration ∈ api.declarations, isTakenName declaration.name = false) :
    ReadsBack api.declarations := by
  have hdenotes : ∀ type text, typeScriptType api.declarations type = .ok text →
      readTypeScript api.declarations text = some (structureOf type.node) :=
    fun type text htext =>
      readTypeScript_of_readsTo htext (readsTo_node hnames hfree type.valid htext)
  refine ⟨hdenotes, ?_⟩
  intro first next text hfirst hnext
  exact Option.some.inj ((hdenotes first text hfirst).symm.trans (hdenotes next text hnext))

theorem free_of_readsBack (hnames : (api.declarations.map (·.name)).Nodup)
    (hreads : ReadsBack api.declarations) {declaration : SemanticDeclaration}
    (hmem : declaration ∈ api.declarations) : isTakenName declaration.name = false := by
  obtain ⟨hname, featureId, htypeId⟩ := declaration_identified declaration
  have hlexes : LexesTo declaration.name.toList [.word declaration.name] :=
    lexesTo_word (isTsWordChar_of_isIdentifier hname) (ne_empty_of_isIdentifier hname)
  have hnonempty : declaration.typeId ≠ "" := by
    rw [htypeId]
    intro hempty
    have hlength := congrArg String.length hempty
    rw [String.length_append, String.length_append] at hlength
    have htype : (toString ":type:").length = 6 := rfl
    have hnone : "".length = 0 := rfl
    omega
  have hvalue := hreads.denotes
    ⟨.valueRef declaration.typeId, require_eq_ok.mpr hnonempty⟩ declaration.name (by
      rw [typeScriptType, typeScriptNode, declarationNames,
        lookup_dictOf_of_nodup (typeIds_nodup hnames) hmem])
  rw [readTypeScript_word hlexes, structureOf, readWord] at hvalue
  by_cases hbuiltIn : builtInTypes.contains declaration.name = true
  · rw [if_pos hbuiltIn] at hvalue
    cases hvalue
  rw [if_neg hbuiltIn] at hvalue
  by_cases hreserved : reservedWords.contains declaration.name = true
  · rw [if_pos hreserved] at hvalue
    cases hvalue
  by_cases hbytes : declaration.name = "Uint8Array"
  · have hscalar := hreads.denotes ⟨.scalar .bytes, rfl⟩ "Uint8Array" rfl
    rw [hbytes] at hlexes hbuiltIn hreserved
    have hfound := find_name hnames hmem
    rw [hbytes] at hfound
    rw [readTypeScript_word hlexes, readWord, if_neg hbuiltIn, if_neg hreserved, hfound] at hscalar
    cases hscalar
  · rw [isTakenName, Bool.eq_false_iff.mpr hbuiltIn, Bool.eq_false_iff.mpr hreserved,
      decide_eq_false hbytes]
    rfl

/-- **Types in TypeScript.** The types of a published API read back as what they are, and those of
one text are one type, if and only if no declaration has the name of a type that TypeScript has
already. -/
theorem readsBack_iff (hvalid : validatePublicNames api featureName = .ok ()) :
    ReadsBack api.declarations ↔
      ∀ declaration ∈ api.declarations, isTakenName declaration.name = false := by
  have hnames := names_nodup hvalid
  constructor
  · intro hreads declaration hmem
    exact free_of_readsBack hnames hreads hmem
  · exact readsBack_of_free hnames

end Readable

def speedEnum : SemanticDeclaration :=
  .enum {
    featureId := "f"
    typeId := "f:type:Speed"
    name := "Speed"
    constants := ["slow", "fast"]
    projections := [{
      backend := .cpp
      source := { declarationId := "Speed", language := "cpp", path := "speed.hpp", line := 1,
                  valid := by decide }
      valid := by decide }]
    valid := by decide }

def speedApi : PublicApi where
  functions := []
  declarations := [speedEnum]
  objectNamespaces := ∅
  objectInstances := ∅

theorem readsBack_iff_speed :
    ReadsBack speedApi.declarations ↔
      ∀ declaration ∈ speedApi.declarations, isTakenName declaration.name = false :=
  @readsBack_iff speedApi none (by decide +kernel)

def bytesEnum : SemanticDeclaration :=
  .enum {
    featureId := "f"
    typeId := "f:type:Uint8Array"
    name := "Uint8Array"
    constants := ["none"]
    projections := [{
      backend := .cpp
      source := { declarationId := "Uint8Array", language := "cpp", path := "bytes.hpp", line := 1,
                  valid := by decide }
      valid := by decide }]
    valid := by decide }

def bytesApi : PublicApi where
  functions := []
  declarations := [bytesEnum]
  objectNamespaces := ∅
  objectInstances := ∅

/-- The enumeration and the type of bytes have the same text. -/
theorem bytes_read_as_enum :
    ¬ ∀ api featureName, validatePublicNames api featureName = .ok () →
      ReadsBack api.declarations := by
  intro hall
  have hreads := hall bytesApi none (by decide +kernel)
  have hsame := hreads.separates ⟨.scalar .bytes, rfl⟩ ⟨.enumRef "f:type:Uint8Array", by decide⟩
    "Uint8Array" rfl (by decide)
  cases hsame

end SupernoteModule.Codegen
