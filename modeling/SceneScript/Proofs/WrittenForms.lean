import SceneScript.Proofs.Forms
import SceneScript.Proofs.WrittenParameters
import SceneScript.Proofs.WrittenStyle

/-! # Headers and style blocks as they are written

The written headers and style blocks are read as the forms that a scan looks for. What a form hands
on from the source is the text that was written between its parentheses or its braces.
-/

namespace SceneScript

/-- The word is an identifier and no keyword. -/
def IsName (word : Text) : Prop :=
  Text.isIdentifier word ∧ word ≠ Token.create.shown ∧ word ≠ Token.style.shown

instance : DecidablePred IsName := fun _ => instDecidableAnd

theorem IsName.ofWord {word : Text} (h : IsName word) : Token.ofWord word = .identifier word :=
  (if_neg h.2.1).trans (if_neg h.2.2)

/-! ## Headers and blocks -/

/-- The front of a header, up to the opening parenthesis. -/
def headerFront (kind name : Text) : Text :=
  Token.create.shown ++ ([' '] ++ (kind ++ ([' '] ++ (name ++ ['(']))))

/-- The end of a header, from the closing parenthesis on. -/
def headerBack : Text :=
  [')', ' ', '{']

/-- The front of a style block, up to the opening brace. -/
def styleFront : Text :=
  Token.style.shown ++ [' ', '{']

theorem structureTokens_of_lexesAs {text more : Text} {token : Token} (h : LexesAs text token more)
    (htoken : token.isTrivia = false) (lineStart : Bool) (offset : Nat) :
    structureTokens lineStart offset (text ++ more) =
      ⟨token, .ofText offset text⟩ ::
        structureTokens false (offset + Text.byteLength text) more := by
  rw [structureTokens, keptTokens_of_lexesAs h, List.filter_cons_of_pos (by simp [htoken]),
    List.filter_nil, List.singleton_append, structureTokens]

theorem structureTokens_space (lineStart : Bool) (offset : Nat) (rest : Text) :
    structureTokens lineStart offset ([' '] ++ rest) =
      structureTokens lineStart (offset + 1) rest :=
  keptTokens_cons_space rfl rfl (by decide) lineStart offset rest

theorem structureTokens_newline (lineStart : Bool) (offset : Nat) (rest : Text) :
    structureTokens lineStart offset (['\n'] ++ rest) = structureTokens true (offset + 1) rest :=
  keptTokens_cons_newline rfl lineStart offset rest

/-- The front of a header is read as its keyword, its two names and the parenthesis. -/
theorem structureTokens_headerFront {kind name : Text} (hkind : Text.isIdentifier kind)
    (hname : Text.isIdentifier name) (lineStart : Bool) (offset : Nat) (more : Text) :
    ∃ first second third opening : Span,
      opening.stop = offset + Text.byteLength (headerFront kind name) ∧
      structureTokens lineStart offset (headerFront kind name ++ more) =
        ⟨.create, first⟩ :: ⟨.ofWord kind, second⟩ :: ⟨.ofWord name, third⟩ ::
          ⟨.leftParen, opening⟩ ::
            structureTokens false (offset + Text.byteLength (headerFront kind name)) more := by
  have hspace : ∀ rest, OpensWithBreak ([' '] ++ rest) := opensWithBreak_cons (by decide)
  have hparen : ∀ rest, OpensWithBreak (['('] ++ rest) := opensWithBreak_cons (by decide)
  have hcreate : Text.isIdentifier Token.create.shown := by decide
  have hfirst := lexesAs_word hcreate (hspace (kind ++ ([' '] ++ (name ++ (['('] ++ more)))))
  have hsecond := lexesAs_word hkind (hspace (name ++ (['('] ++ more)))
  have hthird := lexesAs_word hname (hparen more)
  have hopening : LexesAs ['('] .leftParen more := lexesAs_punctuation rfl more
  have htokens := structureTokens_of_lexesAs hfirst rfl lineStart offset
  rw [structureTokens_space, structureTokens_of_lexesAs hsecond (isTrivia_ofWord kind),
    structureTokens_space, structureTokens_of_lexesAs hthird (isTrivia_ofWord name),
    structureTokens_of_lexesAs hopening rfl] at htokens
  have hsize : offset + Text.byteLength (headerFront kind name) =
      offset + Text.byteLength Token.create.shown + 1 + Text.byteLength kind + 1 +
        Text.byteLength name + Text.byteLength ['('] := by
    simp only [headerFront, Text.byteLength_append, Nat.add_assoc]
    rfl
  rw [hsize, headerFront]
  simp only [List.append_assoc]
  exact ⟨_, _, _, _, rfl, htokens⟩

theorem structureTokens_headerBack (lineStart : Bool) (offset : Nat) (more : Text) :
    ∃ closing last : Span, closing.start = offset ∧
      structureTokens lineStart offset (headerBack ++ more) =
        ⟨.rightParen, closing⟩ :: ⟨.leftBrace, last⟩ ::
          structureTokens false (offset + Text.byteLength headerBack) more := by
  have hclosing : LexesAs [')'] .rightParen ([' '] ++ (['{'] ++ more)) := lexesAs_punctuation rfl _
  have hlast : LexesAs ['{'] .leftBrace more := lexesAs_punctuation rfl more
  have htokens := structureTokens_of_lexesAs hclosing rfl lineStart offset
  rw [structureTokens_space, structureTokens_of_lexesAs hlast rfl] at htokens
  exact ⟨_, _, rfl, htokens⟩

theorem structureTokens_styleFront (lineStart : Bool) (offset : Nat) (more : Text) :
    ∃ keyword opening : Span, opening.stop = offset + Text.byteLength styleFront ∧
      structureTokens lineStart offset (styleFront ++ more) =
        ⟨.style, keyword⟩ :: ⟨.leftBrace, opening⟩ ::
          structureTokens false (offset + Text.byteLength styleFront) more := by
  have hstyle : Text.isIdentifier Token.style.shown := by decide
  have hspace : OpensWithBreak ([' '] ++ (['{'] ++ more)) := opensWithBreak_cons (by decide) _
  have hkeyword := lexesAs_word hstyle hspace
  have hopening : LexesAs ['{'] .leftBrace more := lexesAs_punctuation rfl more
  have htokens := structureTokens_of_lexesAs hkeyword rfl lineStart offset
  rw [structureTokens_space, structureTokens_of_lexesAs hopening rfl] at htokens
  exact ⟨_, _, rfl, htokens⟩

/-! ## Forms in the written text -/

/-- A written list header is a list header of the scan. -/
theorem listHeader_form {name : Text} (hname : IsName name) (lineStart : Bool) (offset : Nat)
    (more : Text) :
    ∃ consumed header, ListHeader.Form consumed header ∧ header.name.value = name ∧
      structureTokens lineStart offset (headerFront listKeyword name ++ (headerBack ++ more)) =
        consumed ++ structureTokens false
          (offset + Text.byteLength (headerFront listKeyword name ++ headerBack)) more := by
  have hlist : IsName listKeyword := by decide
  obtain ⟨first, keyword, place, opening, _, hfront⟩ :=
    structureTokens_headerFront hlist.1 hname.1 lineStart offset (headerBack ++ more)
  obtain ⟨closing, last, _, hback⟩ := structureTokens_headerBack false
    (offset + Text.byteLength (headerFront listKeyword name)) more
  refine ⟨_, _, .intro first keyword opening closing last ⟨name, place⟩, rfl, ?_⟩
  rw [hfront, hback, hlist.ofWord, hname.ofWord, Text.byteLength_append, Nat.add_assoc]
  rfl

/-- A written header is read as its front, tokens that may stand between parentheses and its end. -/
theorem structureTokens_shapeHeader {kind name : Text} (hkind : Text.isIdentifier kind)
    (hname : Text.isIdentifier name) {parameters : List WrittenParameter}
    (hproper : ∀ parameter ∈ parameters, parameter.Proper)
    (hkeys : ∀ parameter ∈ parameters, IsName parameter.key) (lineStart : Bool) (offset : Nat)
    (more : Text) :
    ∃ (first second third opening closing last : Span) (inner : Tokens),
      opening.stop = offset + Text.byteLength (headerFront kind name) ∧
      closing.start = opening.stop + Text.byteLength (parametersText parameters) ∧
      (∀ token ∈ inner, token.value.isParameterToken) ∧
      structureTokens lineStart offset
          (headerFront kind name ++ (parametersText parameters ++ (headerBack ++ more))) =
        ⟨.create, first⟩ :: ⟨.ofWord kind, second⟩ :: ⟨.ofWord name, third⟩ ::
          ⟨.leftParen, opening⟩ :: (inner ++ ⟨.rightParen, closing⟩ :: ⟨.leftBrace, last⟩ ::
            structureTokens false (offset + Text.byteLength
              (headerFront kind name ++ (parametersText parameters ++ headerBack))) more) := by
  obtain ⟨first, second, third, opening, hopening, hfront⟩ := structureTokens_headerFront hkind
    hname lineStart offset (parametersText parameters ++ (headerBack ++ more))
  have hbreak : OpensWithBreak (headerBack ++ more) := opensWithBreak_cons (by decide) _
  obtain ⟨inner, hinner, hparameters⟩ := keptTokens_parametersText
    (fun token => !token.isTrivia) rfl hproper
    (fun parameter hmem => (hkeys parameter hmem).ofWord) hbreak
    (offset + Text.byteLength (headerFront kind name))
  obtain ⟨closing, last, hclosing, hback⟩ := structureTokens_headerBack false
    (offset + Text.byteLength (headerFront kind name) +
      Text.byteLength (parametersText parameters)) more
  refine ⟨first, second, third, opening, closing, last, inner, hopening, ?_, hinner, ?_⟩
  · rw [hopening, hclosing]
  · rw [hfront, structureTokens, hparameters, ← structureTokens, hback]
    simp only [Text.byteLength_append, Nat.add_assoc]

/-- A written shape header is a shape header of the scan, with the written parameter text. -/
theorem shapeHeader_form {kind name : Text} (hkind : IsName kind) (hlist : kind ≠ listKeyword)
    (hname : IsName name) {parameters : List WrittenParameter}
    (hproper : ∀ parameter ∈ parameters, parameter.Proper)
    (hkeys : ∀ parameter ∈ parameters, IsName parameter.key) {source front more : Text}
    (hsource : source = front ++
      (headerFront kind name ++ (parametersText parameters ++ (headerBack ++ more))))
    (lineStart : Bool) :
    ∃ consumed header, ShapeHeader.Form source consumed header ∧ header.kind.value = kind ∧
      header.name.map (·.value) = some name ∧
      header.params.value = parametersText parameters ∧
      structureTokens lineStart (Text.byteLength front)
          (headerFront kind name ++ (parametersText parameters ++ (headerBack ++ more))) =
        consumed ++ structureTokens false (Text.byteLength front +
          Text.byteLength (headerFront kind name ++ (parametersText parameters ++ headerBack)))
            more := by
  obtain ⟨first, second, third, opening, closing, last, inner, hopening, hclosing, hinner,
    htokens⟩ := structureTokens_shapeHeader hkind.1 hname.1 hproper hkeys lineStart
      (Text.byteLength front) more
  refine ⟨_, _, .intro first opening closing last ⟨kind, second⟩ (some ⟨name, third⟩) inner hlist
    hinner, rfl, rfl, ?_, ?_⟩
  · have hsplit : source = (front ++ headerFront kind name) ++
        (parametersText parameters ++ (headerBack ++ more)) := by
      rw [hsource, List.append_assoc]
    apply Text.slice_eq hsplit
    · rw [hopening, Text.byteLength_append]
    · exact hclosing
  · rw [htokens, hkind.ofWord, hname.ofWord]
    simp only [List.append_assoc, List.cons_append, List.nil_append, nameTokens]

/-- A written style block is a style block of the scan, with the written text. -/
theorem styleBlock_form {body : Text} (hbody : ∀ c ∈ body, c ∉ blockMarks)
    {source front more : Text} (hsource : source = front ++ (styleFront ++ (body ++ '}' :: more)))
    (lineStart : Bool) :
    ∃ consumed block, StyleBlock.Form source consumed block ∧ block.body.value = body ∧
      structureTokens lineStart (Text.byteLength front) (styleFront ++ (body ++ '}' :: more)) =
        consumed ++ structureTokens false
          (Text.byteLength front + Text.byteLength (styleFront ++ (body ++ ['}']))) more := by
  obtain ⟨keyword, opening, hopening, hfront⟩ := structureTokens_styleFront lineStart
    (Text.byteLength front) (body ++ '}' :: more)
  obtain ⟨inner, hinner, htokens⟩ := keptTokens_append_rightBrace
    (fun token => !token.isTrivia) hbody (Text.byteLength front + Text.byteLength styleFront) more
  have hbrace : LexesAs ['}'] .rightBrace more := lexesAs_punctuation rfl more
  have hclosing := structureTokens_of_lexesAs hbrace rfl false
    (Text.byteLength front + Text.byteLength styleFront + Text.byteLength body)
  rw [List.singleton_append] at hclosing
  refine ⟨_, _, .intro keyword opening
    (.ofText (Text.byteLength front + Text.byteLength styleFront + Text.byteLength body) ['}'])
    inner hinner, ?_, ?_⟩
  · have hsplit : source = (front ++ styleFront) ++ (body ++ '}' :: more) := by
      rw [hsource, List.append_assoc]
    apply Text.slice_eq hsplit
    · rw [hopening, Text.byteLength_append]
    · rw [hopening]
      rfl
  · rw [hfront, structureTokens, htokens, ← structureTokens, hclosing]
    simp only [Text.byteLength_append, Nat.add_assoc, List.append_assoc, List.cons_append,
      List.nil_append]

end SceneScript
