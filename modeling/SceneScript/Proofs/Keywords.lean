import SceneScript.Proofs.Boundaries
import SceneScript.Proofs.WrittenScene

/-! # Names that are keywords

The naming rules allow `Create` and `Style` as names of shapes, but a text is split into tokens
first, and there both words are keywords. What has a keyword in the place of its name is no header,
so the scan skips such a shape and nothing is reported.
-/

namespace SceneScript

/-! ## Names -/

/-- Whether `c` is an ASCII letter, an ASCII digit or an underscore. -/
def isAsciiWordChar (c : Char) : Bool :=
  c.isAlphanum || c = '_'

/-- The name breaks no naming rule: a letter from `A` to `Z`, then ASCII letters, digits and
underscores, and not the reserved word. -/
def IsShapeName (name : Text) : Prop :=
  Naming.startsUppercase name ∧ name.all isAsciiWordChar ∧ ¬ Naming.isReserved name

instance : DecidablePred IsShapeName := fun _ => instDecidableAnd

/-- Whether the word is one of the two keywords. -/
def isKeyword (word : Text) : Bool :=
  word = Token.create.shown || word = Token.style.shown

theorem isWordChar_of_isAsciiWordChar {c : Char} (h : isAsciiWordChar c) : isWordChar c := by
  rw [isAsciiWordChar, Char.isAlphanum, Bool.or_eq_true, Bool.or_eq_true, decide_eq_true_eq] at h
  rcases h with (halpha | hdigit) | rfl
  · exact isWordChar_of_isWordStart (isWordStart_of_isAlpha halpha)
  · apply isWordChar_of_isDigit
    simpa [Char.isDigit, isDigit, Char.le_def] using hdigit
  · decide

theorem IsShapeName.isIdentifier {name : Text} (h : IsShapeName name) : Text.isIdentifier name := by
  obtain ⟨hupper, hword, _⟩ := h
  cases name with
  | nil => cases hupper
  | cons c rest =>
      have hletter : 'A' ≤ c ∧ c ≤ 'Z' := by simpa [Naming.startsUppercase] using hupper
      have hstart : c.isAlpha := Bool.or_eq_true_iff.mpr (.inl (decide_eq_true hletter))
      rw [List.all_cons, Bool.and_eq_true, List.all_eq_true] at hword
      rw [Text.isIdentifier, Bool.and_eq_true, List.all_eq_true]
      exact ⟨isWordStart_of_isAlpha hstart,
        fun d hmem => isWordChar_of_isAsciiWordChar (hword.2 d hmem)⟩

theorem IsShapeName.isName {name : Text} (h : IsShapeName name) (hkeyword : ¬ isKeyword name) :
    IsName name := by
  rw [isKeyword, Bool.or_eq_true, decide_eq_true_eq, decide_eq_true_eq, not_or] at hkeyword
  exact ⟨h.isIdentifier, hkeyword⟩

/-! ## What is no header -/

section Skip

variable {source : Text} {first second : Span} {rest : Tokens}

/-- Behind `Create` there is a type. -/
theorem Header.match?_eq_none_of_type {token : Spanned Token}
    (h : ∀ word, token.value ≠ .identifier word) :
    Header.match? source (⟨.create, first⟩ :: token :: rest) = none := by
  rw [Option.eq_none_iff_forall_ne_some]
  rintro ⟨header, after⟩ hfound
  obtain ⟨consumed, form, htokens⟩ := Header.match?_eq_some_iff.mp hfound
  cases form with
  | list form =>
      obtain ⟨_, _, _, _, _, _⟩ := form
      exact h _ (congrArg Spanned.value (List.cons.inj (List.cons.inj htokens).2).1)
  | shape form =>
      obtain ⟨_, _, _, _, _, _, _, _, _⟩ := form
      exact h _ (congrArg Spanned.value (List.cons.inj (List.cons.inj htokens).2).1)

/-- Behind the type there is a name or a parenthesis. -/
theorem Header.match?_eq_none_of_name {word : Text} {token : Spanned Token}
    (hname : ∀ name, token.value ≠ .identifier name) (hparen : token.value ≠ .leftParen) :
    Header.match? source (⟨.create, first⟩ :: ⟨.identifier word, second⟩ :: token :: rest) =
      none := by
  rw [Option.eq_none_iff_forall_ne_some]
  rintro ⟨header, after⟩ hfound
  obtain ⟨consumed, form, htokens⟩ := Header.match?_eq_some_iff.mp hfound
  cases form with
  | list form =>
      obtain ⟨_, _, _, _, _, _⟩ := form
      have hthird := (List.cons.inj (List.cons.inj (List.cons.inj htokens).2).2).1
      exact hname _ (congrArg Spanned.value hthird)
  | shape form =>
      obtain ⟨_, _, _, _, _, name, _, _, _⟩ := form
      have hthird := (List.cons.inj (List.cons.inj htokens).2).2
      cases name with
      | none => exact hparen (congrArg Spanned.value (List.cons.inj hthird).1)
      | some name => exact hname _ (congrArg Spanned.value (List.cons.inj hthird).1)

/-- A header with a keyword in the place of its name declares nothing. -/
theorem declarationsFrom_keyword {kind name : Text} (hkind : IsName kind) (hname : isKeyword name)
    (first second third opening closing last : Span) {inner : Tokens}
    (hinner : ∀ token ∈ inner, token.value.isParameterToken) (rest : Tokens) :
    declarationsFrom source (⟨.create, first⟩ :: ⟨.ofWord kind, second⟩ :: ⟨.ofWord name, third⟩ ::
        ⟨.leftParen, opening⟩ :: (inner ++ ⟨.rightParen, closing⟩ :: ⟨.leftBrace, last⟩ :: rest)) =
      declarationsFrom source rest := by
  have hplain : ∀ token ∈ inner, token.value ≠ .create :=
    fun token hmem => Token.ne_of_isParameterToken (hinner token hmem) (by decide)
  have hword : Token.ofWord name = .create ∨ Token.ofWord name = .style := by
    rw [isKeyword, Bool.or_eq_true, decide_eq_true_eq, decide_eq_true_eq] at hname
    rcases hname with rfl | rfl
    · exact .inl rfl
    · exact .inr rfl
  have hbehind : declarationsFrom source
      (⟨.leftParen, opening⟩ :: (inner ++ ⟨.rightParen, closing⟩ :: ⟨.leftBrace, last⟩ :: rest)) =
      declarationsFrom source rest := by
    rw [declarationsFrom_cons (by simp), declarationsFrom_append_of_forall hplain,
      declarationsFrom_cons (by simp), declarationsFrom_cons (by simp)]
  -- Neither the first `Create` nor a keyword behind it opens a header.
  rw [hkind.ofWord, declarationsFrom_congr (nextHeader_cons_of_match?
    (Header.match?_eq_none_of_name (by rcases hword with h | h <;> simp [h])
      (by rcases hword with h | h <;> simp [h]))), declarationsFrom_cons (by simp)]
  rcases hword with hcreate | hstyle
  · rw [hcreate, declarationsFrom_congr
      (nextHeader_cons_of_match? (Header.match?_eq_none_of_type (by simp))), hbehind]
  · rw [declarationsFrom_cons (by simp [hstyle]), hbehind]

end Skip

/-- A line without `Create` declares nothing. -/
theorem declarationsFrom_line {line : Text} (h : ∀ token ∈ tokenize line, token.value ≠ .create)
    (source : Text) (offset : Nat) (more : Text) :
    declarationsFrom source (structureTokens true offset (line ++ (['\n'] ++ more))) =
      declarationsFrom source
        (structureTokens true (offset + Text.byteLength line) (['\n'] ++ more)) := by
  have hplain : ∀ token ∈ (lexFrom true offset line).filter fun token => !token.value.isTrivia,
      token.value ≠ .create := by
    intro token hmem
    have hshift := lexFrom_shift true 0 offset line
    rw [Nat.zero_add] at hshift
    rw [hshift] at hmem
    obtain ⟨original, horiginal, rfl⟩ := List.mem_map.mp (List.mem_filter.mp hmem).1
    exact h original horiginal
  rw [structureTokens_newline, structureTokens, keptTokens, List.singleton_append,
    lexFrom_append_newline, List.filter_append, declarationsFrom_append_of_forall hplain,
    List.filter_cons_of_neg (by simp [Token.isTrivia])]
  rfl

/-! ## Indented shapes -/

/-- Blanks at the front of a line. -/
def indent (count : Nat) : Text :=
  List.replicate count ' '

theorem byteLength_indent (count : Nat) : Text.byteLength (indent count) = count := by
  induction count with
  | zero => rfl
  | succ count ih =>
      have hsize : ' '.utf8Size = 1 := rfl
      rw [indent, List.replicate_succ, Text.byteLength_cons, ← indent, ih, hsize, Nat.add_comm]

theorem structureTokens_indent (lineStart : Bool) (offset count : Nat) (rest : Text) :
    structureTokens lineStart offset (indent count ++ rest) =
      structureTokens lineStart (offset + count) rest := by
  have hspacing : IsSpacing (indent count) := by
    rw [IsSpacing, List.all_eq_true]
    intro c hmem
    rw [List.eq_of_mem_replicate hmem]
    decide
  rw [structureTokens, keptTokens_spaces rfl hspacing, byteLength_indent, structureTokens]

namespace WrittenShape

/-- The line break between the header and the style block, with the indentation of the block. -/
def blockGap : Text :=
  ['\n'] ++ indent 8

/-- The line with the closing brace, and the line break in front of it. -/
def closingLine : Text :=
  ['\n'] ++ (indent 4 ++ ['}'] ++ ['\n'])

/-- The written form on three lines inside a list. -/
def indentedText (written : WrittenShape) : Text :=
  indent 4 ++ (written.headerText ++ (blockGap ++ (written.blockText ++ closingLine)))

theorem declarationsFrom_closingLine (source : Text) (lineStart : Bool) (offset : Nat)
    (more : Text) :
    declarationsFrom source (structureTokens lineStart offset (closingLine ++ more)) =
      declarationsFrom source
        (structureTokens true (offset + Text.byteLength closingLine) more) := by
  have hline : ∀ token ∈ tokenize (indent 4 ++ ['}']), token.value ≠ .create := by
    decide +kernel
  have htext : closingLine ++ more = ['\n'] ++ ((indent 4 ++ ['}']) ++ (['\n'] ++ more)) := by
    rw [closingLine]
    simp only [List.append_assoc]
  rw [htext, structureTokens_newline, declarationsFrom_line hline, structureTokens_newline]
  rfl

/-- A shape inside a list is declared. -/
theorem declaresShapes_indentedText {written : WrittenShape} (h : written.Proper) :
    DeclaresShapes written.indentedText [written.shape] := by
  intro source front more lineStart hsource
  have htext : written.indentedText ++ more = indent 4 ++
      (written.headerText ++ (blockGap ++ (written.blockText ++ (closingLine ++ more)))) := by
    rw [indentedText]
    simp only [List.append_assoc]
  rw [htext, ← List.append_assoc] at hsource
  obtain ⟨candidate, hdeclares, hfound⟩ :=
    declarationsFrom_shape h (by decide) hsource lineStart
  rw [Text.byteLength_append, byteLength_indent] at hfound
  refine ⟨[candidate], true, .cons hdeclares .nil, ?_⟩
  rw [htext, structureTokens_indent, hfound, declarationsFrom_closingLine, indentedText]
  simp only [Text.byteLength_append, Nat.add_assoc]
  rfl

end WrittenShape

/-! ## Scenes of squares -/

/-- The square with this name and this number. -/
def square (number : Nat) (name : Text) : WrittenShape where
  kind := ['S', 'q', 'u', 'a', 'r', 'e']
  name := name
  params := ⟨[(['x'], .ofInt number), (['y'], .decimal false ['2'] ['5'])], by simp⟩
  style := ⟨[(['c', 'o', 'l', 'o', 'r'], ['r', 'e', 'd'])], by simp⟩

/-- The name of the list. -/
def sceneName : Text :=
  ['S', 'c', 'e', 'n', 'e']

/-- The squares with these names, numbered from zero on. -/
def squares (names : List Text) : List WrittenShape :=
  names.zipIdx.map fun entry => square entry.2 entry.1

/-- The squares as they are written in a list. -/
def squaresScene (names : List Text) : Text :=
  listLine sceneName ++ ((squares names).flatMap WrittenShape.indentedText ++ ['}'])

/-- Two squares in a list. -/
example : String.ofList (squaresScene [['A'], ['S', 't', 'y', 'l', 'e']]) =
    "Create List Scene() \x7b\n" ++
    "    Create Square A(x:0, y:2.5) \x7b\n        Style \x7b color:red; \x7d\n    \x7d\n" ++
    "    Create Square Style(x:1, y:2.5) \x7b\n        Style \x7b color:red; \x7d\n    \x7d\n" ++
    "\x7d" := by
  decide +kernel

/-- The squares whose names are no keywords. -/
def declaredSquares (names : List Text) : List WrittenShape :=
  (squares names).filter fun written => !isKeyword written.name

theorem squareKind {number : Nat} {name : Text} :
    IsName (square number name).kind ∧ (square number name).kind ≠ listKeyword :=
  (by decide : IsName ['S', 'q', 'u', 'a', 'r', 'e'] ∧ ['S', 'q', 'u', 'a', 'r', 'e'] ≠ listKeyword)

theorem square_parameters {number : Nat} (hnumber : number < twoTo 63) (name : Text) :
    ∀ entry ∈ (square number name).params.toList, IsName entry.1 ∧ entry.2.Proper := by
  have hrange : Value.inRange (number : Int) := by
    simp only [Value.inRange, Bool.and_eq_true, decide_eq_true_eq]
    omega
  intro entry hmem
  simp only [square, List.mem_cons, List.not_mem_nil, or_false] at hmem
  rcases hmem with rfl | rfl
  · exact ⟨(by decide : IsName ['x']), Literal.proper_ofInt hrange⟩
  · decide

theorem square_proper {number : Nat} {name : Text} (hname : IsShapeName name)
    (hkeyword : ¬ isKeyword name) (hnumber : number < twoTo 63) : (square number name).Proper where
  kind := squareKind
  name := ⟨hname.isName hkeyword, hname.1, hname.2.2⟩
  params := square_parameters hnumber name
  style := by
    intro clause hmem
    rw [List.mem_singleton.mp hmem]
    decide

/-- What follows the header of a square declares nothing. -/
theorem declarationsFrom_squareBody (number : Nat) (name source : Text) (lineStart : Bool)
    (offset : Nat) (more : Text) :
    declarationsFrom source (structureTokens lineStart offset (WrittenShape.blockGap ++
        ((square number name).blockText ++ (WrittenShape.closingLine ++ more)))) =
      declarationsFrom source (structureTokens true (offset + Text.byteLength
        (WrittenShape.blockGap ++ ((square number name).blockText ++ WrittenShape.closingLine)))
          more) := by
  have hblock : ∀ token ∈ tokenize (indent 8 ++
      (styleFront ++ (styleText [(['c', 'o', 'l', 'o', 'r'], ['r', 'e', 'd'])] ++ ['}']))),
      token.value ≠ .create := by
    decide +kernel
  have hclosing : WrittenShape.closingLine ++ more =
      ['\n'] ++ ((indent 4 ++ ['}'] ++ ['\n']) ++ more) :=
    List.append_assoc ..
  have hskip := declarationsFrom_line hblock source (offset + 1)
    ((indent 4 ++ ['}'] ++ ['\n']) ++ more)
  rw [← hclosing, WrittenShape.declarationsFrom_closingLine, List.append_assoc] at hskip
  rw [WrittenShape.blockGap, List.append_assoc, structureTokens_newline]
  refine hskip.trans ?_
  simp only [Text.byteLength_append, Nat.add_assoc]
  rfl

/-- A square whose name is a keyword is skipped. -/
theorem declaresShapes_keywordSquare {number : Nat} {name : Text} (hname : Text.isIdentifier name)
    (hkeyword : isKeyword name) (hnumber : number < twoTo 63) :
    DeclaresShapes (square number name).indentedText [] := by
  intro source front more lineStart _
  have hproper : ∀ parameter ∈ (square number name).parameters,
      parameter.Proper ∧ IsName parameter.key :=
    fun _ hmem => WrittenShape.proper_of_mem_parameters (square_parameters hnumber name) hmem
  have hheader : (square number name).headerText = headerFront (square number name).kind name ++
      (parametersText (square number name).parameters ++ headerBack) := by
    rw [WrittenShape.headerText, WrittenShape.paramsText_eq]
    rfl
  have htext : (square number name).indentedText ++ more = indent 4 ++
      ((square number name).headerText ++ (WrittenShape.blockGap ++
        ((square number name).blockText ++ (WrittenShape.closingLine ++ more)))) := by
    rw [WrittenShape.indentedText]
    simp only [List.append_assoc]
  obtain ⟨first, second, third, opening, closing, last, inner, _, _, hinner, htokens⟩ :=
    structureTokens_shapeHeader squareKind.1.1 hname
      (fun parameter hmem => (hproper parameter hmem).1)
      (fun parameter hmem => (hproper parameter hmem).2) lineStart (Text.byteLength front + 4)
      (WrittenShape.blockGap ++
        ((square number name).blockText ++ (WrittenShape.closingLine ++ more)))
  refine ⟨[], true, .nil, ?_⟩
  rw [htext, hheader, structureTokens_indent, List.append_assoc, List.append_assoc, htokens,
    declarationsFrom_keyword squareKind.1 hkeyword _ _ _ _ _ _ hinner,
    declarationsFrom_squareBody, WrittenShape.indentedText, hheader]
  simp only [Text.byteLength_append, byteLength_indent, Nat.add_assoc]
  rfl

theorem exists_square_of_mem {names : List Text} {written : WrittenShape}
    (h : written ∈ squares names) :
    ∃ number name, written = square number name ∧ number < names.length ∧ name ∈ names := by
  obtain ⟨⟨name, number⟩, hentry, rfl⟩ := List.mem_map.mp h
  have hnumber := List.snd_lt_of_mem_zipIdx hentry
  exact ⟨number, name, rfl, by omega, List.fst_mem_of_mem_zipIdx hentry⟩

theorem map_name_squares (names : List Text) : (squares names).map WrittenShape.name = names := by
  have hname : WrittenShape.name ∘ (fun entry : Text × Nat => square entry.2 entry.1) = Prod.fst :=
    rfl
  rw [squares, List.map_map, hname, List.zipIdx_map_fst]

/-- The squares whose names are no keywords are declared in order, and the others are not. -/
theorem declaresShapes_squares {names : List Text} (hnames : ∀ name ∈ names, IsShapeName name)
    (hlength : names.length ≤ twoTo 63) :
    DeclaresShapes ((squares names).flatMap WrittenShape.indentedText)
      ((declaredSquares names).map WrittenShape.shape) := by
  have hsquare : ∀ written ∈ squares names, DeclaresShapes written.indentedText
      (if isKeyword written.name then [] else [written.shape]) := by
    intro written hmem
    obtain ⟨number, name, rfl, hless, hname⟩ := exists_square_of_mem hmem
    have hnumber := Nat.lt_of_lt_of_le hless hlength
    split
    next hkeyword =>
      exact declaresShapes_keywordSquare (hnames name hname).isIdentifier hkeyword hnumber
    next hkeyword =>
      exact WrittenShape.declaresShapes_indentedText
        (square_proper (hnames name hname) hkeyword hnumber)
  have hshapes : (declaredSquares names).map WrittenShape.shape = (squares names).flatMap
      fun written => if isKeyword written.name then [] else [written.shape] := by
    unfold declaredSquares
    induction squares names with
    | nil => rfl
    | cons written rest ih =>
        rw [List.flatMap_cons, ← ih, List.filter_cons]
        cases isKeyword written.name <;> rfl
  rw [hshapes]
  exact declaresShapes_flatMap hsquare

/-- The scene is read as the list of the squares whose names are no keywords. The others are dropped
without an error, as long as one is left. -/
theorem parse_squaresScene {names : List Text} (hnames : ∀ name ∈ names, IsShapeName name)
    (hdistinct : names.Nodup) (hlength : names.length ≤ twoTo 63) {fileName : Option Text}
    (hfile : ∀ path ∈ fileName, Path.stem path = sceneName) :
    (declaredSquares names ≠ [] → parse (squaresScene names) fileName =
      .ok ⟨sceneName, (declaredSquares names).map WrittenShape.shape⟩) ∧
    (declaredSquares names = [] → parse (squaresScene names) fileName =
      .error (Violation.noShapes.diagnostic.locate (.ofSource (squaresScene names)))) := by
  have hbody := declaresShapes_squares hnames hlength
  have hscene : IsName sceneName := by decide
  have hupper : Naming.startsUppercase sceneName := by decide
  refine ⟨fun hne => ?_, fun hnil => ?_⟩
  · apply parse_listLine hscene hupper hfile hbody
    · simpa using hne
    · intro shape hmem
      obtain ⟨written, hwritten, rfl⟩ := List.mem_map.mp hmem
      obtain ⟨number, name, rfl, _, hname⟩ := exists_square_of_mem (List.mem_filter.mp hwritten).1
      exact ⟨(hnames name hname).1, (hnames name hname).2.2⟩
    · have hsublist : ((declaredSquares names).map WrittenShape.name).Sublist names := by
        have hfilter : (declaredSquares names).Sublist (squares names) := List.filter_sublist
        have hmap := hfilter.map WrittenShape.name
        rwa [map_name_squares] at hmap
      rw [List.map_map]
      exact hdistinct.sublist hsublist
  · rw [hnil] at hbody
    exact parse_listLine_nil hscene hupper hfile hbody

/-- Of three squares, the one that is called `Style` is missing. -/
theorem parse_squaresScene_style :
    (∀ name ∈ [['A'], Token.style.shown, ['B']], IsShapeName name) ∧
      parse (squaresScene [['A'], Token.style.shown, ['B']]) none =
        .ok ⟨sceneName, [(square 0 ['A']).shape, (square 2 ['B']).shape]⟩ := by
  have hnames : ∀ name ∈ [['A'], Token.style.shown, ['B']], IsShapeName name := by decide
  have hleft : declaredSquares [['A'], Token.style.shown, ['B']] =
      [square 0 ['A'], square 2 ['B']] :=
    rfl
  have hfile : ∀ path ∈ (none : Option Text), Path.stem path = sceneName := by simp
  have hscene := parse_squaresScene hnames (by decide) (by decide +kernel) hfile
  rw [hleft] at hscene
  exact ⟨hnames, hscene.1 (by simp)⟩

/-- Not every scene of squares with proper and distinct names has all of them. -/
theorem squaresScene_incomplete :
    ¬ ∀ names : List Text, names ≠ [] → (∀ name ∈ names, IsShapeName name) → names.Nodup →
      ∃ document, parse (squaresScene names) none = .ok document ∧
        document.shapes.map (fun shape => shape.name) = names := by
  intro h
  obtain ⟨document, hparse, hshapes⟩ := h [['A'], Token.style.shown] (by decide) (by decide)
    (by decide)
  have hnames : ((parse (squaresScene [['A'], Token.style.shown]) none).toOption.map
      fun document => document.shapes.map fun shape => shape.name) = some [['A']] := by
    decide +kernel
  rw [hparse] at hnames
  have hone : document.shapes.map (fun shape => shape.name) = [['A']] := Option.some.inj hnames
  rw [hshapes] at hone
  cases hone

end SceneScript
