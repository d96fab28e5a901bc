import SceneScript.Scan.Cursor

/-! # The forms that a scan looks for

Each form is a pattern of significant tokens. The matchers accept exactly the token lists that begin
with their form, and what they read depends on the tokens of the form alone.
-/

namespace SceneScript

namespace Tokens

theorem expect?_eq_some_iff {token : Token} {tokens rest : Tokens} {span : Span} :
    expect? token tokens = some (span, rest) ↔ tokens = ⟨token, span⟩ :: rest := by
  cases tokens with
  | nil => simp [expect?]
  | cons first more =>
      obtain ⟨value, place⟩ := first
      by_cases h : value = token
      · simp [expect?, h]
      · simp [expect?, h]

theorem identifier?_eq_some_iff {tokens rest : Tokens} {name : Spanned Text} :
    identifier? tokens = some (name, rest) ↔
      tokens = ⟨.identifier name.value, name.span⟩ :: rest := by
  cases tokens with
  | nil => simp [identifier?]
  | cons first more =>
      obtain ⟨value, place⟩ := first
      obtain ⟨text, span⟩ := name
      cases value <;> simp [identifier?]

end Tokens

/-! ## The forms -/

/-- The tokens `Create List Name ( ) {`, and the header that they make. -/
inductive ListHeader.Form : Tokens → ListHeader → Prop where
  | intro (first keyword opening closing last : Span) (name : Spanned Text) :
    Form
      [⟨.create, first⟩, ⟨.identifier listKeyword, keyword⟩, ⟨.identifier name.value, name.span⟩,
        ⟨.leftParen, opening⟩, ⟨.rightParen, closing⟩, ⟨.leftBrace, last⟩]
      ⟨name, first.union last⟩

/-- The tokens of a name that may be missing. -/
def nameTokens : Option (Spanned Text) → Tokens
  | none => []
  | some name => [⟨.identifier name.value, name.span⟩]

theorem Token.ne_of_isParameterToken {token other : Token} (h : token.isParameterToken)
    (hother : ¬ other.isParameterToken) : token ≠ other := by
  rintro rfl
  exact hother h

/-- The tokens `Create Type Name ( … ) {` of a source, and the header that they make. -/
inductive ShapeHeader.Form (source : Text) : Tokens → ShapeHeader → Prop where
  | intro (first opening closing last : Span) (kind : Spanned Text) (name : Option (Spanned Text))
      (inner : Tokens) (hkind : kind.value ≠ listKeyword)
      (hinner : ∀ token ∈ inner, token.value.isParameterToken) :
    Form source
      (⟨.create, first⟩ :: ⟨.identifier kind.value, kind.span⟩ :: (nameTokens name ++
        ⟨.leftParen, opening⟩ :: (inner ++ [⟨.rightParen, closing⟩, ⟨.leftBrace, last⟩])))
      ⟨kind, name, Spanned.slice source opening.stop closing.start, first.union last⟩

/-- The tokens of a header of either sort. -/
inductive Header.Form (source : Text) : Tokens → Header → Prop where
  | list {consumed : Tokens} {header : ListHeader} (form : ListHeader.Form consumed header) :
    Form source consumed (.list header)
  | shape {consumed : Tokens} {header : ShapeHeader}
      (form : ShapeHeader.Form source consumed header) :
    Form source consumed (.shape header)

/-- The tokens `Style { … }` of a source, and the block that they make. -/
inductive StyleBlock.Form (source : Text) : Tokens → StyleBlock → Prop where
  | intro (keyword opening closing : Span) (inner : Tokens)
      (hinner : ∀ token ∈ inner, token.value ≠ .rightBrace) :
    Form source
      (⟨.style, keyword⟩ :: ⟨.leftBrace, opening⟩ :: (inner ++ [⟨.rightBrace, closing⟩]))
      ⟨Spanned.slice source opening.stop closing.start⟩

/-! ## Matching a form -/

theorem dropWhile_append_cons {α : Type} {p : α → Bool} {front : List α} {a : α} {back : List α}
    (hfront : ∀ b ∈ front, p b) (ha : p a = false) :
    (front ++ a :: back).dropWhile p = a :: back := by
  rw [List.dropWhile_append_of_pos hfront, List.dropWhile_cons_of_neg (by simp [ha])]

theorem ListHeader.match?_eq_some_iff {tokens rest : Tokens} {header : ListHeader} :
    ListHeader.match? tokens = some (header, rest) ↔
      ∃ consumed, ListHeader.Form consumed header ∧ tokens = consumed ++ rest := by
  simp only [ListHeader.match?, Option.bind_eq_bind, Option.bind_eq_some_iff,
    Option.filter_eq_some_iff, Prod.exists, Tokens.expect?_eq_some_iff,
    Tokens.identifier?_eq_some_iff, decide_eq_true_eq, Option.pure_def, Option.some.injEq,
    Prod.mk.injEq]
  constructor
  · rintro ⟨first, _, rfl, keyword, _, ⟨rfl, hkeyword⟩, name, _, rfl, opening, _, rfl,
      closing, _, rfl, last, _, rfl, rfl, rfl⟩
    rw [hkeyword]
    exact ⟨_, .intro first keyword.span opening closing last name, rfl⟩
  · rintro ⟨consumed, form, rfl⟩
    obtain ⟨first, keyword, opening, closing, last, name⟩ := form
    exact ⟨first, _, rfl, ⟨listKeyword, keyword⟩, _, ⟨rfl, rfl⟩, name, _, rfl, opening, _, rfl,
      closing, _, rfl, last, _, rfl, rfl, rfl⟩

theorem ShapeHeader.matchName_nameTokens (name : Option (Spanned Text)) (opening : Span)
    (rest : Tokens) :
    ShapeHeader.matchName (nameTokens name ++ ⟨.leftParen, opening⟩ :: rest) =
      (name, ⟨.leftParen, opening⟩ :: rest) := by
  cases name with
  | none => rfl
  | some name => rfl

theorem ShapeHeader.eq_nameTokens_append (tokens : Tokens) :
    tokens = nameTokens (ShapeHeader.matchName tokens).1 ++ (ShapeHeader.matchName tokens).2 := by
  unfold ShapeHeader.matchName
  split
  next name rest h => exact Tokens.identifier?_eq_some_iff.mp h
  next => rfl

theorem ShapeHeader.match?_eq_some_iff {source : Text} {tokens rest : Tokens}
    {header : ShapeHeader} :
    ShapeHeader.match? source tokens = some (header, rest) ↔
      ∃ consumed, ShapeHeader.Form source consumed header ∧ tokens = consumed ++ rest := by
  simp only [ShapeHeader.match?, Option.bind_eq_bind, Option.bind_eq_some_iff,
    Option.filter_eq_some_iff, Prod.exists, Tokens.expect?_eq_some_iff,
    Tokens.identifier?_eq_some_iff, decide_eq_true_eq, Option.pure_def, Option.some.injEq,
    Prod.mk.injEq]
  constructor
  · rintro ⟨first, _, rfl, kind, afterKind, ⟨rfl, hkind⟩, opening, afterOpen, hopen, closing, _,
      hclose, last, rest, rfl, rfl, rfl⟩
    -- Whether there is a name or not, it stands between the type and the parenthesis.
    generalize hmatch : ShapeHeader.matchName afterKind = found at hopen ⊢
    have hname := ShapeHeader.eq_nameTokens_append afterKind
    have hinner := List.takeWhile_append_dropWhile (l := afterOpen)
      (p := fun token => token.value.isParameterToken)
    rw [hclose] at hinner
    rw [hmatch, hopen, ← hinner] at hname
    refine ⟨_, .intro first opening closing last kind found.1
      (afterOpen.takeWhile fun token => token.value.isParameterToken) hkind ?_, ?_⟩
    · exact fun token hmem => List.all_eq_true.mp List.all_takeWhile token hmem
    · rw [hname]
      simp
  · rintro ⟨consumed, form, rfl⟩
    obtain ⟨first, opening, closing, last, kind, name, inner, hkind, hinner⟩ := form
    have hmatch := ShapeHeader.matchName_nameTokens name opening
      (inner ++ ⟨.rightParen, closing⟩ :: ⟨.leftBrace, last⟩ :: rest)
    refine ⟨first, _, rfl, kind, nameTokens name ++ ⟨.leftParen, opening⟩ ::
      (inner ++ ⟨.rightParen, closing⟩ :: ⟨.leftBrace, last⟩ :: rest), ⟨by simp, hkind⟩,
      opening, _, congrArg Prod.snd hmatch, closing, _, dropWhile_append_cons hinner rfl,
      last, rest, rfl, ?_, rfl⟩
    rw [hmatch]

/-- A shape header is no list header, since its type is not the list keyword. -/
theorem ShapeHeader.Form.listHeader_match? {source : Text} {consumed : Tokens}
    {header : ShapeHeader} (form : ShapeHeader.Form source consumed header) (rest : Tokens) :
    ListHeader.match? (consumed ++ rest) = none := by
  obtain ⟨first, opening, closing, last, kind, name, inner, hkind, hinner⟩ := form
  rw [Option.eq_none_iff_forall_ne_some]
  rintro ⟨list, more⟩ hlist
  obtain ⟨other, form, hother⟩ := ListHeader.match?_eq_some_iff.mp hlist
  obtain ⟨_, _, _, _, _, _⟩ := form
  have htokens := List.cons.inj (List.cons.inj hother).2
  exact hkind (Token.identifier.inj (Spanned.mk.inj htokens.1).1)

theorem Header.match?_eq_some_iff {source : Text} {tokens rest : Tokens} {header : Header} :
    Header.match? source tokens = some (header, rest) ↔
      ∃ consumed, Header.Form source consumed header ∧ tokens = consumed ++ rest := by
  constructor
  · intro h
    unfold Header.match? at h
    split at h
    next list _ hlist =>
      obtain ⟨rfl, rfl⟩ := Prod.mk.inj (Option.some.inj h)
      obtain ⟨consumed, form, htokens⟩ := ListHeader.match?_eq_some_iff.mp hlist
      exact ⟨consumed, .list form, htokens⟩
    next =>
      split at h
      next shape _ hshape =>
        obtain ⟨rfl, rfl⟩ := Prod.mk.inj (Option.some.inj h)
        obtain ⟨consumed, form, htokens⟩ := ShapeHeader.match?_eq_some_iff.mp hshape
        exact ⟨consumed, .shape form, htokens⟩
      next => cases h
  · rintro ⟨consumed, form, rfl⟩
    unfold Header.match?
    cases form with
    | list form => rw [ListHeader.match?_eq_some_iff.mpr ⟨consumed, form, rfl⟩]
    | shape form =>
        rw [form.listHeader_match?, ShapeHeader.match?_eq_some_iff.mpr ⟨consumed, form, rfl⟩]

theorem StyleBlock.match?_eq_some_iff {source : Text} {tokens rest : Tokens}
    {block : StyleBlock} :
    StyleBlock.match? source tokens = some (block, rest) ↔
      ∃ consumed, StyleBlock.Form source consumed block ∧ tokens = consumed ++ rest := by
  simp only [StyleBlock.match?, Option.bind_eq_bind, Option.bind_eq_some_iff, Prod.exists,
    Tokens.expect?_eq_some_iff, Option.pure_def, Option.some.injEq, Prod.mk.injEq]
  constructor
  · rintro ⟨keyword, _, rfl, opening, afterOpen, rfl, closing, rest, hclose, rfl, rfl⟩
    have hinner := List.takeWhile_append_dropWhile (l := afterOpen)
      (p := fun token => decide (token.value ≠ .rightBrace))
    rw [hclose] at hinner
    refine ⟨_, .intro keyword opening closing
      (afterOpen.takeWhile fun token => decide (token.value ≠ .rightBrace)) ?_, ?_⟩
    · exact fun token hmem => of_decide_eq_true (List.all_eq_true.mp List.all_takeWhile token hmem)
    · rw [List.cons_append, List.cons_append, List.append_assoc, List.singleton_append, hinner]
  · rintro ⟨consumed, form, rfl⟩
    obtain ⟨keyword, opening, closing, inner, hinner⟩ := form
    refine ⟨keyword, _, rfl, opening, inner ++ ⟨.rightBrace, closing⟩ :: rest, by simp, closing,
      rest, ?_, rfl, rfl⟩
    exact dropWhile_append_cons (fun token hmem => decide_eq_true (hinner token hmem))
      (decide_eq_false (by simp))

end SceneScript
