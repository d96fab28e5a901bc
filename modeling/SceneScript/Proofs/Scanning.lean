import SceneScript.Proofs.Bytes
import SceneScript.Proofs.Declarations
import SceneScript.Proofs.Forms

/-! # What a scan finds, and what later tokens change

A scan skips tokens up to a form and takes the form whole. Tokens that come later cannot change what
was found before them: a header holds one `Create` only, at its front, and a style block ends at the
first closing brace, so neither can reach over a form that was already complete.
-/

namespace SceneScript

/-- All tokens lie in the bytes of the source. -/
def Tokens.Within (source : Text) (tokens : Tokens) : Prop :=
  ∀ token ∈ tokens, token.span.stop ≤ Text.byteLength source

theorem Tokens.within_append {source : Text} {front back : Tokens} :
    Tokens.Within source (front ++ back) ↔
      Tokens.Within source front ∧ Tokens.Within source back :=
  List.forall_mem_append

theorem Tokens.Within.of_cons {source : Text} {token : Spanned Token} {tokens : Tokens}
    (h : Tokens.Within source (token :: tokens)) : Tokens.Within source tokens :=
  (List.forall_mem_cons.mp h).2

section Form

variable {source : Text} {consumed tokens rest : Tokens}

/-! ## Where the marks of a form stand -/

/-- `Create` and `Style` stand in no header but at its front, and a closing brace nowhere. -/
theorem Header.Form.eq_cons {header : Header} (form : Header.Form source consumed header) :
    ∃ first more, consumed = ⟨.create, first⟩ :: more ∧
      ∀ token ∈ more, token.value ≠ .create ∧ token.value ≠ .style ∧
        token.value ≠ .rightBrace := by
  cases form with
  | list form =>
      obtain ⟨first, keyword, opening, closing, last, name⟩ := form
      exact ⟨first, _, rfl, by simp⟩
  | shape form =>
      obtain ⟨first, opening, closing, last, kind, name, inner, _, hinner⟩ := form
      refine ⟨first, _, rfl, ?_⟩
      have hparameter : ∀ token ∈ inner, token.value ≠ .create ∧ token.value ≠ .style ∧
          token.value ≠ .rightBrace := by
        intro token hmem
        have htoken := hinner token hmem
        exact ⟨Token.ne_of_isParameterToken htoken (by decide),
          Token.ne_of_isParameterToken htoken (by decide),
          Token.ne_of_isParameterToken htoken (by decide)⟩
      have hname : ∀ token ∈ nameTokens name, token.value ≠ .create ∧ token.value ≠ .style ∧
          token.value ≠ .rightBrace := by
        cases name <;> simp [nameTokens]
      intro token hmem
      simp only [List.mem_cons, List.mem_append, List.not_mem_nil, or_false] at hmem
      rcases hmem with rfl | hmem | rfl | hmem | rfl | rfl
      · simp
      · exact hname token hmem
      · simp
      · exact hparameter token hmem
      · simp
      · simp

/-- A style block begins with `Style` and ends with the only closing brace in it. -/
theorem StyleBlock.Form.eq_append {block : StyleBlock}
    (form : StyleBlock.Form source consumed block) :
    ∃ keyword inner closing,
      consumed = (⟨.style, keyword⟩ :: inner) ++ [⟨.rightBrace, closing⟩] ∧
        ∀ token ∈ inner, token.value ≠ .rightBrace := by
  obtain ⟨keyword, opening, closing, inner, hinner⟩ := form
  refine ⟨keyword, ⟨.leftBrace, opening⟩ :: inner, closing, rfl, ?_⟩
  intro token hmem
  rcases List.mem_cons.mp hmem with rfl | hmem
  · simp
  · exact hinner token hmem

/-! ## Forms in a longer source -/

theorem Spanned.slice_append {closing : Span} (h : closing.stop ≤ Text.byteLength source)
    (start : Nat) (more : Text) :
    Spanned.slice (source ++ more) start closing.start =
      Spanned.slice source start closing.start := by
  rw [Spanned.slice, Text.slice_append_of_le (Nat.le_trans closing.start_le_stop h), Spanned.slice]

/-- A form reads the same text when the source goes on. -/
theorem Header.Form.append_iff {header : Header} (hwithin : Tokens.Within source consumed)
    (more : Text) :
    Header.Form (source ++ more) consumed header ↔ Header.Form source consumed header := by
  constructor <;> intro form
  · cases form with
    | list form => exact .list form
    | shape form =>
        obtain ⟨first, opening, closing, last, kind, name, inner, hkind, hinner⟩ := form
        rw [Spanned.slice_append (hwithin ⟨.rightParen, closing⟩ (by simp))]
        exact .shape (.intro first opening closing last kind name inner hkind hinner)
  · cases form with
    | list form => exact .list form
    | shape form =>
        obtain ⟨first, opening, closing, last, kind, name, inner, hkind, hinner⟩ := form
        rw [← Spanned.slice_append (hwithin ⟨.rightParen, closing⟩ (by simp)) _ more]
        exact .shape (.intro first opening closing last kind name inner hkind hinner)

theorem StyleBlock.Form.append_iff {block : StyleBlock} (hwithin : Tokens.Within source consumed)
    (more : Text) :
    StyleBlock.Form (source ++ more) consumed block ↔ StyleBlock.Form source consumed block := by
  constructor <;> intro form
  · obtain ⟨keyword, opening, closing, inner, hinner⟩ := form
    rw [Spanned.slice_append (hwithin ⟨.rightBrace, closing⟩ (by simp))]
    exact .intro keyword opening closing inner hinner
  · obtain ⟨keyword, opening, closing, inner, hinner⟩ := form
    rw [← Spanned.slice_append (hwithin ⟨.rightBrace, closing⟩ (by simp)) _ more]
    exact .intro keyword opening closing inner hinner

/-- A header that is found in a longer source, but not in the source itself, takes all tokens that
are left there. -/
theorem Header.match?_append_cases {first : Spanned Token} {later after : Tokens} {header : Header}
    (hwithin : Tokens.Within source (first :: rest)) {more : Text}
    (hnone : Header.match? source (first :: rest) = none)
    (h : Header.match? (source ++ more) (first :: (rest ++ later)) = some (header, after)) :
    ∀ token ∈ rest, token.value ≠ .create ∧ token.value ≠ .style ∧
      token.value ≠ .rightBrace := by
  obtain ⟨consumed, form, htokens⟩ := Header.match?_eq_some_iff.mp h
  rw [← List.cons_append] at htokens
  rcases List.append_eq_append_iff.mp htokens with ⟨middle, hconsumed, _⟩ | ⟨middle, hrest, _⟩
  · obtain ⟨start, inner, hcons, hinner⟩ := form.eq_cons
    rw [hcons, List.cons_append] at hconsumed
    intro token hmem
    apply hinner token
    rw [(List.cons.inj hconsumed).2]
    exact List.mem_append_left middle hmem
  · rw [hrest] at hwithin
    have hconsumed := (Tokens.within_append.mp hwithin).1
    have hfound := Header.match?_eq_some_iff.mpr
      ⟨consumed, (Header.Form.append_iff hconsumed more).mp form, hrest⟩
    rw [hnone] at hfound
    cases hfound

/-- A style block that is found in a longer source, but not in the source itself, is closed by a
later brace. -/
theorem StyleBlock.match?_append_cases {first : Spanned Token} {later after : Tokens}
    {block : StyleBlock} (hwithin : Tokens.Within source (first :: rest)) {more : Text}
    (hnone : StyleBlock.match? source (first :: rest) = none)
    (h : StyleBlock.match? (source ++ more) (first :: (rest ++ later)) = some (block, after)) :
    ∀ token ∈ rest, token.value ≠ .rightBrace := by
  obtain ⟨consumed, form, htokens⟩ := StyleBlock.match?_eq_some_iff.mp h
  have hshort : ∀ middle, first :: rest ≠ consumed ++ middle := by
    intro middle hrest
    have hconsumed := (Tokens.within_append.mp (hrest ▸ hwithin)).1
    have hfound := StyleBlock.match?_eq_some_iff.mpr
      ⟨consumed, (StyleBlock.Form.append_iff hconsumed more).mp form, hrest⟩
    rw [hnone] at hfound
    cases hfound
  rw [← List.cons_append] at htokens
  rcases List.append_eq_append_iff.mp htokens with ⟨middle, hconsumed, _⟩ | ⟨middle, hrest, _⟩
  · rcases List.eq_nil_or_concat middle with rfl | ⟨front, last, rfl⟩
    · exact absurd (by rw [hconsumed, List.append_nil, List.append_nil]) (hshort [])
    · obtain ⟨keyword, inner, closing, hmarks, hinner⟩ := form.eq_append
      rw [hmarks, List.concat_eq_append, ← List.append_assoc] at hconsumed
      have hfront := List.append_inj_left' hconsumed rfl
      intro token hmem
      apply hinner token
      rw [(List.cons.inj hfront).2]
      exact List.mem_append_left front hmem
  · exact absurd hrest (hshort middle)

end Form

/-! ## What a move of the cursor finds -/

section Move

variable {source : Text} {tokens rest : Tokens}

theorem nextHeader_of_match? {found : Header × Tokens}
    (h : Header.match? source tokens = some found) : nextHeader source tokens = some found := by
  cases tokens with
  | nil => cases h
  | cons token more => rw [nextHeader, h]

theorem nextHeader_cons_of_match? {token : Spanned Token}
    (h : Header.match? source (token :: tokens) = none) :
    nextHeader source (token :: tokens) = nextHeader source tokens := by
  rw [nextHeader, h]

theorem nextHeader_cons_cases {token : Spanned Token} {found : Header × Tokens}
    (h : nextHeader source (token :: tokens) = some found) :
    Header.match? source (token :: tokens) = some found ∨
      Header.match? source (token :: tokens) = none ∧ nextHeader source tokens = some found := by
  cases hmatch : Header.match? source (token :: tokens) with
  | some other =>
      rw [nextHeader_of_match? hmatch] at h
      exact .inl h
  | none =>
      rw [nextHeader_cons_of_match? hmatch] at h
      exact .inr ⟨rfl, h⟩

theorem nextHeader_cons_eq_none {token : Spanned Token}
    (h : nextHeader source (token :: tokens) = none) :
    Header.match? source (token :: tokens) = none ∧ nextHeader source tokens = none := by
  cases hmatch : Header.match? source (token :: tokens) with
  | some found =>
      rw [nextHeader_of_match? hmatch] at h
      cases h
  | none => exact ⟨rfl, (nextHeader_cons_of_match? hmatch).symm.trans h⟩

/-- Only `Create` opens a header. -/
theorem Header.match?_eq_none {token : Spanned Token} (h : token.value ≠ .create) :
    Header.match? source (token :: tokens) = none := by
  rw [Option.eq_none_iff_forall_ne_some]
  rintro ⟨header, after⟩ hheader
  obtain ⟨consumed, form, htokens⟩ := Header.match?_eq_some_iff.mp hheader
  obtain ⟨first, inner, rfl, _⟩ := form.eq_cons
  rw [List.cons_append] at htokens
  exact h (congrArg Spanned.value (List.cons.inj htokens).1)

/-- Only `Style` opens a style block. -/
theorem StyleBlock.match?_eq_none {token : Spanned Token} (h : token.value ≠ .style) :
    StyleBlock.match? source (token :: tokens) = none := by
  rw [Option.eq_none_iff_forall_ne_some]
  rintro ⟨block, after⟩ hblock
  obtain ⟨consumed, form, htokens⟩ := StyleBlock.match?_eq_some_iff.mp hblock
  obtain ⟨keyword, inner, closing, rfl, _⟩ := form.eq_append
  rw [List.cons_append, List.cons_append] at htokens
  exact h (congrArg Spanned.value (List.cons.inj htokens).1)

theorem findStyle_of_match? {block : StyleBlock}
    (h : StyleBlock.match? source tokens = some (block, rest)) :
    findStyle source tokens = (some block, rest) := by
  cases tokens with
  | nil => cases h
  | cons token more =>
      have hheader : Header.match? source (token :: more) = none := by
        by_cases hstyle : token.value = .style
        · exact Header.match?_eq_none (by simp [hstyle])
        · rw [StyleBlock.match?_eq_none hstyle] at h
          cases h
      rw [findStyle, hheader, h]
      rfl

theorem findStyle_cons_of_match? {token : Spanned Token}
    (hheader : Header.match? source (token :: tokens) = none)
    (hstyle : StyleBlock.match? source (token :: tokens) = none) :
    findStyle source (token :: tokens) = findStyle source tokens := by
  rw [findStyle, hheader, hstyle]
  rfl

theorem findStyle_cons_cases {token : Spanned Token} {block : StyleBlock}
    (h : findStyle source (token :: tokens) = (some block, rest)) :
    StyleBlock.match? source (token :: tokens) = some (block, rest) ∨
      Header.match? source (token :: tokens) = none ∧
        StyleBlock.match? source (token :: tokens) = none ∧
        findStyle source tokens = (some block, rest) := by
  cases hheader : Header.match? source (token :: tokens) with
  | some found =>
      rw [findStyle, hheader] at h
      cases h
  | none =>
      cases hstyle : StyleBlock.match? source (token :: tokens) with
      | some found =>
          rw [findStyle_of_match? hstyle, Prod.mk.injEq, Option.some.injEq] at h
          rw [← h.1, ← h.2]
          exact .inl rfl
      | none =>
          rw [findStyle_cons_of_match? hheader hstyle] at h
          exact .inr ⟨rfl, rfl, h⟩

theorem nextHeader_of_form {consumed : Tokens} {header : Header}
    (form : Header.Form source consumed header) (rest : Tokens) :
    nextHeader source (consumed ++ rest) = some (header, rest) :=
  nextHeader_of_match? (Header.match?_eq_some_iff.mpr ⟨consumed, form, rfl⟩)

theorem findStyle_of_form {consumed : Tokens} {block : StyleBlock}
    (form : StyleBlock.Form source consumed block) (rest : Tokens) :
    findStyle source (consumed ++ rest) = (some block, rest) :=
  findStyle_of_match? (StyleBlock.match?_eq_some_iff.mpr ⟨consumed, form, rfl⟩)

/-- The next header is a form in the tokens ahead. -/
theorem nextHeader_eq_some {header : Header} (h : nextHeader source tokens = some (header, rest)) :
    ∃ skipped consumed, Header.Form source consumed header ∧
      tokens = skipped ++ (consumed ++ rest) := by
  induction tokens with
  | nil => cases h
  | cons token more ih =>
      rcases nextHeader_cons_cases h with hmatch | ⟨_, hlater⟩
      · obtain ⟨consumed, form, htokens⟩ := Header.match?_eq_some_iff.mp hmatch
        exact ⟨[], consumed, form, htokens⟩
      · obtain ⟨skipped, consumed, form, rfl⟩ := ih hlater
        exact ⟨token :: skipped, consumed, form, rfl⟩

/-- The style block that is found is a form in the tokens ahead. -/
theorem findStyle_eq_some {block : StyleBlock} (h : findStyle source tokens = (some block, rest)) :
    ∃ skipped consumed, StyleBlock.Form source consumed block ∧
      tokens = skipped ++ (consumed ++ rest) := by
  induction tokens with
  | nil => cases h
  | cons token more ih =>
      rcases findStyle_cons_cases h with hmatch | ⟨_, _, hlater⟩
      · obtain ⟨consumed, form, htokens⟩ := StyleBlock.match?_eq_some_iff.mp hmatch
        exact ⟨[], consumed, form, htokens⟩
      · obtain ⟨skipped, consumed, form, rfl⟩ := ih hlater
        exact ⟨token :: skipped, consumed, form, rfl⟩

theorem suffix_of_nextHeader {header : Header}
    (h : nextHeader source tokens = some (header, rest)) : rest <:+ tokens := by
  obtain ⟨skipped, consumed, _, rfl⟩ := nextHeader_eq_some h
  exact ⟨skipped ++ consumed, List.append_assoc ..⟩

theorem findStyle_suffix (source : Text) (tokens : Tokens) :
    (findStyle source tokens).2 <:+ tokens := by
  induction tokens with
  | nil => exact List.suffix_refl []
  | cons token more ih =>
      rw [findStyle]
      split
      next => exact List.suffix_refl _
      next =>
        split
        next block after hfound =>
          obtain ⟨consumed, _, htokens⟩ := StyleBlock.match?_eq_some_iff.mp hfound
          exact ⟨consumed, htokens.symm⟩
        next => exact ih.trans (List.suffix_cons token more)

theorem Tokens.Within.of_nextHeader {header : Header} (h : tokens.Within source)
    (hnext : nextHeader source tokens = some (header, rest)) : rest.Within source := by
  obtain ⟨skipped, consumed, _, rfl⟩ := nextHeader_eq_some hnext
  rw [Tokens.within_append, Tokens.within_append] at h
  exact h.2.2

theorem Tokens.Within.of_findStyle {block : StyleBlock} (h : tokens.Within source)
    (hfind : findStyle source tokens = (some block, rest)) : rest.Within source := by
  obtain ⟨skipped, consumed, _, rfl⟩ := findStyle_eq_some hfind
  rw [Tokens.within_append, Tokens.within_append] at h
  exact h.2.2

/-- What holds of every header that is made of the tokens holds of every declaration. -/
theorem forall_mem_declarationsFrom {P : Declaration → Prop}
    (list : ∀ consumed header, ListHeader.Form consumed header → consumed <:+: tokens →
      P (.list header))
    (shape : ∀ consumed header block, ShapeHeader.Form source consumed header →
      consumed <:+: tokens → P (.shape ⟨header, block⟩)) :
    ∀ declaration ∈ declarationsFrom source tokens, P declaration := by
  induction tokens using scan_induction source with
  | none tokens hnone => simp [declarationsFrom_of_none hnone]
  | list tokens header rest hlist ih =>
      obtain ⟨skipped, consumed, form, htokens⟩ := nextHeader_eq_some hlist
      have hpart : consumed <:+: tokens := ⟨skipped, rest, by rw [htokens, List.append_assoc]⟩
      have hrest : rest <:+: tokens := (suffix_of_nextHeader hlist).isInfix
      rw [declarationsFrom_of_list hlist, List.forall_mem_cons]
      refine ⟨?_, ih (fun consumed header form h => list consumed header form (h.trans hrest))
        (fun consumed header block form h => shape consumed header block form (h.trans hrest))⟩
      cases form with
      | list form => exact list consumed header form hpart
  | shape tokens header rest block after hshape hstyle ih =>
      obtain ⟨skipped, consumed, form, htokens⟩ := nextHeader_eq_some hshape
      have hpart : consumed <:+: tokens := ⟨skipped, rest, by rw [htokens, List.append_assoc]⟩
      have hafter : after <:+: tokens := by
        have hsuffix := findStyle_suffix source rest
        rw [hstyle] at hsuffix
        exact (hsuffix.trans (suffix_of_nextHeader hshape)).isInfix
      rw [declarationsFrom_of_shape hshape hstyle, List.forall_mem_cons]
      refine ⟨?_, ih (fun consumed header form h => list consumed header form (h.trans hafter))
        (fun consumed header block form h => shape consumed header block form (h.trans hafter))⟩
      cases form with
      | shape form => exact shape consumed header block form hpart

/-- A token other than `Create` declares nothing. -/
theorem declarationsFrom_cons {token : Spanned Token} (h : token.value ≠ .create) :
    declarationsFrom source (token :: tokens) = declarationsFrom source tokens :=
  declarationsFrom_congr (nextHeader_cons_of_match? (Header.match?_eq_none h))

theorem declarationsFrom_append_of_forall {front : Tokens}
    (h : ∀ token ∈ front, token.value ≠ .create) (back : Tokens) :
    declarationsFrom source (front ++ back) = declarationsFrom source back := by
  induction front with
  | nil => rfl
  | cons token more ih =>
      obtain ⟨htoken, hmore⟩ := List.forall_mem_cons.mp h
      rw [List.cons_append, declarationsFrom_cons htoken, ih hmore]

/-! ## The same move in a longer source -/

/-- Later tokens do not change the next header. -/
theorem nextHeader_append {header : Header} (hwithin : tokens.Within source)
    (h : nextHeader source tokens = some (header, rest)) (more : Text) (later : Tokens) :
    nextHeader (source ++ more) (tokens ++ later) = some (header, rest ++ later) := by
  induction tokens with
  | nil => cases h
  | cons token ahead ih =>
      rcases nextHeader_cons_cases h with hmatch | ⟨hmatch, hlater⟩
      · obtain ⟨consumed, form, htokens⟩ := Header.match?_eq_some_iff.mp hmatch
        rw [htokens] at hwithin ⊢
        rw [List.append_assoc]
        apply nextHeader_of_form
        exact (Header.Form.append_iff (Tokens.within_append.mp hwithin).1 more).mpr form
      · -- The header ahead has its own `Create`, so none can reach over it from here.
        have hlonger : Header.match? (source ++ more) (token :: (ahead ++ later)) = none := by
          rw [Option.eq_none_iff_forall_ne_some]
          rintro ⟨other, after⟩ hother
          have hfree := Header.match?_append_cases hwithin hmatch hother
          obtain ⟨skipped, consumed, form, rfl⟩ := nextHeader_eq_some hlater
          obtain ⟨first, inner, rfl, _⟩ := form.eq_cons
          exact (hfree ⟨.create, first⟩ (by simp)).1 rfl
        rw [List.cons_append, nextHeader_cons_of_match? hlonger]
        exact ih hwithin.of_cons hlater

/-- Where the last token is a closing brace, no header goes on with later tokens. -/
theorem nextHeader_append_of_none (hwithin : tokens.Within source)
    (hlast : ∀ token ∈ tokens.getLast?, token.value = .rightBrace)
    (h : nextHeader source tokens = none) (more : Text) (later : Tokens) :
    nextHeader (source ++ more) (tokens ++ later) = nextHeader (source ++ more) later := by
  induction tokens with
  | nil => rfl
  | cons token ahead ih =>
      obtain ⟨hmatch, hahead⟩ := nextHeader_cons_eq_none h
      have hlonger : Header.match? (source ++ more) (token :: (ahead ++ later)) = none := by
        cases hend : ahead.getLast? with
        | none =>
            rw [List.getLast?_eq_none_iff] at hend
            rw [hend] at hlast
            exact Header.match?_eq_none (by simp [hlast token rfl])
        | some last =>
            -- A header from here on would hold the last brace, and no header does.
            have hbrace := hlast last (by simp [List.getLast?_cons, hend])
            rw [Option.eq_none_iff_forall_ne_some]
            rintro ⟨header, after⟩ hfound
            have hmem := List.mem_of_getLast? hend
            exact (Header.match?_append_cases hwithin hmatch hfound last hmem).2.2 hbrace
      rw [List.cons_append, nextHeader_cons_of_match? hlonger]
      apply ih hwithin.of_cons _ hahead
      intro last hmem
      exact hlast last (by simp [List.getLast?_cons, Option.mem_def.mp hmem])

/-- Later tokens do not change the style block that is found. -/
theorem findStyle_append {block : StyleBlock} (hwithin : tokens.Within source)
    (h : findStyle source tokens = (some block, rest)) (more : Text) (later : Tokens) :
    findStyle (source ++ more) (tokens ++ later) = (some block, rest ++ later) := by
  induction tokens with
  | nil => cases h
  | cons token ahead ih =>
      rcases findStyle_cons_cases h with hmatch | ⟨hheader, hstyle, hlater⟩
      · obtain ⟨consumed, form, htokens⟩ := StyleBlock.match?_eq_some_iff.mp hmatch
        rw [htokens] at hwithin ⊢
        rw [List.append_assoc]
        apply findStyle_of_form
        exact (StyleBlock.Form.append_iff (Tokens.within_append.mp hwithin).1 more).mpr form
      · obtain ⟨skipped, consumed, form, hahead⟩ := findStyle_eq_some hlater
        obtain ⟨keyword, inner, closing, rfl, _⟩ := form.eq_append
        -- The block ahead has both marks, so neither form can reach over it from here.
        have hkeyword : ⟨.style, keyword⟩ ∈ ahead := by simp [hahead]
        have hclosing : ⟨.rightBrace, closing⟩ ∈ ahead := by simp [hahead]
        have hlongerHeader : Header.match? (source ++ more) (token :: (ahead ++ later)) = none := by
          rw [Option.eq_none_iff_forall_ne_some]
          rintro ⟨header, after⟩ hfound
          exact (Header.match?_append_cases hwithin hheader hfound _ hkeyword).2.1 rfl
        have hlongerStyle :
            StyleBlock.match? (source ++ more) (token :: (ahead ++ later)) = none := by
          rw [Option.eq_none_iff_forall_ne_some]
          rintro ⟨other, after⟩ hfound
          exact StyleBlock.match?_append_cases hwithin hstyle hfound _ hclosing rfl
        rw [List.cons_append, findStyle_cons_of_match? hlongerHeader hlongerStyle]
        exact ih hwithin.of_cons hlater

end Move

end SceneScript
