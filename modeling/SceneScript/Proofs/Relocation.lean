import SceneScript.Proofs.Insertion
import SceneScript.Proofs.SameText
import SceneScript.Proofs.Scanning

/-! # Scanning tokens that were moved

Forms are patterns in the values of tokens. A scan of the same tokens at other places therefore
meets the same forms, and what it cuts out of the source lies between the same two tokens.
-/

namespace SceneScript

/-- The first text is cut out of the source between two of the tokens, and the second one out of the
other source between the places of these two. -/
inductive CutAlike (place : Span → Span) (source other : Text) (tokens : Tokens) :
    Spanned Text → Spanned Text → Prop where
  | intro (opening closing : Spanned Token) (order : [opening, closing].Sublist tokens) :
    CutAlike place source other tokens
      (Spanned.slice source opening.span.stop closing.span.start)
      (Spanned.slice other (place opening.span).stop (place closing.span).start)

/-- The first span reaches from one place to another, and the second one from where the one was
moved to where the other was moved. -/
inductive Span.UnionAlike (place : Span → Span) : Span → Span → Prop where
  | intro (first last : Span) :
    UnionAlike place (first.union last) ((place first).union (place last))

/-- The headers say the same at places that were moved, and their parameters are cut out alike. -/
inductive Header.Alike (place : Span → Span) (source other : Text) (tokens : Tokens) :
    Header → Header → Prop where
  | list {a b : ListHeader} (name : b.name = a.name.relocate place)
    (span : Span.UnionAlike place a.span b.span) : Alike place source other tokens (.list a) (.list b)
  | shape {a b : ShapeHeader} (kind : b.kind = a.kind.relocate place)
    (name : b.name = a.name.map (·.relocate place))
    (params : CutAlike place source other tokens a.params b.params)
    (span : Span.UnionAlike place a.span b.span) :
    Alike place source other tokens (.shape a) (.shape b)

/-- The bodies of the style blocks are cut out alike. -/
def StyleBlock.Alike (place : Span → Span) (source other : Text) (tokens : Tokens)
    (a b : StyleBlock) : Prop :=
  CutAlike place source other tokens a.body b.body

/-- The headers are alike, and so are the style blocks. -/
inductive Declaration.Alike (place : Span → Span) (source other : Text) (tokens : Tokens) :
    Declaration → Declaration → Prop where
  | list {a b : ListHeader} (header : Header.Alike place source other tokens (.list a) (.list b)) :
    Alike place source other tokens (.list a) (.list b)
  | shape {a b : Candidate}
    (header : Header.Alike place source other tokens (.shape a.header) (.shape b.header))
    (block : Option.Rel (StyleBlock.Alike place source other tokens) a.block b.block) :
    Alike place source other tokens (.shape a) (.shape b)

/-- What was found is alike, and the same tokens follow it. -/
structure MovedWith {β : Type} (place : Span → Span) (R : β → β → Prop) (found moved : β × Tokens) :
    Prop where
  alike : R found.1 moved.1
  rest : moved.2 = found.2.map (·.relocate place)

theorem MovedWith.exists_of_some {β : Type} {place : Span → Span} {R : β → β → Prop} {found : β}
    {rest : Tokens} {answer : Option (β × Tokens)}
    (h : Option.Rel (MovedWith place R) (some (found, rest)) answer) :
    ∃ moved, answer = some (moved, rest.map (·.relocate place)) ∧ R found moved := by
  cases h with
  | @some _ moved hsame => exact ⟨moved.1, by rw [← hsame.rest], hsame.alike⟩

theorem eq_none_of_rel_none {β : Type} {R : β → β → Prop} {answer : Option β}
    (h : Option.Rel R none answer) : answer = none := by
  cases h
  rfl

/-- Between the same tokens of the other source stand the parameters of the candidate, as they are,
and a style body with the same entries. -/
structure Candidate.KeptBy (place : Span → Span) (source other : Text) (tokens : Tokens)
    (candidate : Candidate) : Prop where
  params : ∀ moved, CutAlike place source other tokens candidate.header.params moved →
    candidate.header.params.value = moved.value
  style : ∀ block ∈ candidate.block, ∀ moved,
    CutAlike place source other tokens block.body moved →
      Style.read block.body.value = Style.read moved.value

section Alike

variable {place : Span → Span} {source other : Text} {tokens all : Tokens}

theorem CutAlike.mono {a b : Spanned Text} (h : CutAlike place source other tokens a b)
    (hsub : tokens.Sublist all) : CutAlike place source other all a b := by
  obtain ⟨opening, closing, order⟩ := h
  exact .intro opening closing (order.trans hsub)

theorem Header.Alike.mono {a b : Header} (h : Header.Alike place source other tokens a b)
    (hsub : tokens.Sublist all) : Header.Alike place source other all a b := by
  cases h with
  | list name span => exact .list name span
  | shape kind name params span => exact .shape kind name (params.mono hsub) span

theorem Candidate.KeptBy.map_read {candidate : Candidate}
    (h : candidate.KeptBy place source other tokens) {moved : Option StyleBlock}
    (hblock : Option.Rel (StyleBlock.Alike place source other tokens) candidate.block moved) :
    candidate.block.map (fun block => Style.read block.body.value) =
      moved.map fun block => Style.read block.body.value := by
  cases hcandidate : candidate.block with
  | none =>
      rw [hcandidate] at hblock
      rw [eq_none_of_rel_none hblock, Option.map_none]
  | some block =>
      rw [hcandidate] at hblock
      cases hblock with
      | some halike => exact congrArg some (h.style block hcandidate _ halike)

/-- Tokens that were moved can be moved back. -/
theorem exists_map_relocate (hinj : Function.Injective place) :
    ∃ back : Span → Span, ∀ tokens : Tokens,
      (tokens.map (·.relocate place)).map (·.relocate back) = tokens := by
  have : Nonempty Span := ⟨.emptyAt 0⟩
  obtain ⟨back, hback⟩ := hinj.hasLeftInverse
  refine ⟨back, ?_⟩
  intro tokens
  rw [List.map_map]
  apply List.map_id''
  intro token
  simp only [Function.comp_apply, Spanned.relocate, hback token.span]

end Alike

/-! ## Forms -/

section Form

variable {source : Text} {consumed : Tokens} (place : Span → Span) (other : Text)

theorem ShapeHeader.Form.relocate {header : ShapeHeader}
    (form : ShapeHeader.Form source consumed header) :
    ∃ moved, ShapeHeader.Form other (consumed.map (·.relocate place)) moved ∧
      Header.Alike place source other consumed (.shape header) (.shape moved) := by
  obtain ⟨first, opening, closing, last, kind, name, inner, hkind, hinner⟩ := form
  have hname : (nameTokens name).map (·.relocate place) =
      nameTokens (name.map (·.relocate place)) := by
    cases name <;> rfl
  have hmoved : ∀ token ∈ inner.map (·.relocate place), token.value.isParameterToken := by
    intro moved hmem
    obtain ⟨token, htoken, rfl⟩ := List.mem_map.mp hmem
    exact hinner token htoken
  refine ⟨⟨kind.relocate place, name.map (·.relocate place),
    Spanned.slice other (place opening).stop (place closing).start,
    (place first).union (place last)⟩, ?_, .shape rfl rfl ?_ (.intro first last)⟩
  · simp only [List.map_cons, List.map_append, List.map_nil, hname]
    exact .intro (place first) (place opening) (place closing) (place last)
      (kind.relocate place) (name.map (·.relocate place)) (inner.map (·.relocate place)) hkind
      hmoved
  · refine .intro ⟨.leftParen, opening⟩ ⟨.rightParen, closing⟩ ?_
    refine .cons _ (.cons _ (List.sublist_append_of_sublist_right (.cons_cons _ ?_)))
    exact List.sublist_append_of_sublist_right (.cons_cons _ (List.nil_sublist _))

theorem Header.Form.relocate {header : Header} (form : Header.Form source consumed header) :
    ∃ moved, Header.Form other (consumed.map (·.relocate place)) moved ∧
      Header.Alike place source other consumed header moved := by
  cases form with
  | list form =>
      obtain ⟨first, keyword, opening, closing, last, name⟩ := form
      exact ⟨_, .list (.intro (place first) (place keyword) (place opening) (place closing)
        (place last) (name.relocate place)), .list rfl (.intro first last)⟩
  | shape form =>
      obtain ⟨moved, hform, halike⟩ := form.relocate place other
      exact ⟨_, .shape hform, halike⟩

theorem StyleBlock.Form.relocate {block : StyleBlock}
    (form : StyleBlock.Form source consumed block) :
    ∃ moved, StyleBlock.Form other (consumed.map (·.relocate place)) moved ∧
      StyleBlock.Alike place source other consumed block moved := by
  obtain ⟨keyword, opening, closing, inner, hinner⟩ := form
  have hmoved : ∀ token ∈ inner.map (·.relocate place), token.value ≠ .rightBrace := by
    intro moved hmem
    obtain ⟨token, htoken, rfl⟩ := List.mem_map.mp hmem
    exact hinner token htoken
  refine ⟨⟨Spanned.slice other (place opening).stop (place closing).start⟩, ?_, ?_⟩
  · simp only [List.map_cons, List.map_append, List.map_nil]
    exact .intro (place keyword) (place opening) (place closing) (inner.map (·.relocate place))
      hmoved
  · refine .intro ⟨.leftBrace, opening⟩ ⟨.rightBrace, closing⟩ ?_
    exact .cons _ (.cons_cons _ (List.sublist_append_right _ _))

end Form

/-! ## Matching a form -/

section Accepts

variable {β : Type} {Form Moved : Tokens → β → Prop}
  {matcher mover : Tokens → Option (β × Tokens)}

/-- The matcher accepts exactly the token lists that begin with the form. -/
def Accepts (Form : Tokens → β → Prop) (matcher : Tokens → Option (β × Tokens)) : Prop :=
  ∀ tokens found rest, matcher tokens = some (found, rest) ↔
    ∃ consumed, Form consumed found ∧ tokens = consumed ++ rest

/-- Two matchers answer alike when every form can be moved, and none arises by moving. -/
theorem Accepts.relocate (h : Accepts Form matcher) (hmover : Accepts Moved mover)
    {place : Span → Span} {tokens : Tokens} {R : β → β → Prop}
    (hform : ∀ consumed found, consumed.Sublist tokens → Form consumed found →
      ∃ moved, Moved (consumed.map (·.relocate place)) moved ∧ R found moved)
    (hmoved : ∀ consumed moved, Moved (consumed.map (·.relocate place)) moved →
      ∃ found, Form consumed found) :
    Option.Rel (MovedWith place R) (matcher tokens) (mover (tokens.map (·.relocate place))) := by
  cases hfound : matcher tokens with
  | some found =>
      obtain ⟨consumed, form, rfl⟩ := (h _ _ _).mp hfound
      obtain ⟨moved, form, hsame⟩ :=
        hform consumed found.1 (List.sublist_append_left consumed found.2) form
      rw [(hmover _ _ _).mpr ⟨_, form, List.map_append⟩]
      exact .some ⟨hsame, rfl⟩
  | none =>
      cases hother : mover (tokens.map (·.relocate place)) with
      | none => exact .none
      | some moved =>
          -- What was matched among the moved tokens is a form among those that were not.
          obtain ⟨consumed, form, htokens⟩ := (hmover _ _ _).mp hother
          obtain ⟨front, rest, rfl, rfl, _⟩ := List.map_eq_append_iff.mp htokens
          obtain ⟨found, form⟩ := hmoved front moved.1 form
          rw [(h _ _ _).mpr ⟨front, form, rfl⟩] at hfound
          cases hfound

end Accepts

/-! ## Moves of the cursor -/

section Move

variable {place : Span → Span} (hinj : Function.Injective place) (source other : Text)
  {tokens all : Tokens} (hsub : tokens.Sublist all)
include hinj hsub

theorem Header.match?_relocate :
    Option.Rel (MovedWith place (Header.Alike place source other all))
      (Header.match? source tokens)
      (Header.match? other (tokens.map (·.relocate place))) := by
  obtain ⟨back, hback⟩ := exists_map_relocate hinj
  have haccepts : ∀ source, Accepts (Header.Form source) (Header.match? source) :=
    fun source _ _ _ => Header.match?_eq_some_iff
  apply Accepts.relocate (haccepts source) (haccepts other)
  · intro consumed header hconsumed form
    obtain ⟨moved, hmoved, halike⟩ := form.relocate place other
    exact ⟨moved, hmoved, halike.mono (hconsumed.trans hsub)⟩
  · intro consumed moved form
    obtain ⟨header, hform, _⟩ := form.relocate back source
    rw [hback] at hform
    exact ⟨header, hform⟩

theorem StyleBlock.match?_relocate :
    Option.Rel (MovedWith place (StyleBlock.Alike place source other all))
      (StyleBlock.match? source tokens)
      (StyleBlock.match? other (tokens.map (·.relocate place))) := by
  obtain ⟨back, hback⟩ := exists_map_relocate hinj
  have haccepts : ∀ source, Accepts (StyleBlock.Form source) (StyleBlock.match? source) :=
    fun source _ _ _ => StyleBlock.match?_eq_some_iff
  apply Accepts.relocate (haccepts source) (haccepts other)
  · intro consumed block hconsumed form
    obtain ⟨moved, hmoved, halike⟩ := form.relocate place other
    exact ⟨moved, hmoved, CutAlike.mono halike (hconsumed.trans hsub)⟩
  · intro consumed moved form
    obtain ⟨block, hform, _⟩ := form.relocate back source
    rw [hback] at hform
    exact ⟨block, hform⟩

theorem nextHeader_relocate :
    Option.Rel (MovedWith place (Header.Alike place source other all))
      (nextHeader source tokens) (nextHeader other (tokens.map (·.relocate place))) := by
  induction tokens with
  | nil => exact .none
  | cons token rest ih =>
      have hmatch := Header.match?_relocate hinj source other hsub
      rw [List.map_cons] at hmatch ⊢
      rw [nextHeader, nextHeader]
      generalize Header.match? source (token :: rest) = found at hmatch ⊢
      generalize Header.match? other (_ :: rest.map (·.relocate place)) = moved at hmatch ⊢
      cases hmatch with
      | some hsame => exact .some hsame
      | none => exact ih ((List.sublist_cons_self token rest).trans hsub)

theorem findStyle_relocate :
    MovedWith place (Option.Rel (StyleBlock.Alike place source other all))
      (findStyle source tokens) (findStyle other (tokens.map (·.relocate place))) := by
  induction tokens with
  | nil => exact ⟨.none, rfl⟩
  | cons token rest ih =>
      have hheader := Header.match?_relocate hinj source other hsub
      have hstyle := StyleBlock.match?_relocate hinj source other hsub
      rw [List.map_cons] at hheader hstyle ⊢
      rw [findStyle, findStyle]
      generalize Header.match? source (token :: rest) = found at hheader ⊢
      generalize Header.match? other (_ :: rest.map (·.relocate place)) = moved at hheader ⊢
      cases hheader with
      | some hsame => exact ⟨.none, rfl⟩
      | none =>
          generalize StyleBlock.match? source (token :: rest) = found at hstyle ⊢
          generalize StyleBlock.match? other (_ :: rest.map (·.relocate place)) = moved
            at hstyle ⊢
          cases hstyle with
          | some hsame => exact ⟨.some hsame.alike, hsame.rest⟩
          | none => exact ih ((List.sublist_cons_self token rest).trans hsub)

end Move

/-! ## The declarations of a source -/

/-- Sources with the same tokens at different places have declarations that are alike. -/
theorem declarationsFrom_alike {place : Span → Span} (hinj : Function.Injective place)
    {source : Text} (other : Text) {tokens all : Tokens} (hsub : tokens.Sublist all) :
    List.Forall₂ (Declaration.Alike place source other all) (declarationsFrom source tokens)
      (declarationsFrom other (tokens.map (·.relocate place))) := by
  induction tokens using scan_induction source with
  | none tokens hnone =>
      have hnext := nextHeader_relocate hinj source other hsub
      rw [hnone] at hnext
      rw [declarationsFrom_of_none hnone, declarationsFrom_of_none (eq_none_of_rel_none hnext)]
      exact .nil
  | list tokens header rest hlist ih =>
      have hnext := nextHeader_relocate hinj source other hsub
      rw [hlist] at hnext
      obtain ⟨moved, hmoved, halike⟩ := MovedWith.exists_of_some hnext
      cases halike with
      | list name span =>
          rw [declarationsFrom_of_list hlist, declarationsFrom_of_list hmoved]
          exact .cons (.list (.list name span))
            (ih ((suffix_of_nextHeader hlist).sublist.trans hsub))
  | shape tokens header rest block after hshape hstyle ih =>
      have hnext := nextHeader_relocate hinj source other hsub
      rw [hshape] at hnext
      obtain ⟨moved, hmoved, halike⟩ := MovedWith.exists_of_some hnext
      -- The search for a style block starts behind the same header and ends at the same token.
      have hrest := (suffix_of_nextHeader hshape).sublist.trans hsub
      obtain ⟨hblock, hafter⟩ := findStyle_relocate hinj source other hrest
      rw [hstyle] at hblock hafter
      have hsubAfter := (findStyle_suffix source rest).sublist
      rw [hstyle] at hsubAfter
      cases halike with
      | shape kind name params span =>
          rw [declarationsFrom_of_shape hshape hstyle, declarationsFrom_of_shape hmoved rfl, hafter]
          exact .cons (.shape (.shape kind name params span) hblock) (ih (hsubAfter.trans hrest))

/-- Declarations that are alike say the same, as long as no parameters and no style entries
differ. -/
theorem sameText_of_alike {place : Span → Span} {source other : Text} {tokens : Tokens}
    {found moved : List Declaration}
    (h : List.Forall₂ (Declaration.Alike place source other tokens) found moved)
    (hkept : ∀ candidate ∈ candidates found, candidate.KeptBy place source other tokens) :
    List.Forall₂ Declaration.SameText found moved := by
  induction h with
  | nil => exact .nil
  | cons halike _ ih =>
      cases halike with
      | list header =>
          cases header with
          | list name span => exact .cons (.list (by rw [name]; rfl)) (ih hkept)
      | @shape a b header block =>
          rw [candidates_shape, List.forall_mem_cons] at hkept
          cases header with
          | shape kind name params span =>
              have hname : a.name? = b.name? := by
                rw [Candidate.name?, Candidate.name?, name, Option.map_map]
                rfl
              exact .cons (.shape ⟨by rw [kind]; rfl, hname, hkept.1.params _ params,
                hkept.1.map_read block⟩) (ih hkept.2)

/-- Sources with the same tokens at different places declare the same, as long as no parameters and
no style entries differ. -/
theorem declarationsFrom_relocate {place : Span → Span} (hinj : Function.Injective place)
    {source other : Text} {tokens all : Tokens} (hsub : tokens.Sublist all)
    (hkept : ∀ candidate ∈ candidates (declarationsFrom source tokens),
      candidate.KeptBy place source other all) :
    List.Forall₂ Declaration.SameText (declarationsFrom source tokens)
      (declarationsFrom other (tokens.map (·.relocate place))) :=
  sameText_of_alike (declarationsFrom_alike hinj other hsub) hkept

/-! ## Text behind other text -/

theorem Span.shift_injective (size : Nat) : Function.Injective (Span.shift · size) := by
  intro a b h
  obtain ⟨aStart, aStop, _⟩ := a
  obtain ⟨bStart, bStop, _⟩ := b
  simp only [shift, Span.mk.injEq] at h ⊢
  omega

/-- What is cut out behind a front is cut out alike without it. -/
theorem CutAlike.value_eq_of_shift {front text : Text} {tokens : Tokens} {a b : Spanned Text}
    (h : CutAlike (Span.shift · (Text.byteLength front)) text (front ++ text) tokens a b) :
    a.value = b.value := by
  obtain ⟨opening, closing, _⟩ := h
  have hstart : Text.byteLength [] ≤ opening.span.stop := Nat.zero_le _
  exact (Text.slice_insert hstart front text closing.span.start).symm

/-- Lines declare the same behind a front as they do on their own. -/
theorem declarations_behind (front text : Text) :
    List.Forall₂ Declaration.SameText (declarations text)
      (declarationsFrom (front ++ text) (structureTokens true (Text.byteLength front) text)) := by
  have htokens := structureTokens_shift true 0 (Text.byteLength front) text
  rw [Nat.zero_add, ← significantTokens_eq] at htokens
  rw [declarations, htokens]
  apply declarationsFrom_relocate (Span.shift_injective _) (.refl _)
  intro candidate _
  constructor
  · intro moved hcut
    exact hcut.value_eq_of_shift
  · intro block _ moved hcut
    rw [hcut.value_eq_of_shift]

end SceneScript
