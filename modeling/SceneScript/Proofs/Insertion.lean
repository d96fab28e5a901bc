import SceneScript.Proofs.Boundaries

/-! # Text inserted between tokens

White space at a token boundary, and lines of white space or comments between lines, leave the
tokens that carry structure as they are and move those behind the place to the right.
-/

namespace SceneScript

/-- The span after `size` bytes were inserted at `point`, where it does not stand around that
place. -/
def Span.movedFrom (point size : Nat) (span : Span) : Span :=
  if span.stop ≤ point then span else span.shift size

/-- The same value at another place. -/
def Spanned.relocate {α : Type} (place : Span → Span) (spanned : Spanned α) : Spanned α :=
  ⟨spanned.value, place spanned.span⟩

theorem Span.movedFrom_injective (point size : Nat) :
    Function.Injective (Span.movedFrom point size) := by
  intro a b h
  have hbounds := a.start_le_stop
  unfold movedFrom at h
  split at h
  next ha =>
    split at h
    next => exact h
    next hb =>
      have hstop := congrArg Span.stop h
      simp only [shift] at hstop
      omega
  next ha =>
    split at h
    next hb =>
      have hstop := congrArg Span.stop h
      simp only [shift] at hstop
      omega
    next hb =>
      obtain ⟨aStart, aStop, _⟩ := a
      obtain ⟨bStart, bStop, _⟩ := b
      simp only [shift, Span.mk.injEq] at h ⊢
      omega

/-- No token that carries structure stands around the place between `front` and `back`, and the
inserted text holds none and changes none. -/
structure Inserts (front inserted back : Text) : Prop where
  tokens : significantTokens (front ++ (inserted ++ back)) =
    (significantTokens (front ++ back)).map
      (·.relocate (Span.movedFrom (Text.byteLength front) (Text.byteLength inserted)))
  apart : ∀ token ∈ significantTokens (front ++ back),
    token.span.stop ≤ Text.byteLength front ∨ Text.byteLength front ≤ token.span.start

section Kept

variable {lineStart : Bool} {offset : Nat} {text : Text} {token : Spanned Token}

theorem structureTokens_shift (lineStart : Bool) (offset size : Nat) (text : Text) :
    structureTokens lineStart (offset + size) text =
      (structureTokens lineStart offset text).map (·.shift size) := by
  rw [structureTokens, keptTokens, lexFrom_shift, List.filter_map]
  rfl

theorem span_of_mem_structureTokens (h : token ∈ structureTokens lineStart offset text) :
    offset ≤ token.span.start ∧ token.span.start < token.span.stop ∧
      token.span.stop ≤ offset + Text.byteLength text := by
  have hmem := (List.mem_filter.mp h).1
  have hspan := span_of_mem_lexFrom hmem
  exact ⟨hspan.1, nonempty_of_mem_lexFrom hmem, hspan.2⟩

end Kept

/-- It is enough that the tokens on both sides of the place are the same with and without the
inserted text. -/
theorem inserts_of_structureTokens {front inserted back : Text} {after : Bool}
    (h : significantTokens (front ++ back) = structureTokens true 0 front ++
      structureTokens after (Text.byteLength front) back)
    (hinserted : significantTokens (front ++ (inserted ++ back)) =
      structureTokens true 0 front ++
        structureTokens after (Text.byteLength front + Text.byteLength inserted) back) :
    Inserts front inserted back where
  tokens := by
    have hfront : ∀ token ∈ structureTokens true 0 front, token.relocate
        (Span.movedFrom (Text.byteLength front) (Text.byteLength inserted)) = token := by
      intro token hmem
      have hspan := span_of_mem_structureTokens hmem
      rw [Spanned.relocate, Span.movedFrom, if_pos (by omega)]
    have hback : ∀ token ∈ structureTokens after (Text.byteLength front) back, token.relocate
        (Span.movedFrom (Text.byteLength front) (Text.byteLength inserted)) =
          token.shift (Text.byteLength inserted) := by
      intro token hmem
      have hspan := span_of_mem_structureTokens hmem
      rw [Spanned.relocate, Span.movedFrom, if_neg (by omega)]
      rfl
    rw [hinserted, h, List.map_append, List.map_congr_left hfront, List.map_id',
      List.map_congr_left hback, structureTokens_shift]
  apart := by
    intro token hmem
    rw [h, List.mem_append] at hmem
    rcases hmem with hfront | hback
    · have hspan := span_of_mem_structureTokens hfront
      exact .inl (by omega)
    · exact .inr (span_of_mem_structureTokens hback).1

/-! ## Lines between lines -/

/-- The text ends where a line begins. -/
def EndsLine (text : Text) : Prop :=
  text = [] ∨ ∃ lines, text = lines ++ ['\n']

theorem structureTokens_append_newline (offset : Nat) (lines : Text) :
    structureTokens true offset (lines ++ ['\n']) = structureTokens true offset lines := by
  rw [structureTokens, keptTokens_append_newline rfl, keptTokens_nil, List.append_nil,
    structureTokens]

/-- Where a line begins, what follows is read as a text of its own. -/
theorem lexFrom_append_of_endsLine {front : Text} (h : EndsLine front) (offset : Nat)
    (back : Text) :
    lexFrom true offset (front ++ back) =
      lexFrom true offset front ++ lexFrom true (offset + Text.byteLength front) back := by
  rcases h with rfl | ⟨lines, rfl⟩
  · rw [lexFrom_nil]
    rfl
  · have hstop : offset + Text.byteLength (lines ++ ['\n']) =
        offset + Text.byteLength lines + 1 := by
      rw [Text.byteLength_append, ← Nat.add_assoc]
      rfl
    rw [List.append_assoc, List.singleton_append, lexFrom_append_newline, lexFrom_append_newline,
      lexFrom_nil, hstop, List.append_assoc, List.singleton_append]

theorem structureTokens_append_of_endsLine {front : Text} (h : EndsLine front) (offset : Nat)
    (back : Text) :
    structureTokens true offset (front ++ back) =
      structureTokens true offset front ++
        structureTokens true (offset + Text.byteLength front) back := by
  rw [structureTokens, keptTokens, lexFrom_append_of_endsLine h, List.filter_append]
  rfl

/-- A line without structure can be inserted between two lines. -/
theorem inserts_line {front line : Text} (hfront : EndsLine front)
    (hline : structureTokens true (Text.byteLength front) line = []) (back : Text) :
    Inserts front (line ++ ['\n']) back := by
  have hends : EndsLine (line ++ ['\n']) := .inr ⟨line, rfl⟩
  have h : significantTokens (front ++ back) = structureTokens true 0 front ++
      structureTokens true (Text.byteLength front) back := by
    rw [significantTokens_eq, structureTokens_append_of_endsLine hfront, Nat.zero_add]
  apply inserts_of_structureTokens h
  rw [significantTokens_eq, structureTokens_append_of_endsLine hfront, Nat.zero_add,
    structureTokens_append_of_endsLine hends, structureTokens_append_newline, hline,
    List.nil_append]

theorem structureTokens_spacing {gap : Text} (hgap : IsSpacing gap) (lineStart : Bool)
    (offset : Nat) (rest : Text) :
    structureTokens lineStart offset (gap ++ rest) =
      structureTokens lineStart (offset + Text.byteLength gap) rest :=
  keptTokens_spaces rfl hgap lineStart offset rest

theorem inserts_blankLine {front gap : Text} (hfront : EndsLine front) (hgap : IsSpacing gap)
    (back : Text) : Inserts front (gap ++ ['\n']) back := by
  apply inserts_line hfront
  rw [← List.append_nil gap, structureTokens_spacing hgap, structureTokens, keptTokens_nil]

theorem inserts_commentLine {front gap body : Text} (hfront : EndsLine front)
    (hgap : IsSpacing gap) (hbody : '\n' ∉ body) (back : Text) :
    Inserts front ((gap ++ '/' :: '/' :: body) ++ ['\n']) back := by
  apply inserts_line hfront
  rw [structureTokens_spacing hgap, structureTokens, keptTokens, lexFrom_comment hbody]
  rfl

/-! ## White space between two tokens -/

section Spacing

variable {c : Char} {rest gap back : Text}

/-- White space behind a quote without a partner gives it none. -/
theorem Lexeme.quoted?_append_spacing (hgap : IsSpacing gap)
    (inside : ∀ found ∈ quoted? c (rest ++ back), found.tail ≤ rest.length) :
    quoted? c (rest ++ (gap ++ back)) = quoted? c rest := by
  rw [← quoted?_of_append inside]
  cases hfound : quoted? c (rest ++ back) with
  | some found =>
      rw [quoted?_of_append inside] at hfound
      exact quoted?_append hfound _
  | none =>
      by_cases hquote : isQuote c
      · have hskip : ∀ d ∈ gap, (d ≠ c && d ≠ '\n') = true := by
          intro d hmem
          have hd := List.all_eq_true.mp hgap d hmem
          rw [Bool.and_eq_true] at hd
          have hne : d ≠ c := by
            rintro rfl
            rw [isBlank_of_isQuote hquote] at hd
            cases hd.1
          rw [Bool.and_eq_true, decide_eq_true_eq]
          exact ⟨hne, hd.2⟩
        -- The same character ends the search with and without the white space.
        have hhead : ((rest ++ (gap ++ back)).dropWhile fun d => d ≠ c && d ≠ '\n').head? =
            ((rest ++ back).dropWhile fun d => d ≠ c && d ≠ '\n').head? := by
          rw [List.dropWhile_append, List.dropWhile_append_of_pos hskip, List.dropWhile_append]
          cases rest.dropWhile fun d => d ≠ c && d ≠ '\n' with
          | nil => rfl
          | cons d tail => rfl
        simp only [quoted?, if_pos hquote, drop_length_takeWhile] at hfound ⊢
        rw [hhead]
        split at hfound
        next => cases hfound
        next hclose => rw [if_neg hclose]
      · rw [quoted?, if_neg hquote]

theorem Lexeme.comment?_append_of_mem (h : '\n' ∈ rest) (more : Text) :
    comment? c (rest ++ more) = comment? c rest := by
  obtain ⟨line, later, rfl⟩ := List.append_of_mem h
  rw [List.append_assoc, List.cons_append, comment?_append_newline, comment?_append_newline]

theorem Lexeme.comment?_append_blank {d : Char} (hd : isBlank d) (more : Text)
    (hrest : ¬ ∃ body, c = '/' ∧ rest = '/' :: body ∧ '\n' ∉ body) :
    comment? c (rest ++ d :: more) = comment? c rest := by
  cases hfound : comment? c rest with
  | none =>
      have hslash : d ≠ '/' := by
        rintro rfl
        cases hd
      exact comment?_append_of_ne hslash hfound more
  | some found =>
      obtain ⟨hc, body, rfl⟩ := slashes_of_comment? hfound
      have hline : '\n' ∈ body := by
        by_contra hnone
        exact hrest ⟨body, hc, rfl, hnone⟩
      rw [comment?_append_of_mem (List.mem_cons_of_mem _ hline), hfound]

/-- White space between two tokens changes neither, but for a comment at the end of its line, which
then takes it. -/
theorem lexeme_append_spacing {lineStart : Bool} (hblank : isBlank c = false)
    (hgap : IsSpacing gap) (inside : (lexeme lineStart c (rest ++ back)).tail ≤ rest.length) :
    lexeme lineStart c (rest ++ (gap ++ back)) = lexeme lineStart c rest ∨
      ∃ body, lineStart ∧ c = '/' ∧ rest = '/' :: body ∧ '\n' ∉ body := by
  by_cases hexcept : ∃ body, lineStart ∧ c = '/' ∧ rest = '/' :: body ∧ '\n' ∉ body
  · exact .inr hexcept
  · refine .inl ?_
    cases hcons : gap with
    | nil => rw [List.nil_append, lexeme_of_append inside]
    | cons d tail =>
        have hd : isBlank d := by
          have hall := List.all_eq_true.mp hgap.all_isBlank
          exact hall d (hcons ▸ List.mem_cons_self)
        rw [List.cons_append]
        apply lexeme_append_stop (isRunChar_of_isBreak (by simp [isBreak, hd]))
        · simp [hblank]
        · rw [← List.cons_append, ← hcons]
          apply Lexeme.quoted?_append_spacing hgap
          intro found hfound
          have hquote : Lexeme.isQuote c := (Lexeme.quoted?_eq_some hfound).1
          rwa [lexeme_of_isQuote hquote, hfound] at inside
        · intro hstart
          apply Lexeme.comment?_append_blank hd
          rintro ⟨body, hbody⟩
          exact hexcept ⟨body, hstart, hbody⟩

end Spacing

theorem structureTokens_cons {lineStart : Bool} {c : Char} {rest more : Text} {found : Lexeme}
    (reads : lexeme lineStart c (rest ++ more) = found) (inside : found.tail ≤ rest.length)
    (offset : Nat) :
    structureTokens lineStart offset (c :: rest ++ more) =
      List.filter (fun token => !token.value.isTrivia)
          [⟨found.token, .ofText offset (c :: rest.take found.tail)⟩] ++
        structureTokens (found.token.lineStartAfter lineStart)
          (offset + Text.byteLength (c :: rest.take found.tail))
          (rest.drop found.tail ++ more) := by
  rw [List.cons_append, structureTokens, keptTokens, lexFrom_cons reads, ← List.singleton_append,
    List.filter_append, List.take_append_of_le_length inside,
    List.drop_append_of_le_length inside]
  rfl

/-- A comment is skipped up to the end of its line. -/
theorem structureTokens_slashes (offset : Nat) (rest : Text) :
    structureTokens true offset ('/' :: '/' :: rest) =
      structureTokens false
        (offset + Text.byteLength ('/' :: '/' :: rest.takeWhile (· ≠ '\n')))
        (rest.dropWhile (· ≠ '\n')) := by
  rw [structureTokens, keptTokens, lexFrom_cons (lexeme_slashes rest),
    List.filter_cons_of_neg (by simp [Token.isTrivia])]
  simp only [List.take_succ_cons, List.drop_succ_cons, take_length_takeWhile,
    drop_length_takeWhile]
  rfl

section Comment

variable {body back : Text} (hbody : '\n' ∉ body)
include hbody

/-- A comment that ends where the text does is the last token on its line. -/
theorem lexeme_comment_within
    (inside : (lexeme true '/' ('/' :: body ++ back)).tail ≤ ('/' :: body).length) :
    back.takeWhile (· ≠ '\n') = [] ∧
      lexeme true '/' ('/' :: body ++ back) = ⟨.comment body, body.length + 1⟩ := by
  rw [List.cons_append, lexeme_slashes, List.length_cons,
    takeWhile_append_of_line hbody] at inside
  have hback : back.takeWhile (· ≠ '\n') = [] := by
    simp only [List.length_append] at inside
    exact List.eq_nil_of_length_eq_zero (by omega)
  refine ⟨hback, ?_⟩
  rw [List.cons_append, lexeme_slashes, takeWhile_append_of_line hbody, hback, List.append_nil]

theorem structureTokens_comment (hback : back.takeWhile (· ≠ '\n') = []) (offset : Nat) :
    structureTokens true offset ('/' :: '/' :: (body ++ back)) =
      structureTokens false (offset + Text.byteLength ('/' :: '/' :: body)) back := by
  have hdrop := List.takeWhile_append_dropWhile (p := (· ≠ '\n')) (l := body ++ back)
  rw [takeWhile_append_of_line hbody, hback, List.append_nil] at hdrop
  rw [structureTokens_slashes, takeWhile_append_of_line hbody, hback, List.append_nil,
    List.append_cancel_left hdrop]

/-- White space at the end of a comment makes it longer. -/
theorem structureTokens_comment_spacing {gap : Text} (hgap : IsSpacing gap)
    (hback : back.takeWhile (· ≠ '\n') = []) (offset : Nat) :
    structureTokens true offset ('/' :: '/' :: body ++ (gap ++ back)) =
      structureTokens true offset ('/' :: '/' :: body) ++
        structureTokens false
          (offset + Text.byteLength ('/' :: '/' :: body) + Text.byteLength gap) back := by
  have hline : '\n' ∉ body ++ gap := by
    rw [List.mem_append, not_or]
    exact ⟨hbody, hgap.newline_not_mem⟩
  have halone : structureTokens true offset ('/' :: '/' :: body) = [] := by
    rw [structureTokens, keptTokens, lexFrom_comment hbody]
    rfl
  have hboth := structureTokens_comment hline hback offset
  rw [List.append_assoc] at hboth
  rw [List.cons_append, List.cons_append, hboth, halone, List.nil_append, Nat.add_assoc,
    ← Text.byteLength_append]
  rfl

end Comment

/-- White space in front of a text is skipped as far as the text alone tells. -/
theorem structureTokens_append_of_space {lineStart : Bool} {c : Char} {rest : Text} {found : Lexeme}
    (reads : lexeme lineStart c rest = found) (htoken : found.token = .space) (offset : Nat)
    (more : Text) :
    structureTokens lineStart offset (c :: rest ++ more) =
      structureTokens lineStart (offset + Text.byteLength (c :: rest.take found.tail))
        (rest.drop found.tail ++ more) := by
  have hspells := reads ▸ (lexeme_reads lineStart c rest).spells
  rw [htoken] at hspells
  have hspacing : IsSpacing (c :: rest.take found.tail) := hspells.2
  have hsplit : c :: rest = c :: rest.take found.tail ++ rest.drop found.tail := by
    rw [List.cons_append, List.take_append_drop]
  rw [hsplit, List.append_assoc, structureTokens_spacing hspacing]

/-- White space at a token boundary adds no token that carries structure. -/
theorem ReadsThrough.structureTokens_spacing {lineStart after : Bool} {front gap back : Text}
    (h : ReadsThrough lineStart front back after) (hgap : IsSpacing gap) (offset : Nat) :
    structureTokens lineStart offset (front ++ (gap ++ back)) =
      structureTokens lineStart offset front ++
        structureTokens after (offset + Text.byteLength front + Text.byteLength gap) back := by
  induction h generalizing offset with
  | done lineStart back =>
      rw [List.nil_append, SceneScript.structureTokens_spacing hgap, structureTokens,
        structureTokens, keptTokens_nil]
      rfl
  | @token lineStart after c rest back found reads inside later ih =>
      have hfront := ReadsThrough.lexeme_eq reads inside
      -- Forms look ahead, so each token has to be read anew in front of the gap. Where it is the
      -- same, the rest follows by induction.
      have hsame : lexeme lineStart c (rest ++ (gap ++ back)) = found →
          structureTokens lineStart offset (c :: rest ++ (gap ++ back)) =
            structureTokens lineStart offset (c :: rest) ++
              structureTokens after
                (offset + Text.byteLength (c :: rest) + Text.byteLength gap) back := by
        intro hfound
        have halone : lexeme lineStart c (rest ++ []) = found := by rwa [List.append_nil]
        have hcons := structureTokens_cons halone inside offset
        rw [List.append_nil, List.append_nil] at hcons
        rw [structureTokens_cons hfound inside, ih, hcons, byteLength_lexeme, List.append_assoc]
      by_cases hblank : isBlank c
      · by_cases hnewline : c = '\n'
        · subst hnewline
          apply hsame
          rw [← reads, lexeme_newline, lexeme_newline]
        · -- The white space takes that of the gap as well, and is skipped with and without it.
          have htoken : found.token = .space := by
            rw [← hfront, lexeme_space hblank hnewline]
          have hskip := structureTokens_append_of_space hfront htoken offset
          have halone := hskip []
          rw [List.append_nil, List.append_nil] at halone
          rw [htoken, Token.lineStartAfter] at ih
          rw [hskip, ih, halone, byteLength_lexeme]
      · rcases lexeme_append_spacing (Bool.of_not_eq_true hblank) hgap (by rwa [reads]) with
          hkept | ⟨body, rfl, rfl, rfl, hbody⟩
        · exact hsame (hkept.trans hfront)
        · obtain ⟨hback, hfound⟩ := lexeme_comment_within hbody (by rwa [reads])
          obtain rfl := reads.symm.trans hfound
          have hafter : ReadsThrough false [] back after := by
            simpa [Token.lineStartAfter] using later
          cases hafter
          exact structureTokens_comment_spacing hbody hgap hback offset

/-- The last token ends where the text does. -/
theorem stop_of_lexFrom_concat {lineStart : Bool} {offset : Nat} {text : Text}
    {earlier : List (Spanned Token)} {token : Spanned Token}
    (h : lexFrom lineStart offset text = earlier ++ [token]) :
    token.span.stop = offset + Text.byteLength text := by
  obtain ⟨front, spelling, back, before, rfl, _, _, _, hspan, hback⟩ := exists_spelling h
  have hnil : back = [] := by
    cases back with
    | nil => rfl
    | cons c rest =>
        rw [lexFrom_cons rfl] at hback
        cases hback
  rw [hspan, hnil, List.append_nil, Text.byteLength_append, ← Nat.add_assoc]
  rfl

/-- The start of a source and the ends of its tokens. -/
def IsBoundary (source : Text) (point : Nat) : Prop :=
  point = 0 ∨ ∃ token ∈ tokenize source, token.span.stop = point

theorem readsThrough_of_isBoundary {front back : Text}
    (h : IsBoundary (front ++ back) (Text.byteLength front)) :
    ∃ after, ReadsThrough true front back after := by
  rcases h with hzero | ⟨token, hmem, hstop⟩
  · have hnil : front = [] := by
      cases front with
      | nil => rfl
      | cons c rest =>
          have hsize := c.utf8Size_pos
          rw [Text.byteLength_cons] at hzero
          omega
    rw [hnil]
    exact ⟨true, .done true back⟩
  · obtain ⟨earlier, later, htokens⟩ := List.append_of_mem hmem
    rw [List.append_cons] at htokens
    obtain ⟨first, second, after, hsource, hreads, hfirst, _⟩ := exists_readsThrough htokens
    have hlength := stop_of_lexFrom_concat hfirst
    rw [hstop, Nat.zero_add] at hlength
    have hfront : front = first := by
      rw [← Text.takeBytes_byteLength front back, hsource, hlength, Text.takeBytes_byteLength]
    rw [hfront, List.append_cancel_left_eq] at hsource
    rw [hfront, hsource]
    exact ⟨after, hreads⟩

theorem inserts_spacing {front gap back : Text}
    (hfront : IsBoundary (front ++ back) (Text.byteLength front)) (hgap : IsSpacing gap) :
    Inserts front gap back := by
  obtain ⟨after, hreads⟩ := readsThrough_of_isBoundary hfront
  have hnil : IsSpacing [] := rfl
  have hnone := hreads.structureTokens_spacing hnil 0
  have hboth := hreads.structureTokens_spacing hgap 0
  rw [Nat.zero_add] at hnone hboth
  exact inserts_of_structureTokens hnone hboth

end SceneScript
