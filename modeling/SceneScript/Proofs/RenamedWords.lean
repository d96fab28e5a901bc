import SceneScript.Proofs.Insertion
import SceneScript.Proofs.Tiling

/-! # Words that are renamed

A word can stand only behind white space, punctuation or a quote, since anything else in front of it
would take it in. None of these looks ahead into the word, so another word can be put in its place:
the tokens in front of it stay as they are, and those behind it move.
-/

namespace SceneScript

/-! ## What stands in front of a word -/

section Front

variable {lineStart : Bool} {c d : Char} {rest back : Text}

theorem length_takeWhile_append_ne {p : Char → Bool} (hd : p d) :
    ((rest ++ d :: back).takeWhile p).length ≠ rest.length := by
  rw [List.takeWhile_append]
  split
  next hall =>
    rw [List.takeWhile_cons_of_pos hd, List.length_append, List.length_cons]
    omega
  next hstop => exact hstop

/-- A number does not end in front of a word. -/
theorem Lexeme.number?_tail_ne (hd : isWordStart d) {found : Lexeme}
    (h : number? c (rest ++ d :: back) = some found) : found.tail ≠ rest.length := by
  intro htail
  have hends := number?_endsBefore h
  obtain ⟨length, _, rfl⟩ := Option.map_eq_some_iff.mp h
  rw [htail, List.drop_left] at hends
  have hword : isWordChar d = false := hends
  rw [isWordChar_of_isWordStart hd] at hword
  cases hword

/-- A comment does not end in front of a word. -/
theorem Lexeme.comment?_tail_ne (hd : isWordStart d) {found : Lexeme}
    (h : comment? c (rest ++ d :: back) = some found) : found.tail ≠ rest.length := by
  have hslash : d ≠ '/' := ne_of_isWordChar (isWordChar_of_isWordStart hd) (by decide)
  have hnewline : d ≠ '\n' := ne_of_isWordChar (isWordChar_of_isWordStart hd) (by decide)
  cases rest with
  | nil =>
      obtain ⟨_, body, hbody⟩ := slashes_of_comment? h
      exact absurd (List.cons.inj hbody).1 hslash
  | cons first body =>
      obtain ⟨_, hfound⟩ := Option.ite_none_right_eq_some.mp h
      rw [← Option.some.inj hfound, List.length_cons]
      exact fun htail => length_takeWhile_append_ne (by simpa using hnewline) (Nat.succ.inj htail)

/-- A quoted token ends with the quote that it begins with. -/
theorem Lexeme.getLast?_of_quoted? {found : Lexeme} (h : quoted? c (rest ++ back) = some found)
    (htail : found.tail = rest.length) : (c :: rest).getLast? = some c := by
  obtain ⟨_, content, more, hsplit, _, _, rfl⟩ := quoted?_eq_some h
  have hrest : rest = content ++ [c] := by
    rw [List.append_cons content] at hsplit
    exact (List.append_inj hsplit (by rw [List.length_append]; exact htail.symm)).1
  rw [hrest, ← List.cons_append, List.getLast?_concat]

/-- A token that ends in front of a word ends with a break or with a quote. -/
theorem isRunChar_of_lexeme (hd : isWordStart d)
    (htail : (lexeme lineStart c (rest ++ d :: back)).tail = rest.length) :
    ∀ last ∈ (c :: rest).getLast?, Lexeme.isRunChar last = false := by
  have hword := isWordChar_of_isWordStart hd
  have hrun := isRunChar_of_isWordChar hword
  have halone : Lexeme.isRunChar c = false → rest = [] →
      ∀ last ∈ (c :: rest).getLast?, Lexeme.isRunChar last = false := by
    rintro hc rfl last hlast
    rwa [← Option.some.inj hlast]
  rcases character_cases c with hbreak | hquote | hstart | ⟨hc, hstart⟩
  · have hc := isRunChar_of_isBreak hbreak
    by_cases hblank : isBlank c
    · by_cases hnewline : c = '\n'
      · subst hnewline
        rw [lexeme_newline] at htail
        exact halone hc (List.length_eq_zero_iff.mp htail.symm)
      · have hstop : (isBlank d && d ≠ '\n') = false := by
          rw [isBlank_of_isWordChar hword, Bool.false_and]
        rw [lexeme_space hblank hnewline,
          takeWhile_append_cons (p := fun d => isBlank d && d ≠ '\n') hstop] at htail
        have hall := List.takeWhile_eq_self_iff.mp
          (List.takeWhile_sublist _ |>.eq_of_length htail)
        intro last hlast
        rcases List.mem_cons.mp (List.mem_of_getLast? hlast) with rfl | hmem
        · exact hc
        · obtain ⟨hlastBlank, _⟩ := Bool.and_eq_true_iff.mp (hall last hmem)
          exact isRunChar_of_isBreak (by simp [isBreak, hlastBlank])
    · rw [isBreak, Bool.of_not_eq_true hblank, Bool.false_or] at hbreak
      obtain ⟨token, htoken⟩ := Option.isSome_iff_exists.mp hbreak
      rw [lexeme_punctuation htoken] at htail
      exact halone hc (List.length_eq_zero_iff.mp htail.symm)
  · have hc := isRunChar_of_isQuote hquote
    rw [lexeme_of_isQuote hquote] at htail
    cases hfound : Lexeme.quoted? c (rest ++ d :: back) with
    | none =>
        rw [hfound] at htail
        exact halone hc (List.length_eq_zero_iff.mp htail.symm)
    | some found =>
        rw [hfound] at htail
        rw [Lexeme.getLast?_of_quoted? hfound htail]
        intro last hlast
        rwa [← Option.some.inj hlast]
  · rw [lexeme_of_isWordStart hstart] at htail
    exact absurd htail (length_takeWhile_append_ne hword)
  · rw [lexeme_of_isRunChar hc hstart] at htail
    cases hcomment : if lineStart then Lexeme.comment? c (rest ++ d :: back) else none with
    | some found =>
        rw [hcomment] at htail
        obtain ⟨_, hfound⟩ := Option.ite_none_right_eq_some.mp hcomment
        exact absurd htail (Lexeme.comment?_tail_ne hd hfound)
    | none =>
        cases hnumber : Lexeme.number? c (rest ++ d :: back) with
        | some found =>
            rw [hcomment, hnumber] at htail
            exact absurd htail (Lexeme.number?_tail_ne hd hnumber)
        | none =>
            rw [hcomment, hnumber] at htail
            exact absurd htail (length_takeWhile_append_ne hrun)

end Front

/-! ## Another word in the place of a word -/

section Renaming

variable {lineStart : Bool} {c : Char} {rest word other back : Text}

theorem exists_cons_of_isIdentifier (h : Text.isIdentifier word) :
    ∃ d tail, word = d :: tail ∧ isWordStart d := by
  cases word with
  | nil => cases h
  | cons d tail => exact ⟨d, tail, rfl, (Bool.and_eq_true_iff.mp h).1⟩

theorem takeWhile_append_word {p : Char → Bool} (hp : ∀ d, isWordStart d → p d = false)
    (hword : Text.isIdentifier word) : (rest ++ (word ++ back)).takeWhile p = rest.takeWhile p := by
  obtain ⟨d, tail, rfl, hd⟩ := exists_cons_of_isIdentifier hword
  exact takeWhile_append_cons (hp d hd) rest (tail ++ back)

/-- Neither a quote nor a newline is in a word, so a quote looks past it. -/
theorem Lexeme.quoted?_rename (hword : Text.isIdentifier word) (hother : Text.isIdentifier other)
    (inside : ∀ found ∈ quoted? c (rest ++ (word ++ back)), found.tail ≤ rest.length) :
    quoted? c (rest ++ (other ++ back)) = quoted? c (rest ++ (word ++ back)) := by
  by_cases hquote : isQuote c
  · have hskip : ∀ {middle : Text}, Text.isIdentifier middle →
        ∀ d ∈ middle, (d ≠ c && d ≠ '\n') = true := by
      intro middle hmiddle d hmem
      have hd := List.all_eq_true.mp (Text.all_isWordChar_of_isIdentifier hmiddle).2 d hmem
      have hne : d ≠ c := by
        rintro rfl
        rw [isQuote_of_isWordChar hd] at hquote
        cases hquote
      have hnewline : d ≠ '\n' := ne_of_isWordChar hd (by decide)
      simp [hne, hnewline]
    cases hfound : quoted? c (rest ++ (word ++ back)) with
    | some found =>
        rw [quoted?_of_append inside] at hfound
        exact quoted?_append hfound _
    | none =>
        -- The same character ends the search behind either word.
        have hhead : ((rest ++ (other ++ back)).dropWhile fun d => d ≠ c && d ≠ '\n').head? =
            ((rest ++ (word ++ back)).dropWhile fun d => d ≠ c && d ≠ '\n').head? := by
          rw [List.dropWhile_append, List.dropWhile_append_of_pos (hskip hother),
            List.dropWhile_append, List.dropWhile_append_of_pos (hskip hword)]
          cases rest.dropWhile fun d => d ≠ c && d ≠ '\n' with
          | nil => rfl
          | cons d tail => rfl
        simp only [quoted?, if_pos hquote, drop_length_takeWhile] at hfound ⊢
        rw [hhead]
        split at hfound
        next => cases hfound
        next hclose => rw [if_neg hclose]
  · rw [quoted?, if_neg hquote, quoted?, if_neg hquote]

/-- A comment ends with its line, so it does not look into a word that it does not take in. -/
theorem Lexeme.comment?_rename (hword : Text.isIdentifier word) (hother : Text.isIdentifier other)
    (inside : ∀ found ∈ comment? c (rest ++ (word ++ back)), found.tail ≤ rest.length) :
    comment? c (rest ++ (other ++ back)) = comment? c (rest ++ (word ++ back)) := by
  obtain ⟨d, tail, rfl, hd⟩ := exists_cons_of_isIdentifier hword
  obtain ⟨e, more, rfl, he⟩ := exists_cons_of_isIdentifier hother
  have hsame := comment?_of_append inside
  cases hfound : comment? c rest with
  | none =>
      have hslash : e ≠ '/' := ne_of_isWordChar (isWordChar_of_isWordStart he) (by decide)
      rw [hsame, hfound, List.cons_append, comment?_append_of_ne hslash hfound]
  | some found =>
      have hline : '\n' ∈ rest := by
        by_contra hnone
        obtain ⟨_, body, rfl⟩ := slashes_of_comment? hfound
        have htake : body.takeWhile (· ≠ '\n') = body := by
          refine List.takeWhile_eq_self_iff.mpr fun d hmem => ?_
          simpa using fun heq : d = '\n' => hnone (heq ▸ List.mem_cons_of_mem _ hmem)
        apply comment?_tail_ne hd (hsame.trans hfound)
        rw [← Option.some.inj (Option.ite_none_right_eq_some.mp hfound).2, htake]
        rfl
      rw [comment?_append_of_mem hline, comment?_append_of_mem hline]

/-- Behind a break or a quote, a word may be replaced by another one. -/
theorem lexeme_rename (hword : Text.isIdentifier word) (hother : Text.isIdentifier other)
    (hlast : ∀ last ∈ (c :: rest).getLast?, Lexeme.isRunChar last = false)
    (inside : (lexeme lineStart c (rest ++ (word ++ back))).tail ≤ rest.length) :
    lexeme lineStart c (rest ++ (other ++ back)) = lexeme lineStart c (rest ++ (word ++ back)) := by
  have hbefore : Lexeme.isRunChar c →
      ∃ front last, rest = front ++ [last] ∧ Lexeme.isRunChar last = false := by
    intro hc
    rcases List.eq_nil_or_concat rest with rfl | ⟨front, last, rfl⟩
    · rw [hlast c rfl] at hc
      cases hc
    · rw [List.concat_eq_append] at hlast ⊢
      exact ⟨front, last, rfl, hlast last (by rw [← List.cons_append, List.getLast?_concat]; rfl)⟩
  rcases character_cases c with hbreak | hquote | hstart | ⟨hc, hstart⟩
  · by_cases hblank : isBlank c
    · by_cases hnewline : c = '\n'
      · rw [hnewline, lexeme_newline, lexeme_newline]
      · have hstop : ∀ d, isWordStart d → (isBlank d && d ≠ '\n') = false := by
          intro d hd
          rw [isBlank_of_isWordChar (isWordChar_of_isWordStart hd), Bool.false_and]
        rw [lexeme_space hblank hnewline, lexeme_space hblank hnewline,
          takeWhile_append_word hstop hword, takeWhile_append_word hstop hother]
    · rw [isBreak, Bool.of_not_eq_true hblank, Bool.false_or] at hbreak
      obtain ⟨token, htoken⟩ := Option.isSome_iff_exists.mp hbreak
      rw [lexeme_punctuation htoken, lexeme_punctuation htoken]
  · rw [lexeme_of_isQuote hquote] at inside
    rw [lexeme_of_isQuote hquote, lexeme_of_isQuote hquote, Lexeme.quoted?_rename hword hother]
    intro found hfound
    rwa [hfound] at inside
  · obtain ⟨front, last, hrest, hstop⟩ := hbefore (isRunChar_of_isWordChar
      (isWordChar_of_isWordStart hstart))
    rw [lexeme_of_isWordStart hstart, lexeme_of_isWordStart hstart, hrest, List.append_assoc,
      List.append_assoc, List.singleton_append, List.singleton_append,
      takeWhile_append_cons (isWordChar_of_isRunChar hstop),
      takeWhile_append_cons (isWordChar_of_isRunChar hstop)]
  · obtain ⟨front, last, hrest, hstop⟩ := hbefore hc
    rw [lexeme_of_isRunChar hc hstart] at inside
    have hcomment : (if lineStart then Lexeme.comment? c (rest ++ (other ++ back)) else none) =
        if lineStart then Lexeme.comment? c (rest ++ (word ++ back)) else none := by
      cases lineStart with
      | false => rfl
      | true =>
          rw [if_pos rfl, if_pos rfl]
          apply Lexeme.comment?_rename hword hother
          intro found hfound
          rwa [if_pos rfl, hfound] at inside
    rw [lexeme_of_isRunChar hc hstart, lexeme_of_isRunChar hc hstart, hcomment, hrest,
      List.append_assoc, List.append_assoc, List.singleton_append, List.singleton_append,
      Lexeme.number?_append_stop hstop, Lexeme.number?_append_stop hstop,
      takeWhile_append_cons hstop, takeWhile_append_cons hstop]

end Renaming

/-- Behind a text whose tokens end in front of a word, the word may be replaced by another one. -/
theorem ReadsThrough.getLast? {lineStart after : Bool} {front back : Text} {d : Char}
    (hd : isWordStart d) (h : ReadsThrough lineStart front (d :: back) after) :
    ∀ last ∈ front.getLast?, Lexeme.isRunChar last = false := by
  generalize hmore : d :: back = more at h
  induction h with
  | done => exact nofun
  | @token lineStart after c rest more found reads inside later ih =>
      subst hmore
      by_cases hend : found.tail = rest.length
      · exact isRunChar_of_lexeme hd (by rw [reads, hend])
      · have hdrop : (rest.drop found.tail).getLast? = (c :: rest).getLast? := by
          rw [List.getLast?_drop, if_neg (by omega), List.getLast?_cons_of_ne_nil]
          rintro rfl
          exact hend (Nat.le_zero.mp inside)
        rw [← hdrop]
        exact ih rfl

theorem ReadsThrough.rename {lineStart after : Bool} {front word other back : Text}
    (hword : Text.isIdentifier word) (hother : Text.isIdentifier other)
    (h : ReadsThrough lineStart front (word ++ back) after) :
    ReadsThrough lineStart front (other ++ back) after := by
  generalize hmore : word ++ back = more at h
  induction h with
  | done lineStart => exact .done lineStart _
  | @token lineStart after c rest more found reads inside later ih =>
      subst hmore
      have hlast : ∀ last ∈ (c :: rest).getLast?, Lexeme.isRunChar last = false := by
        obtain ⟨d, tail, rfl, hd⟩ := exists_cons_of_isIdentifier hword
        exact ReadsThrough.getLast? hd (.token reads inside later)
      have hrename := lexeme_rename hword hother hlast (by rwa [reads])
      exact .token (hrename.trans reads) inside (ih rfl)

/-- A word ends in front of any character that is not in words. -/
theorem lexesAs_word_of_head {word back : Text} (h : Text.isIdentifier word)
    (hback : back.head?.any isWordChar = false) : LexesAs word (Token.ofWord word) back := by
  have hstop : back.takeWhile isWordChar = [] := by
    cases back with
    | nil => rfl
    | cons d more => exact List.takeWhile_cons_of_neg (by simpa using hback)
  cases word with
  | nil => cases h
  | cons c tail =>
      obtain ⟨hstart, htail⟩ := Bool.and_eq_true_iff.mp h
      refine lexesAs_of_lexeme (fun lineStart => ?_) (isTrivia_ofWord _)
      rw [lexeme_of_isWordStart hstart,
        List.takeWhile_append_of_pos (List.all_eq_true.mp htail), hstop, List.append_nil]

/-- An identifier token takes all that could belong to the word. -/
theorem head?_of_lexFrom {lineStart : Bool} {offset : Nat} {word back : Text} {span : Span}
    {later : Tokens} (hword : word ≠ [])
    (h : lexFrom lineStart offset (word ++ back) = ⟨.identifier word, span⟩ :: later) :
    back.head?.any isWordChar = false := by
  obtain ⟨c, tail, hcons⟩ := List.exists_cons_of_ne_nil hword
  have hreads := lexeme_reads lineStart c (tail ++ back)
  have hends := lexeme_endsBefore lineStart c (tail ++ back)
  rw [hcons, List.cons_append, lexFrom_cons rfl] at h
  have htoken : (lexeme lineStart c (tail ++ back)).token = .identifier (c :: tail) :=
    congrArg Spanned.value (List.cons.inj h).1
  rw [htoken] at hends
  have hspells := hreads.spells
  rw [htoken] at hspells
  have hlength := congrArg List.length hspells.1
  rw [List.length_cons, List.length_cons, List.length_take_of_le hreads.tail_le] at hlength
  rwa [Nat.succ.inj hlength, List.drop_left] at hends

/-- An identifier in a source may be renamed: the tokens in front of it stay, and those behind it
are those of the text behind it. -/
theorem exists_renamed {source word : Text} {span : Span} {before after : Tokens}
    (h : significantTokens source = before ++ ⟨.identifier word, span⟩ :: after) :
    ∃ front back, source = front ++ (word ++ back) ∧ span = .ofText (Text.byteLength front) word ∧
      after = (structureTokens false 0 back).map (·.shift span.stop) ∧
      ∀ other, Text.isIdentifier other → significantTokens (front ++ (other ++ back)) =
        before ++ ⟨Token.ofWord other, .ofText (Text.byteLength front) other⟩ ::
          (structureTokens false 0 back).map
            (·.shift (Text.byteLength front + Text.byteLength other)) := by
  obtain ⟨earlier, rest, htokens, hbefore, hrest⟩ := List.filter_eq_append_iff.mp h
  obtain ⟨skipped, later, rfl, hskipped, _, hlater⟩ := List.filter_eq_cons_iff.mp hrest
  have hfilter : (earlier ++ skipped).filter (fun token => !token.value.isTrivia) = before := by
    rw [List.filter_append, hbefore, List.filter_eq_nil_iff.mpr hskipped, List.append_nil]
  rw [← List.append_assoc, tokenize] at htokens
  obtain ⟨front, _, back, lineStart, rfl, hreads, hfront, ⟨rfl, hword, hidentifier⟩, hspan,
    hback⟩ := exists_spelling htokens
  rw [Nat.zero_add] at hspan
  have hmiddle := hreads.lexFrom_append 0
  rw [htokens, hfront, List.append_cancel_left_eq] at hmiddle
  have hhead := head?_of_lexFrom (Text.all_isWordChar_of_isIdentifier hword).1 hmiddle.symm
  have htext : ∀ offset, structureTokens false offset back =
      (structureTokens false 0 back).map (·.shift offset) := by
    intro offset
    rw [← structureTokens_shift, Nat.zero_add]
  refine ⟨front, back, rfl, hspan, ?_, fun other hother => ?_⟩
  · rw [← htext, ← hlater, structureTokens, keptTokens, ← hback]
    rfl
  · rw [← htext, significantTokens, tokenize, (hreads.rename hword hother).lexFrom_append 0,
      lexesAs_word_of_head hother hhead, hfront, List.filter_append, hfilter,
      List.filter_cons_of_pos (by rw [isTrivia_ofWord]; rfl), Nat.zero_add]
    rfl

end SceneScript
