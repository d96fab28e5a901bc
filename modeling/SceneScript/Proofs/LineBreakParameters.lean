import SceneScript.Proofs.FirstFault
import SceneScript.Proofs.LineBreakEntries
import SceneScript.Proofs.WrittenParameters

/-! # Parameters of a text with other line breaks

Pieces are cut at the same tokens. Behind a comment, a piece starts with the newline alone, because
the comment takes the carriage return in front of it; both are trimmed away with the white space.
-/

namespace SceneScript

/-! ## Texts and their places -/

/-- The text with carriage returns in it, at the place where they move it in the source. -/
def Spanned.crlf (source : Text) (spanned : Spanned Text) : Spanned Text :=
  ⟨Text.crlf spanned.value, spanned.span.crlf source⟩

@[simp] theorem Spanned.crlf_value (source : Text) (spanned : Spanned Text) :
    (spanned.crlf source).value = Text.crlf spanned.value := rfl

theorem Span.crlf_ofText (front text back : Text) :
    crlf (front ++ (text ++ back)) (.ofText (Text.byteLength front) text) =
      .ofText (Text.byteLength (Text.crlf front)) (Text.crlf text) := by
  simp only [crlf, ofText, Text.crlfOffset_byteLength, Text.crlfOffset_middle]

namespace Spanned

variable {source : Text}

theorem crlf_append (front text back : Text) :
    crlf (front ++ (text ++ back)) ⟨text, .ofText (Text.byteLength front) text⟩ =
      ⟨Text.crlf text, .ofText (Text.byteLength (Text.crlf front)) (Text.crlf text)⟩ := by
  rw [crlf, Span.crlf_ofText]

theorem slice_crlf {start stop : Nat} (h : source.Cuts start stop) :
    slice (Text.crlf source) (source.crlfOffset start) (source.crlfOffset stop) =
      (slice source start stop).crlf source := by
  obtain ⟨front, middle, back, rfl, rfl, rfl⟩ := h.exists_middle
  rw [Text.crlfOffset_byteLength, Text.crlfOffset_middle, Text.crlf_append, Text.crlf_append, slice_middle,
    slice_middle, crlf_append]

/-- A text in a text that stands in the source is moved together with that text. -/
theorem crlf_shift {inner outer : Spanned Text} (hinner : inner.StandsIn outer.value)
    (houter : outer.StandsIn source) :
    (inner.crlf outer.value).shift (source.crlfOffset outer.span.start) =
      (inner.shift outer.span.start).crlf source := by
  obtain ⟨front, back, hvalue, hspan⟩ := hinner
  obtain ⟨before, after, hsource, hplace⟩ := houter
  have hstart : source.crlfOffset outer.span.start = Text.byteLength (Text.crlf before) := by
    rw [hplace, hsource]
    exact Text.crlfOffset_byteLength before _
  have hinside : inner.span.crlf outer.value =
      .ofText (Text.byteLength (Text.crlf front)) (Text.crlf inner.value) := by
    rw [hspan, hvalue, Span.crlf_ofText]
  have houtside : (inner.span.shift outer.span.start).crlf source =
      .ofText (Text.byteLength (Text.crlf (before ++ front))) (Text.crlf inner.value) := by
    have hmiddle : source = before ++ front ++ (inner.value ++ (back ++ after)) := by
      rw [hsource, hvalue]
      simp only [List.append_assoc]
    have hfront : inner.span.shift outer.span.start =
        .ofText (Text.byteLength (before ++ front)) inner.value := by
      rw [hspan, hplace, Span.shift_ofText, Text.byteLength_append]
      rfl
    rw [hfront, hmiddle, Span.crlf_ofText]
  rw [crlf, crlf, shift, shift, hinside, houtside, hstart, Span.shift_ofText, Text.crlf_append,
    Text.byteLength_append]

end Spanned

theorem Text.placedTrim_crlf (text : Text) :
    (crlf text).placedTrim = text.placedTrim.crlf text := by
  obtain ⟨after, hafter⟩ := trim_prefix text
  have htext : text = text.takeWhile isBlank ++ (trim text ++ after) := by
    rw [hafter, takeWhile_append_trimStart]
  have hplace := Span.crlf_ofText (text.takeWhile isBlank) (trim text) after
  rw [← htext] at hplace
  rw [placedTrim, trim_crlf, leadingBlank, takeWhile_isBlank_crlf, ← hplace]
  rfl

/-! ## Violations -/

/-- The list header, at the place where carriage returns move it. -/
def ListHeader.crlf (source : Text) (header : ListHeader) : ListHeader :=
  ⟨header.name.relocate (Span.crlf source), header.span.crlf source⟩

/-- The shape header, at the place where carriage returns move it. -/
def ShapeHeader.crlf (source : Text) (header : ShapeHeader) : ShapeHeader where
  kind := header.kind.relocate (Span.crlf source)
  name := header.name.map (·.relocate (Span.crlf source))
  params := header.params.crlf source
  span := header.span.crlf source

/-- The violation of the same rule when carriage returns are added. -/
def Violation.crlf (source : Text) : Violation → Violation
  | missingList => missingList
  | noShapes => noShapes
  | missingStyle header => missingStyle (header.crlf source)
  | duplicateList header first => duplicateList (header.crlf source) (first.crlf source)
  | lowercaseList header => lowercaseList (header.crlf source)
  | fileNameMismatch header stem => fileNameMismatch (header.crlf source) stem
  | missingName header => missingName (header.crlf source)
  | reservedName header name => reservedName (header.crlf source) name
  | lowercaseName header name => lowercaseName (header.crlf source) name
  | duplicateName header name first =>
    duplicateName (header.crlf source) name (first.crlf source)
  | malformedParameter piece => malformedParameter (piece.crlf source)
  | invalidKey key => invalidKey (key.crlf source)
  | invalidValue key value => invalidValue key (value.crlf source)

/-! ## Pieces -/

namespace Piece

/-- Where a piece starts when carriage returns are added: at the place where its start is moved, or
behind the carriage return that a comment has taken. -/
inductive StartAlike (text : Text) : Nat → Nat → Prop where
  | same (start : Nat) : StartAlike text start (text.crlfOffset start)
  | comment (front back : Text) (place : text = front ++ '\n' :: back) :
    StartAlike text (Text.byteLength front) (Text.byteLength (Text.crlf front) + 1)

/-- The piece in the text with carriage returns that stands for a piece of the text. -/
structure CrlfAlike (text : Text) (piece moved : Piece) : Prop where
  start : StartAlike text piece.start moved.start
  stop : moved.stop = text.crlfOffset piece.stop
  colon : moved.colon = piece.colon.map (Span.crlf text)

section Cut

variable {text : Text}

/-- White space makes no piece. -/
theorem all_eq_visible (text : Text) :
    all text = cut (Text.byteLength text) 0 none (keptTokens Token.isVisible false 0 text) := by
  rw [all_eq, ← cut_filter _ _ _ (keptTokens Token.isVisible false 0 text), keptTokens, keptTokens,
    List.filter_filter]
  congr 1
  apply List.filter_congr
  intro token _
  cases token.value <;> rfl

/-- Behind a comment, the carriage return is left out of the next piece. -/
theorem StartAlike.of_comment {front body back : Text} (line : '\n' ∉ body)
    (place : text = front ++ ('/' :: '/' :: body ++ '\n' :: back)) :
    StartAlike text (Span.ofText (Text.byteLength front) ('/' :: '/' :: body)).stop
      (Span.ofText (Text.byteLength (Text.crlf front)) ('/' :: '/' :: body ++ ['\r'])).stop := by
  have hcomment : StartAlike text _ _ :=
    .comment (front ++ '/' :: '/' :: body) back (by rw [place, List.append_assoc])
  have hline : '\n' ∉ '/' :: '/' :: body := by simpa using line
  rw [Text.crlf_append, Text.crlf_of_not_mem hline, Text.byteLength_append, Text.byteLength_append,
    Nat.add_assoc (Text.byteLength (Text.crlf front))] at hcomment
  have hstop : (Span.ofText (Text.byteLength (Text.crlf front))
      ('/' :: '/' :: body ++ ['\r'])).stop =
      Text.byteLength (Text.crlf front) + (Text.byteLength ('/' :: '/' :: body) + 1) :=
    congrArg _ (Text.byteLength_append ('/' :: '/' :: body) ['\r'])
  rw [hstop]
  exact hcomment

/-- Cuts are made at the same tokens. -/
theorem cut_alike {tokens moved : Tokens} (h : List.Forall₂ (Token.CrlfAlike text) tokens moved)
    (stop : Nat) {start movedStart : Nat} (hstart : StartAlike text start movedStart)
    (colon : Option Span) :
    List.Forall₂ (CrlfAlike text) (cut stop start colon tokens)
      (cut (text.crlfOffset stop) movedStart (colon.map (Span.crlf text)) moved) := by
  induction h generalizing start movedStart colon with
  | nil => exact .cons ⟨hstart, rfl, rfl⟩ .nil
  | @cons token _ _ _ halike _ ih =>
      cases halike with
      | same =>
          have hvalue : (token.relocate (Span.crlf text)).value = token.value := rfl
          rw [cut, cut, hvalue]
          by_cases hseparator : token.value.isSeparator
          · rw [if_pos hseparator, if_pos hseparator]
            exact .cons ⟨hstart, rfl, rfl⟩ (ih (.same token.span.stop) none)
          · rw [if_neg hseparator, if_neg hseparator]
            by_cases hcolon : token.value = .colon
            · rw [if_pos hcolon, if_pos hcolon]
              have hnext := ih hstart (colon <|> some token.span)
              cases colon with
              | none => exact hnext
              | some first => exact hnext
            · rw [if_neg hcolon, if_neg hcolon]
              exact ih hstart colon
      | comment front body back line place =>
          have hfront := Text.crlfOffset_byteLength front ('/' :: '/' :: body ++ '\n' :: back)
          rw [← place] at hfront
          rw [cut, cut, if_pos (by rfl), if_pos (by rfl)]
          exact .cons ⟨hstart, hfront.symm, rfl⟩ (ih (.of_comment line place) none)

theorem all_alike (text : Text) :
    List.Forall₂ (CrlfAlike text) (all text) (all (Text.crlf text)) := by
  have htokens := keptTokens_crlf_alike [] text false
  have hcut := cut_alike htokens (Text.byteLength text) (.same 0) none
  have hstop := Text.crlfOffset_byteLength text []
  rw [List.append_nil] at hstop
  rw [List.nil_append, Text.crlfOffset_zero, hstop] at hcut
  rw [all_eq_visible, all_eq_visible]
  exact hcut

end Cut

/-! ## Trimmed texts -/

section Trimmed

variable {text : Text}

theorem trimmed_crlf {start stop : Nat} (h : text.Cuts start stop) :
    trimmed (Text.crlf text) (text.crlfOffset start) (text.crlfOffset stop) =
      (trimmed text start stop).crlf text := by
  have hslice : Text.slice (Text.crlf text) (text.crlfOffset start) (text.crlfOffset stop) =
      Text.crlf (Text.slice text start stop) := congrArg Spanned.value (Spanned.slice_crlf h)
  have hshift := Spanned.crlf_shift (Text.placedTrim_standsIn (Text.slice text start stop))
    (Spanned.standsIn_slice h)
  rw [trimmed_eq_shift, trimmed_eq_shift, ← hshift, hslice, Text.placedTrim_crlf]
  rfl

/-- White space in front makes no difference to what is left after trimming. -/
theorem trimmed_cons_blank {c : Char} (hc : isBlank c) (front middle back : Text) :
    trimmed (front ++ (c :: middle ++ back)) (Text.byteLength front + c.utf8Size)
        (Text.byteLength front + Text.byteLength (c :: middle)) =
      trimmed (front ++ (c :: middle ++ back)) (Text.byteLength front)
        (Text.byteLength front + Text.byteLength (c :: middle)) := by
  have hlonger := Text.slice_eq (rfl : front ++ (c :: middle ++ back) = _) rfl rfl
  have hshorter : Text.slice (front ++ (c :: middle ++ back))
      (Text.byteLength front + c.utf8Size)
      (Text.byteLength front + Text.byteLength (c :: middle)) = middle := by
    apply Text.slice_eq (List.append_cons front c (middle ++ back))
    · rw [Text.byteLength_append]
      rfl
    · rw [Text.byteLength_cons, Nat.add_assoc]
  have htrim : Text.trim (c :: middle) = Text.trim middle := by
    rw [Text.trim, Text.trimStart, List.dropWhile_cons_of_pos hc, Text.trim, Text.trimStart]
  have hblank : Text.leadingBlank (c :: middle) = c.utf8Size + Text.leadingBlank middle := by
    rw [Text.leadingBlank, List.takeWhile_cons_of_pos hc, Text.byteLength_cons, Text.leadingBlank]
  simp only [trimmed, hlonger, hshorter, htrim, hblank, Nat.add_assoc]

theorem StartAlike.trimmed {start moved stop : Nat} (h : StartAlike text start moved)
    (hcuts : text.Cuts start stop) :
    (trimmed (Text.crlf text) moved (text.crlfOffset stop)).value =
        Text.crlf (trimmed text start stop).value ∧
      ((trimmed text start stop).value ≠ [] →
        trimmed (Text.crlf text) moved (text.crlfOffset stop) =
          (trimmed text start stop).crlf text) := by
  cases h with
  | same =>
      rw [trimmed_crlf hcuts]
      exact ⟨rfl, fun _ => rfl⟩
  | comment front back place =>
      obtain ⟨other, middle, rest, hsplit, hfront, rfl⟩ := hcuts.exists_middle
      obtain ⟨rfl, hback⟩ := Text.eq_of_append_eq (place.symm.trans hsplit) hfront
      have hcrlf := trimmed_crlf hcuts
      rw [hsplit, Text.crlfOffset_byteLength, Text.crlfOffset_middle] at hcrlf
      rw [hsplit, Text.crlfOffset_middle]
      cases middle with
      | nil =>
          -- A piece that ends where the comment does is empty.
          have hempty : (Piece.trimmed (front ++ ([] ++ rest)) (Text.byteLength front)
              (Text.byteLength front + Text.byteLength [])).value = [] := trimmed_value rfl rfl rfl
          have hmoved : (Piece.trimmed (Text.crlf (front ++ ([] ++ rest)))
              (Text.byteLength (Text.crlf front) + 1)
              (Text.byteLength (Text.crlf front) + Text.byteLength (Text.crlf []))).value = [] :=
            congrArg Text.trim (Text.slice_eq_nil (Nat.le_succ _) _)
          exact ⟨by rw [hempty, hmoved, Text.crlf_nil], fun hne => absurd hempty hne⟩
      | cons c tail =>
          obtain ⟨rfl, rfl⟩ := List.cons.inj hback
          have hskip := trimmed_cons_blank (c := '\r') rfl (Text.crlf front)
            ('\n' :: Text.crlf tail) (Text.crlf rest)
          rw [Text.crlf_append, Text.crlf_append, Text.crlf_newline] at hcrlf ⊢
          rw [hcrlf] at hskip
          exact ⟨congrArg Spanned.value hskip, fun _ => hskip⟩

end Trimmed

/-! ## Reading pieces -/

section Read

variable {source : Text} {raw : Spanned Text} (hraw : raw.StandsIn source)
include hraw

/-- A piece is read as the same key with the same value, or is bad for the same reason at the place
where it is moved. -/
theorem read_crlf {piece moved : Piece} (h : CrlfAlike raw.value piece moved)
    (hfits : piece.Fits raw.value) :
    moved.read (Text.crlf raw.value) (source.crlfOffset raw.span.start) =
      ((piece.read raw.value raw.span.start).map
        (Option.map (Prod.map id (Value.mapContent Text.crlf)))).mapError
          (Violation.crlf source) := by
  obtain ⟨hvalue, hwhole⟩ := h.start.trimmed hfits.whole
  have hshift := Spanned.crlf_shift (trimmed_standsIn hfits.whole) hraw
  rw [read, read, h.stop, h.colon]
  dsimp only
  by_cases hblank : (trimmed raw.value piece.start piece.stop).value = []
  · rw [if_pos hblank, if_pos (by rw [hvalue, hblank, Text.crlf_nil])]
    rfl
  · rw [if_neg hblank, if_neg (by rwa [hvalue, Text.crlf_eq_nil_iff]), hwhole hblank, hshift]
    cases hcolon : piece.colon with
    | none => rfl
    | some colon =>
        obtain ⟨hkeyValue, hkey⟩ := h.start.trimmed (hfits.key colon hcolon)
        have hparsed := trimmed_crlf (hfits.value colon hcolon)
        have hkeyShift := Spanned.crlf_shift (trimmed_standsIn (hfits.key colon hcolon)) hraw
        have hvalueShift := Spanned.crlf_shift (trimmed_standsIn (hfits.value colon hcolon)) hraw
        dsimp only [Option.map_some, Span.crlf]
        by_cases hnoKey : (trimmed raw.value piece.start colon.start).value = []
        · rw [if_pos hnoKey, if_pos (by rw [hkeyValue, hnoKey, Text.crlf_nil])]
          rfl
        · rw [if_neg hnoKey, if_neg (by rwa [hkeyValue, Text.crlf_eq_nil_iff]), hkey hnoKey,
            hkeyShift, hparsed, hvalueShift, Spanned.crlf_value, Spanned.crlf_value,
            Text.isIdentifier_crlf, Value.read?_crlf]
          -- A key that is an identifier has no line break.
          by_cases hidentifier : Text.isIdentifier (trimmed raw.value piece.start colon.start).value
          · rw [hidentifier, Text.crlf_of_isIdentifier hidentifier]
            cases Value.read? (trimmed raw.value colon.stop piece.stop).value <;> rfl
          · rw [Bool.of_not_eq_true hidentifier]
            rfl

theorem fault?_crlf {piece moved : Piece} (h : CrlfAlike raw.value piece moved)
    (hfits : piece.Fits raw.value) :
    moved.fault? (Text.crlf raw.value) (source.crlfOffset raw.span.start) =
      (piece.fault? raw.value raw.span.start).map (Violation.crlf source) := by
  rw [fault?, fault?, read_crlf hraw h hfits]
  cases piece.read raw.value raw.span.start <;> rfl

theorem filterMap_fault?_crlf {pieces moved : List Piece}
    (h : List.Forall₂ (CrlfAlike raw.value) pieces moved)
    (hfits : ∀ piece ∈ pieces, piece.Fits raw.value) :
    moved.filterMap (fault? (Text.crlf raw.value) (source.crlfOffset raw.span.start)) =
      (pieces.filterMap (fault? raw.value raw.span.start)).map (Violation.crlf source) := by
  induction h with
  | nil => rfl
  | @cons piece _ _ _ halike _ ih =>
      obtain ⟨hpiece, hrest⟩ := List.forall_mem_cons.mp hfits
      rw [List.filterMap_cons, List.filterMap_cons, fault?_crlf hraw halike hpiece, ih hrest]
      cases piece.fault? raw.value raw.span.start <;> rfl

theorem readAll_crlf {pieces moved : List Piece}
    (h : List.Forall₂ (CrlfAlike raw.value) pieces moved)
    (hfits : ∀ piece ∈ pieces, piece.Fits raw.value) (entries : Entries Value) :
    readAll (Text.crlf raw.value) (source.crlfOffset raw.span.start)
        (entries.map (Value.mapContent Text.crlf)) moved =
      ((readAll raw.value raw.span.start entries pieces).map
        (Entries.map (Value.mapContent Text.crlf))).mapError (Violation.crlf source) := by
  induction h generalizing entries with
  | nil => rfl
  | @cons piece _ _ _ halike _ ih =>
      obtain ⟨hpiece, hrest⟩ := List.forall_mem_cons.mp hfits
      rw [readAll, readAll, read_crlf hraw halike hpiece]
      cases piece.read raw.value raw.span.start with
      | error violation => rfl
      | ok entry =>
          cases entry with
          | none => exact ih hrest entries
          | some pair =>
              have hnext := ih hrest (entries.insert pair.1 pair.2)
              rw [Entries.map_insert] at hnext
              exact hnext

end Read

end Piece

/-- The parameters of a header are the same apart from the line breaks in quoted texts. -/
theorem readParameters_crlf {source : Text} {raw : Spanned Text} (h : raw.StandsIn source) :
    readParameters (raw.crlf source) =
      ((readParameters raw).map (Entries.map (Value.mapContent Text.crlf))).mapError
        (Violation.crlf source) :=
  Piece.readAll_crlf h (Piece.all_alike raw.value) (fun _ => Piece.fits_of_mem_all) .empty

end SceneScript
