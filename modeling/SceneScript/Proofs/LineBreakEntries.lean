import SceneScript.Document.Basic
import SceneScript.Document.Style
import SceneScript.Proofs.LineBreakTokens
import SceneScript.Proofs.Literals
import SceneScript.Proofs.WrittenStyle

/-! # Entries of a text with other line breaks

Keys and values are trimmed, so the carriage returns that are left in them stand inside. A number
has no line break, and a quoted text or a style value keeps those that it has.
-/

namespace SceneScript

/-! ## Entries with other keys and values -/

/-- Writing commutes with an injective change of the keys. -/
theorem putEntry_map {α β : Type} {f : Text → Text} (hf : Function.Injective f) (g : α → β)
    (key : Text) (value : α) (pairs : List (Text × α)) :
    putEntry (f key) (g value) (pairs.map (Prod.map f g)) =
      (putEntry key value pairs).map (Prod.map f g) := by
  induction pairs with
  | nil => rfl
  | cons pair rest ih =>
      rw [List.map_cons, Prod.map, putEntry, putEntry, ih]
      by_cases h : pair.1 = key
      · rw [if_pos (congrArg f h), if_pos h]
        rfl
      · rw [if_neg fun heq => h (hf heq), if_neg h]
        rfl

namespace Entries

variable {α β : Type}

/-- The entries with the images of their keys and values. Where two keys have the same image, the
value of the later one counts. -/
def bimap (f : Text → Text) (g : α → β) (entries : Entries α) : Entries β :=
  .ofList (entries.toList.map (Prod.map f g))

section Injective

variable {f : Text → Text} (hf : Function.Injective f) (g : α → β)
include hf

theorem toList_ofList_map (pairs : List (Text × α)) :
    (ofList (pairs.map (Prod.map f g))).toList = (ofList pairs).toList.map (Prod.map f g) := by
  suffices hfold : ∀ (entries : Entries α) (images : Entries β),
      images.toList = entries.toList.map (Prod.map f g) →
        ((pairs.map (Prod.map f g)).foldl (fun entries pair => entries.insert pair.1 pair.2)
          images).toList =
        (pairs.foldl (fun entries pair => entries.insert pair.1 pair.2) entries).toList.map
          (Prod.map f g) from hfold empty empty rfl
  induction pairs with
  | nil => exact fun entries images h => h
  | cons pair rest ih =>
      intro entries images h
      apply ih
      change putEntry (f pair.1) (g pair.2) images.toList =
        (putEntry pair.1 pair.2 entries.toList).map (Prod.map f g)
      rw [h, putEntry_map hf]

theorem toList_bimap (entries : Entries α) :
    (entries.bimap f g).toList = entries.toList.map (Prod.map f g) := by
  rw [bimap, toList_ofList_map hf, ofList_toList]

theorem ofList_map (pairs : List (Text × α)) :
    ofList (pairs.map (Prod.map f g)) = (ofList pairs).bimap f g := by
  apply Entries.ext
  rw [toList_ofList_map hf, toList_bimap hf]

/-- Keys and values can be changed back. -/
theorem bimap_leftInverse {f' : Text → Text} {g' : β → α} (hkey : Function.LeftInverse f' f)
    (hvalue : Function.LeftInverse g' g) (entries : Entries α) :
    (entries.bimap f g).bimap f' g' = entries := by
  have hid : Prod.map f' g' ∘ Prod.map f g = id := by
    rw [Prod.map_comp_map, hkey.comp_eq_id, hvalue.comp_eq_id, Prod.map_id]
  rw [bimap, toList_bimap hf, List.map_map, hid, List.map_id, ofList_toList]

end Injective

theorem map_leftInverse {f : α → β} {g : β → α} (h : Function.LeftInverse g f) (entries : Entries α) :
    (entries.map f).map g = entries := by
  apply Entries.ext
  have hid : (fun entry : Text × β => (entry.1, g entry.2)) ∘ (fun entry : Text × α =>
      (entry.1, f entry.2)) = id := by
    funext entry
    simp [h entry.2]
  change (entries.toList.map _).map _ = entries.toList
  rw [List.map_map, hid, List.map_id]

theorem map_insert (f : α → β) (entries : Entries α) (key : Text) (value : α) :
    (entries.insert key value).map f = (entries.map f).insert key (f value) :=
  Entries.ext (putEntry_map Function.injective_id f key value entries.toList).symm

end Entries

/-! ## Values -/

/-- The value with the image of its content, where it is a quoted text. -/
def Value.mapContent (f : Text → Text) : Value → Value
  | .text content => .text (f content)
  | value => value

theorem Value.mapContent_leftInverse {f g : Text → Text} (h : Function.LeftInverse g f) :
    Function.LeftInverse (mapContent g) (mapContent f) := by
  intro value
  cases value with
  | text content => rw [mapContent, mapContent, h content]
  | _ => rfl

namespace Text

theorem isIdentifier_crlf (text : Text) : isIdentifier (crlf text) = isIdentifier text := by
  cases text with
  | nil => rfl
  | cons c rest =>
      by_cases h : c = '\n'
      · subst h
        have hreturn : isWordStart '\r' = false := by decide
        have hnewline : isWordStart '\n' = false := by decide
        rw [crlf_newline, isIdentifier, isIdentifier, hreturn, hnewline, Bool.false_and,
          Bool.false_and]
      · rw [crlf_cons h, isIdentifier, isIdentifier, all_crlf (by decide)]

theorem isDigits_crlf (text : Text) : Decimal.isDigits (crlf text) = Decimal.isDigits text := by
  have hempty : (crlf text).isEmpty = text.isEmpty := by
    rw [Bool.eq_iff_iff, List.isEmpty_iff, List.isEmpty_iff, crlf_eq_nil_iff]
  rw [Decimal.isDigits, Decimal.isDigits, hempty, all_crlf rfl]

theorem crlf_of_isDigits {digits : Text} (h : Decimal.isDigits digits) : crlf digits = digits :=
  crlf_of_not_mem (Literal.not_mem_of_isDigits h rfl)

theorem crlf_of_isIdentifier {key : Text} (h : isIdentifier key) : crlf key = key :=
  crlf_of_not_mem (not_mem_of_isIdentifier h (by decide))

theorem cutSign_crlf (text : Text) :
    Decimal.cutSign (crlf text) = ((Decimal.cutSign text).1, crlf (Decimal.cutSign text).2) := by
  cases text with
  | nil => rfl
  | cons c rest =>
      by_cases h : c = '\n'
      · subst h
        rfl
      · rw [crlf_cons h, Decimal.cutSign, Decimal.cutSign]
        split
        next => rfl
        next => rw [crlf_cons h]

end Text

namespace Value

theorem readInteger?_crlf (text : Text) : readInteger? (Text.crlf text) = readInteger? text := by
  rw [readInteger?, readInteger?, Text.cutSign_crlf]
  by_cases h : Decimal.isDigits (Decimal.cutSign text).2
  · simp only [Text.crlf_of_isDigits h]
  · simp [Text.isDigits_crlf, h]

theorem readDecimal?_crlf (text : Text) : readDecimal? (Text.crlf text) = readDecimal? text := by
  rw [readDecimal?, readDecimal?, Text.cutSign_crlf]
  simp only [Text.cutAt_crlf (by decide : '.' ≠ '\r') (by decide)]
  cases Text.cutAt '.' (Decimal.cutSign text).2 with
  | none => rfl
  | some parts =>
      obtain ⟨whole, fraction⟩ := parts
      by_cases h : Decimal.isDigits whole ∧ Decimal.isDigits fraction
      · simp only [Option.map_some, Text.crlf_of_isDigits h.1, Text.crlf_of_isDigits h.2]
      · simp [Text.isDigits_crlf, h]

theorem readQuoted?_crlf (text : Text) :
    readQuoted? (Text.crlf text) = (readQuoted? text).map Text.crlf := by
  cases text with
  | nil => rfl
  | cons quote rest =>
      by_cases h : quote = '\n'
      · subst h
        rfl
      · rw [Text.crlf_cons h, readQuoted?, readQuoted?]
        by_cases hquote : quote = '"' ∨ quote = '\''
        · have hreturn : quote ≠ '\r' := by
            rintro rfl
            revert hquote
            decide
          rw [if_pos hquote, if_pos hquote, Text.cutAt_crlf hreturn h]
          cases Text.cutAt quote rest with
          | none => rfl
          | some parts =>
              obtain ⟨content, after⟩ := parts
              cases after with
              | nil => rfl
              | cons c more =>
                  have hmore : Text.crlf (c :: more) ≠ [] := by simp
                  obtain ⟨d, tail, htail⟩ := List.exists_cons_of_ne_nil hmore
                  simp only [Option.map_some, htail, Option.map_none]
        · rw [if_neg hquote, if_neg hquote, Option.map_none]

/-- Numbers are read as before, and a quoted text keeps its line breaks. -/
theorem read?_crlf (text : Text) : read? (Text.crlf text) = (read? text).map (mapContent Text.crlf) := by
  rw [read?, read?, readDecimal?_crlf, readInteger?_crlf, readQuoted?_crlf]
  cases readDecimal? text with
  | some x => rfl
  | none =>
      cases readInteger? text with
      | some n => rfl
      | none => cases readQuoted? text <;> rfl

end Value

/-! ## Style bodies -/

namespace Style

theorem readClause?_append_blank {gap : Text} (hgap : gap.all isBlank) (clause : Text) :
    readClause? (clause ++ gap) = readClause? clause := by
  have hcolon : ':' ∉ gap := Text.not_mem_of_all_isBlank hgap rfl
  rw [readClause?, readClause?, Text.cutAt_append hcolon]
  cases Text.cutAt ':' clause with
  | none => rfl
  | some parts => simp only [Option.map_some, Text.trim_append hgap]

theorem readClause?_crlf (clause : Text) :
    readClause? (Text.crlf clause) = (readClause? clause).map (Prod.map Text.crlf Text.crlf) := by
  rw [readClause?, readClause?, Text.cutAt_crlf (by decide) (by decide)]
  cases Text.cutAt ':' clause with
  | none => rfl
  | some parts =>
      simp only [Option.map_some, Text.trim_crlf, Text.crlf_eq_nil_iff]
      split <;> rfl

/-- White space behind the last clause is part of no entry. -/
theorem filterMap_readClause?_append_blank {gap : Text} (hgap : gap.all isBlank) (text : Text) :
    (Text.splitAt ';' (text ++ gap)).filterMap readClause? =
      (Text.splitAt ';' text).filterMap readClause? := by
  have hsemicolon : ';' ∉ gap := Text.not_mem_of_all_isBlank hgap rfl
  obtain ⟨front, last, htext, hlonger⟩ := Text.exists_splitAt_append hsemicolon text
  rw [htext, hlonger, List.filterMap_append, List.filterMap_append, List.filterMap_cons,
    List.filterMap_cons, readClause?_append_blank hgap]

/-- The lines that are kept behind the first one. -/
def keptLines (text : Text) : List Text :=
  (Text.splitAt '\n' text).filter fun line => !isCommentLine line

theorem keptLines_of_not_mem {line : Text} (h : '\n' ∉ line) :
    keptLines line = if isCommentLine line then [] else [line] := by
  rw [keptLines, Text.splitAt_of_not_mem h, List.filter_singleton]
  cases isCommentLine line <;> rfl

theorem keptLines_line {line : Text} (h : '\n' ∉ line) (rest : Text) :
    keptLines (line ++ '\n' :: rest) =
      (if isCommentLine line then [] else [line]) ++ keptLines rest := by
  rw [keptLines, Text.splitAt_append_cons h, List.filter_cons, keptLines]
  cases isCommentLine line <;> rfl

theorem dropCommentLines_line {line : Text} (h : '\n' ∉ line) (rest : Text) :
    dropCommentLines (line ++ '\n' :: rest) = Text.join '\n' (line :: keptLines rest) := by
  rw [dropCommentLines, Text.splitAt_append_cons h, keptLines]

/-- Where the last line is dropped, the carriage return of the line before it is left over. -/
theorem exists_join_keptLines (text : Text) :
    ∃ gap, gap.all isBlank ∧ ∀ first, '\n' ∉ first →
      Text.join '\n' ((first ++ ['\r']) :: keptLines (Text.crlf text)) =
        Text.crlf (Text.join '\n' (first :: keptLines text)) ++ gap := by
  induction text using Text.line_induction with
  | last line hline =>
      rw [Text.crlf_of_not_mem hline, keptLines_of_not_mem hline]
      by_cases hcomment : isCommentLine line
      · refine ⟨['\r'], rfl, fun first hfirst => ?_⟩
        rw [if_pos hcomment, Text.join, Text.join, Text.crlf_of_not_mem hfirst]
      · refine ⟨[], rfl, fun first hfirst => ?_⟩
        rw [if_neg hcomment, Text.join, Text.join, Text.join, Text.join, Text.crlf_line hfirst,
          Text.crlf_of_not_mem hline]
        simp
  | line line rest hline ih =>
      obtain ⟨gap, hgap, hrest⟩ := ih
      refine ⟨gap, hgap, fun first hfirst => ?_⟩
      have hreturn := not_mem_append_return hline
      rw [Text.crlf_line hline, List.append_cons line '\r', keptLines_line hreturn, keptLines_line hline,
        isCommentLine_append_blank rfl]
      by_cases hcomment : isCommentLine line
      · rw [if_pos hcomment, if_pos hcomment, List.nil_append, List.nil_append, hrest first hfirst]
      · rw [if_neg hcomment, if_neg hcomment, List.singleton_append, List.singleton_append,
          Text.join, Text.join, hrest line hline, Text.crlf_line hfirst]
        simp

theorem exists_dropCommentLines_crlf (body : Text) :
    ∃ gap, gap.all isBlank ∧
      dropCommentLines (Text.crlf body) = Text.crlf (dropCommentLines body) ++ gap := by
  induction body using Text.line_induction with
  | last line hline =>
      refine ⟨[], rfl, ?_⟩
      rw [Text.crlf_of_not_mem hline, dropCommentLines_of_not_mem hline,
        Text.crlf_of_not_mem hline, List.append_nil]
  | line line rest hline _ =>
      obtain ⟨gap, hgap, hrest⟩ := exists_join_keptLines rest
      have hreturn := not_mem_append_return hline
      refine ⟨gap, hgap, ?_⟩
      rw [Text.crlf_line hline, List.append_cons line '\r', dropCommentLines_line hreturn,
        dropCommentLines_line hline, hrest line hline]

/-- The entries of a style body keep the line breaks inside their keys and values. -/
theorem read_crlf (body : Text) :
    read (Text.crlf body) = (read body).bimap Text.crlf Text.crlf := by
  obtain ⟨gap, hgap, hbody⟩ := exists_dropCommentLines_crlf body
  rw [read, hbody, filterMap_readClause?_append_blank hgap,
    Text.splitAt_crlf (by decide) (by decide), List.filterMap_map, read,
    ← Entries.ofList_map Text.crlf_injective, List.map_filterMap]
  congr 2
  funext clause
  exact readClause?_crlf clause

end Style

/-! ## Documents -/

/-- The shape with the images of its quoted texts and of the keys and values of its style. -/
def Shape.mapContent (f : Text → Text) (shape : Shape) : Shape :=
  { shape with
    params := shape.params.map (Value.mapContent f)
    style := shape.style.bimap f f }

/-- The document with the images of all quoted texts and of all style entries. -/
def Document.mapContent (f : Text → Text) (document : Document) : Document :=
  { document with shapes := document.shapes.map (Shape.mapContent f) }

theorem Shape.mapContent_leftInverse {f g : Text → Text} (h : Function.LeftInverse g f) :
    Function.LeftInverse (mapContent g) (mapContent f) := by
  intro shape
  simp only [mapContent, Entries.map_leftInverse (Value.mapContent_leftInverse h),
    Entries.bimap_leftInverse h.injective f h h]

theorem Document.mapContent_leftInverse {f g : Text → Text} (h : Function.LeftInverse g f) :
    Function.LeftInverse (mapContent g) (mapContent f) := by
  intro document
  simp only [mapContent, List.map_map, (Shape.mapContent_leftInverse h).comp_eq_id, List.map_id]

end SceneScript
