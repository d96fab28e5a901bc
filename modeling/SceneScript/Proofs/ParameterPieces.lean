import Mathlib.Data.List.Find
import Mathlib.Data.List.Induction
import SceneScript.Proofs.Places
import SceneScript.Proofs.SameText
import SceneScript.Proofs.WrittenParameters

/-! # Pieces of parameter text

Parameter text is cut in one pass, which carries the first colon of the piece it is in. Its outcome
can be said without the pass: the pieces are the stretches that the separators leave over, and the
colon of a piece is the first one among the tokens that lie in it.
-/

namespace SceneScript

/-! ## Stretches between separators -/

/-- The stretches that the tokens leave over between two offsets. -/
def Tokens.gaps (start stop : Nat) (tokens : Tokens) : List Span :=
  List.zipWith Span.between (start :: tokens.map (·.span.stop))
    (tokens.map (·.span.start) ++ [stop])

/-- The first colon among the tokens in a stretch. -/
def Tokens.colon? (stretch : Span) (tokens : Tokens) : Option Span :=
  ((Tokens.between stretch.start stretch.stop tokens).find? fun token =>
    token.value = .colon).map (·.span)

/-- The tokens at which parameter text is cut. -/
def separators (text : Text) : Tokens :=
  (tokenizeInline text).filter fun token => token.value.isSeparator

/-- The stretches of parameter text in front of, between and behind its separators. -/
def stretches (text : Text) : List Span :=
  Tokens.gaps 0 (Text.byteLength text) (separators text)

/-- The piece that a stretch of the text is. -/
def Piece.ofStretch (text : Text) (stretch : Span) : Piece :=
  ⟨stretch.start, stretch.stop, Tokens.colon? stretch (tokenizeInline text)⟩

theorem Tokens.gaps_nil (start stop : Nat) : Tokens.gaps start stop [] = [.between start stop] :=
  rfl

theorem Tokens.gaps_cons (start stop : Nat) (token : Spanned Token) (tokens : Tokens) :
    Tokens.gaps start stop (token :: tokens) =
      .between start token.span.start :: Tokens.gaps token.span.stop stop tokens :=
  rfl

/-- The colon that the pass carries in a piece from `start` on, when it has met the tokens. -/
def Tokens.carried? (start : Nat) (met : Tokens) : Option Span :=
  (met.find? fun token => start ≤ token.span.start && token.value = .colon).map (·.span)

section Cut

variable {start stop : Nat} {front back : Tokens}

theorem Span.between_start (start stop : Nat) : (Span.between start stop).start = start :=
  rfl

theorem Span.between_stop (h : start ≤ stop) : (Span.between start stop).stop = stop :=
  Nat.max_eq_right h

/-- Where a piece stops, the colon that is carried is the first one in the piece. -/
theorem Tokens.colon?_append (hle : start ≤ stop) (hfront : ∀ token ∈ front, token.span.stop ≤ stop)
    (hback : ∀ token ∈ back, stop < token.span.stop) :
    Tokens.colon? (.between start stop) (front ++ back) = Tokens.carried? start front := by
  have hbehind : Tokens.between start stop back = [] :=
    between_eq_nil fun token hmem => .inr (hback token hmem)
  have hinside : ∀ token ∈ front,
      decide ((start ≤ token.span.start && token.span.stop ≤ stop) = true ∧
        decide (token.value = .colon) = true) =
      (start ≤ token.span.start && token.value = .colon) := by
    intro token hmem
    simp [hfront token hmem]
  rw [colon?, carried?, Span.between_start, Span.between_stop hle, between_append, hbehind,
    List.append_nil, between, List.find?_filter, List.find?_congr hinside]

theorem Tokens.carried?_append (start : Nat) (front back : Tokens) :
    Tokens.carried? start (front ++ back) =
      (Tokens.carried? start front <|> Tokens.carried? start back) := by
  rw [carried?, List.find?_append, carried?, carried?]
  cases front.find? fun token => start ≤ token.span.start && token.value = .colon <;> rfl

theorem Tokens.carried?_singleton {token : Spanned Token} (h : start ≤ token.span.start) :
    Tokens.carried? start [token] = if token.value = .colon then some token.span else none := by
  by_cases hcolon : token.value = .colon <;> simp [carried?, h, hcolon]

/-- No colon is carried into the next piece. -/
theorem Tokens.carried?_eq_none (h : ∀ token ∈ front, token.span.start < start) :
    Tokens.carried? start front = none := by
  rw [carried?, Option.map_eq_none_iff, List.find?_eq_none]
  intro token hmem
  have hbefore := h token hmem
  simp only [Bool.and_eq_true, decide_eq_true_eq]
  omega

/-- The pass cuts the pieces that the stretches are. Its invariant is that it carries the first
colon among the tokens that it has met in the piece it is in. -/
theorem Piece.cut_eq_map_gaps (horder : Tokens.InOrder (front ++ back))
    (hstop : ∀ token ∈ front ++ back, token.span.stop ≤ stop) (hle : start ≤ stop)
    (hback : ∀ token ∈ back, start ≤ token.span.start) :
    cut stop start (Tokens.carried? start front) back =
      (Tokens.gaps start stop (back.filter fun token => token.value.isSeparator)).map fun stretch =>
        ⟨stretch.start, stretch.stop, Tokens.colon? stretch (front ++ back)⟩ := by
  induction back generalizing front start with
  | nil =>
      have hmet : ∀ token ∈ front, token.span.stop ≤ stop :=
        fun token hmem => hstop token (List.mem_append_left [] hmem)
      have hcolon : Tokens.colon? (.between start stop) (front ++ []) =
          Tokens.carried? start front :=
        Tokens.colon?_append hle hmet nofun
      rw [cut, List.filter_nil, Tokens.gaps_nil, List.map_singleton, hcolon, Span.between_stop hle]
      rfl
  | cons token rest ih =>
      obtain ⟨hbefore, htoken, hafter⟩ := horder.around
      obtain ⟨hfirst, hlater⟩ := List.forall_mem_cons.mp hback
      have hmem : token ∈ front ++ token :: rest := List.mem_append_right _ List.mem_cons_self
      -- The token is met: it moves to the front.
      have hnext {start : Nat} (hle : start ≤ stop)
          (hlater : ∀ later ∈ rest, start ≤ later.span.start) :=
        @ih start (front ++ [token]) (List.append_cons _ _ _ ▸ horder)
          (List.append_cons _ _ _ ▸ hstop) hle hlater
      rw [← List.append_cons] at hnext
      rw [cut, List.filter_cons]
      by_cases hseparator : token.value.isSeparator
      · have hnone : Tokens.carried? token.span.stop (front ++ [token]) = none := by
          apply Tokens.carried?_eq_none
          intro other hother
          rcases List.mem_append.mp hother with hother | hother
          · have hstart := other.span.start_le_stop
            have hend := hbefore other hother
            omega
          · rw [List.mem_singleton.mp hother]
            exact htoken
        have hcolon : Tokens.colon? (.between start token.span.start) (front ++ token :: rest) =
            Tokens.carried? start front := by
          refine Tokens.colon?_append hfirst hbefore (List.forall_mem_cons.mpr ⟨htoken, ?_⟩)
          intro later hmem
          have hstart := hafter later hmem
          have hend := later.span.start_le_stop
          omega
        have hpieces := hnext (hstop token hmem) hafter
        rw [hnone] at hpieces
        rw [if_pos hseparator, if_pos hseparator, Tokens.gaps_cons, List.map_cons, hcolon,
          Span.between_stop hfirst, hpieces]
        rfl
      · have hpieces := hnext hle hlater
        rw [Tokens.carried?_append, Tokens.carried?_singleton hfirst] at hpieces
        rw [if_neg hseparator, if_neg hseparator, ← hpieces]
        split
        next => rfl
        next => cases Tokens.carried? start front <;> rfl

end Cut

/-- The pieces of a parameter text are its stretches between separators. -/
theorem Piece.all_eq_map_stretches (text : Text) :
    Piece.all text = (stretches text).map (Piece.ofStretch text) := by
  have hstop : ∀ token ∈ [] ++ tokenizeInline text, token.span.stop ≤ Text.byteLength text := by
    intro token hmem
    have hspan := (span_of_mem_lexFrom hmem).2
    rwa [Nat.zero_add] at hspan
  exact Piece.cut_eq_map_gaps (lexFrom_inOrder false 0 text) hstop (Nat.zero_le _)
    fun token _ => Nat.zero_le _

/-- A blank piece has its stretch, and a quoted comma cuts nothing. -/
example : stretches ['a', ':', '1', ',', ' ', ',', 'b', ':', '\'', ',', '\''] =
    [⟨0, 3, by omega⟩, ⟨4, 5, by omega⟩, ⟨6, 11, by omega⟩] := by
  cbv

/-! ## Keys that are written again -/

theorem lookup_cons_eq_ite {α : Type} (pair : Text × α) (rest : List (Text × α)) (key : Text) :
    (pair :: rest).lookup key = if key = pair.1 then some pair.2 else rest.lookup key := by
  rw [List.lookup_cons]
  by_cases h : key = pair.1
  · rw [if_pos h, beq_iff_eq.mpr h]
  · rw [if_neg h, beq_eq_false_iff_ne.mpr h]

theorem lookup_putEntry {α : Type} (key : Text) (value : α) (pairs : List (Text × α))
    (other : Text) :
    (putEntry key value pairs).lookup other =
      if other = key then some value else pairs.lookup other := by
  induction pairs with
  | nil => rw [putEntry, lookup_cons_eq_ite]
  | cons pair rest ih =>
      rw [putEntry]
      split
      next hkey =>
        rw [lookup_cons_eq_ite, lookup_cons_eq_ite, hkey]
        split <;> rfl
      next hkey =>
        rw [lookup_cons_eq_ite, lookup_cons_eq_ite, ih]
        split
        next hother => rw [if_neg (hother ▸ hkey)]
        next => rfl

namespace Entries

variable {α : Type}

theorem ofList_append_singleton (pairs : List (Text × α)) (pair : Text × α) :
    ofList (pairs ++ [pair]) = (ofList pairs).insert pair.1 pair.2 := by
  rw [ofList, List.foldl_append]
  rfl

/-- The keys of written pairs are their distinct keys, in the order in which they come first. -/
theorem keys_ofList (pairs : List (Text × α)) :
    (ofList pairs).keys = (pairs.map Prod.fst).eraseDups := by
  induction pairs using List.reverseRecOn with
  | nil => rfl
  | append_singleton pairs pair ih =>
      have hkeys : ((ofList pairs).insert pair.1 pair.2).keys =
          if pair.1 ∈ (ofList pairs).keys then (ofList pairs).keys
          else (ofList pairs).keys ++ [pair.1] :=
        map_fst_putEntry pair.1 pair.2 (ofList pairs).toList
      rw [ofList_append_singleton, hkeys, ih, List.map_append, List.map_singleton,
        List.eraseDups_append]
      by_cases h : pair.1 ∈ pairs.map Prod.fst
      · rw [if_pos (List.mem_eraseDups.mpr h)]
        simp [List.removeAll, h]
      · rw [if_neg (mt List.mem_eraseDups.mp h)]
        simp [List.removeAll, h, List.eraseDups_cons]

/-- The value under a key is the one of the last pair with that key. -/
theorem get?_ofList (pairs : List (Text × α)) (key : Text) :
    (ofList pairs).get? key = pairs.reverse.lookup key := by
  induction pairs using List.reverseRecOn with
  | nil => rfl
  | append_singleton pairs pair ih =>
      have hget : ((ofList pairs).insert pair.1 pair.2).get? key =
          if key = pair.1 then some pair.2 else (ofList pairs).get? key :=
        lookup_putEntry pair.1 pair.2 (ofList pairs).toList key
      rw [ofList_append_singleton, hget, ih, List.reverse_append, List.reverse_singleton,
        List.singleton_append, lookup_cons_eq_ite]

end Entries

/-! ## What a stretch is read as -/

/-- The stretches that hold more than white space. -/
def visibleStretches (text : Text) : List Span :=
  (stretches text).filter fun stretch => !(Text.slice text stretch.start stretch.stop).all isBlank

/-- What stands between two offsets without white space around it, and its place. -/
def visiblePart (text : Text) (start stop : Nat) : Spanned Text :=
  (Text.slice text start stop).placedTrim.shift start

/-- What stands in front of a colon in a stretch, without white space around it. -/
def keyIn (text : Text) (stretch colon : Span) : Text :=
  Text.trim (Text.slice text stretch.start colon.start)

/-- What stands behind a colon in a stretch, without white space around it. -/
def valueIn (text : Text) (stretch colon : Span) : Text :=
  Text.trim (Text.slice text colon.stop stretch.stop)

/-- In front of the first colon of the stretch stands an identifier, and a value behind it. -/
def MakesEntry (text : Text) (stretch : Span) (entry : Text × Value) : Prop :=
  ∃ colon, Tokens.colon? stretch (tokenizeInline text) = some colon ∧
    entry.1 = keyIn text stretch colon ∧ Text.isIdentifier entry.1 ∧
      Value.read? (valueIn text stretch colon) = some entry.2

/-- What is wrong with a stretch that is no entry, with its code and the place of the text that is
to blame, in the parameter text. No colon, no key and a key that is no identifier make a malformed
parameter; the value is looked at last. -/
inductive Faulty (text : Text) (stretch : Span) : Violation → String → Span → Prop where
  | noColon (none : Tokens.colon? stretch (tokenizeInline text) = none) :
    Faulty text stretch (.malformedParameter (visiblePart text stretch.start stretch.stop))
      "E300" (visiblePart text stretch.start stretch.stop).span
  | noKey {colon : Span} (first : Tokens.colon? stretch (tokenizeInline text) = some colon)
      (empty : keyIn text stretch colon = []) :
    Faulty text stretch (.malformedParameter (visiblePart text stretch.start stretch.stop))
      "E300" (visiblePart text stretch.start stretch.stop).span
  | badKey {colon : Span} (first : Tokens.colon? stretch (tokenizeInline text) = some colon)
      (nonempty : keyIn text stretch colon ≠ [])
      (bad : ¬ Text.isIdentifier (keyIn text stretch colon)) :
    Faulty text stretch (.invalidKey (visiblePart text stretch.start colon.start))
      "E300" (visiblePart text stretch.start colon.start).span
  | badValue {colon : Span} (first : Tokens.colon? stretch (tokenizeInline text) = some colon)
      (key : Text.isIdentifier (keyIn text stretch colon))
      (bad : Value.read? (valueIn text stretch colon) = none) :
    Faulty text stretch
      (.invalidValue (keyIn text stretch colon) (visiblePart text colon.stop stretch.stop))
      "E301" (visiblePart text colon.stop stretch.stop).span

/-- The diagnostic with every label moved right by `offset` bytes. -/
def Diagnostic.shiftLabels (offset : Nat) (diagnostic : Diagnostic) : Diagnostic :=
  { diagnostic with
    labels := diagnostic.labels.map fun label =>
      { label with span := label.span.shift offset } }

/-- Moving the labels moves the places that are cited. -/
theorem Diagnostic.Cites.shiftLabels {diagnostic : Diagnostic} {written : String} {place : Span}
    {context : List Span} (h : diagnostic.Cites written place context) (offset : Nat) :
    (diagnostic.shiftLabels offset).Cites written (place.shift offset)
      (context.map (·.shift offset)) where
  severity := h.severity
  code := h.code
  places := by
    have hmoved := congrArg (List.map fun (span, isPrimary) => (Span.shift span offset, isPrimary))
      h.places
    rw [List.map_map, List.map_cons, List.map_map] at hmoved
    rw [Diagnostic.shiftLabels, List.map_map, List.map_map]
    exact hmoved

section Reading

variable {text : Text} {stretch : Span} {entry : Text × Value} {fault : Violation}
  {written : String} {place : Span}

theorem Faulty.cites (h : Faulty text stretch fault written place) :
    fault.diagnostic.Cites written place [] := by
  have hdescribes := fault.describes
  cases h <;> exact hdescribes.1

/-- A stretch is an entry, or something is wrong with it. -/
theorem makesEntry_or_faulty (text : Text) (stretch : Span) :
    (∃ entry, MakesEntry text stretch entry) ∨
      ∃ fault written place, Faulty text stretch fault written place := by
  cases hcolon : Tokens.colon? stretch (tokenizeInline text) with
  | none => exact .inr ⟨_, _, _, .noColon hcolon⟩
  | some colon =>
      by_cases hkey : Text.isIdentifier (keyIn text stretch colon)
      · cases hvalue : Value.read? (valueIn text stretch colon) with
        | none => exact .inr ⟨_, _, _, .badValue hcolon hkey hvalue⟩
        | some value => exact .inl ⟨(_, value), colon, hcolon, rfl, hkey, hvalue⟩
      · by_cases hempty : keyIn text stretch colon = []
        · exact .inr ⟨_, _, _, .noKey hcolon hempty⟩
        · exact .inr ⟨_, _, _, .badKey hcolon hempty hkey⟩

namespace Piece

section Visible

variable (hvisible : ¬ (Text.slice text stretch.start stretch.stop).all isBlank)
include hvisible

theorem trimmed_ne_nil : (trimmed text stretch.start stretch.stop).value ≠ [] :=
  mt (Text.trim_eq_nil_iff _).mp hvisible

theorem read_of_makesEntry (h : MakesEntry text stretch entry) (base : Nat) :
    read text base (ofStretch text stretch) = .ok (some entry) := by
  obtain ⟨colon, hcolon, hkey, hidentifier, hvalue⟩ := h
  have hne := (Text.all_isWordChar_of_isIdentifier hidentifier).1
  have htrimmed : (trimmed text stretch.start colon.start).value = entry.1 := hkey.symm
  have hread : Value.read? (trimmed text colon.stop stretch.stop).value = some entry.2 := hvalue
  simp only [read, ofStretch, trimmed_ne_nil hvisible, hcolon, htrimmed, hne, hidentifier, hread,
    if_false, Bool.not_true, Bool.false_eq_true]

/-- The place of the parameter text has a say in the places of the labels only. -/
theorem read_of_faulty (h : Faulty text stretch fault written place) (base : Nat) :
    ∃ violation, read text base (ofStretch text stretch) = .error violation ∧
      violation.diagnostic = fault.diagnostic.shiftLabels base := by
  have hwhole := trimmed_ne_nil hvisible
  have hpart (start stop : Nat) : visiblePart text start stop = trimmed text start stop :=
    (trimmed_eq_shift text start stop).symm
  cases h with
  | noColon hnone =>
      rw [hpart]
      refine ⟨.malformedParameter ((trimmed text stretch.start stretch.stop).shift base), ?_, rfl⟩
      simp only [read, ofStretch, hwhole, hnone, if_false]
  | @noKey colon hcolon hempty =>
      have hkey : (trimmed text stretch.start colon.start).value = [] := hempty
      rw [hpart]
      refine ⟨.malformedParameter ((trimmed text stretch.start stretch.stop).shift base), ?_, rfl⟩
      simp only [read, ofStretch, hwhole, hcolon, hkey, if_false, if_true]
  | @badKey colon hcolon hnonempty hbad =>
      have hkey : (trimmed text stretch.start colon.start).value = keyIn text stretch colon := rfl
      rw [hpart]
      refine ⟨.invalidKey ((trimmed text stretch.start colon.start).shift base), ?_, rfl⟩
      simp only [read, ofStretch, hwhole, hcolon, hkey, hnonempty, hbad, if_false, Bool.not_false,
        if_true]
  | @badValue colon hcolon hidentifier hbad =>
      have hkey : (trimmed text stretch.start colon.start).value = keyIn text stretch colon := rfl
      have hvalue : Value.read? (trimmed text colon.stop stretch.stop).value = none := hbad
      have hne := (Text.all_isWordChar_of_isIdentifier hidentifier).1
      rw [hpart]
      refine ⟨.invalidValue (keyIn text stretch colon)
        ((trimmed text colon.stop stretch.stop).shift base), ?_, rfl⟩
      simp only [read, ofStretch, hwhole, hcolon, hkey, hne, hidentifier, hvalue, if_false,
        Bool.not_true, Bool.false_eq_true]

end Visible

/-- Blank stretches are passed over. -/
theorem readAll_map_ofStretch (text : Text) (base : Nat) (entries : Entries Value)
    (list : List Span) :
    readAll text base entries (list.map (ofStretch text)) =
      readAll text base entries ((list.filter fun stretch =>
        !(Text.slice text stretch.start stretch.stop).all isBlank).map (ofStretch text)) := by
  induction list generalizing entries with
  | nil => rfl
  | cons stretch rest ih =>
      rw [List.map_cons, List.filter_cons, readAll]
      by_cases hblank : (Text.slice text stretch.start stretch.stop).all isBlank
      · have hread : read text base (ofStretch text stretch) = .ok none := read_of_blank hblank base
        rw [hread, hblank, Bool.not_true, if_neg Bool.false_ne_true]
        exact ih entries
      · rw [Bool.of_not_eq_true hblank, Bool.not_false, if_pos rfl, List.map_cons, readAll]
        cases read text base (ofStretch text stretch) with
        | error violation => rfl
        | ok entry =>
            cases entry with
            | none => exact ih entries
            | some pair => exact ih (entries.insert pair.1 pair.2)

/-- Stretches that are entries are written one after another. -/
theorem readAll_append_of_forall₂ {good : List Span} {pairs : List (Text × Value)}
    (h : List.Forall₂ (MakesEntry text) good pairs)
    (hvisible : ∀ stretch ∈ good, ¬ (Text.slice text stretch.start stretch.stop).all isBlank)
    (base : Nat) (entries : Entries Value) (rest : List Piece) :
    readAll text base entries (good.map (ofStretch text) ++ rest) =
      readAll text base
        (pairs.foldl (fun entries pair => entries.insert pair.1 pair.2) entries) rest := by
  induction h generalizing entries with
  | nil => rfl
  | cons hentry _ ih =>
      obtain ⟨hfirst, hlater⟩ := List.forall_mem_cons.mp hvisible
      rw [List.map_cons, List.cons_append, readAll, read_of_makesEntry hfirst hentry]
      exact ih hlater _

end Piece

end Reading

/-! ## All stretches -/

/-- What is wrong with the first visible stretch that is no entry, with its code and the place that
is to blame. -/
def FirstBadStretch (text : Text) (fault : Violation) (written : String) (place : Span) : Prop :=
  ∃ earlier bad later, visibleStretches text = earlier ++ bad :: later ∧
    (∀ stretch ∈ earlier, ∃ entry, MakesEntry text stretch entry) ∧
      Faulty text bad fault written place

theorem FirstBadStretch.cites {text : Text} {fault : Violation} {written : String} {place : Span}
    (h : FirstBadStretch text fault written place) : fault.diagnostic.Cites written place [] := by
  obtain ⟨_, _, _, _, _, hfaulty⟩ := h
  exact hfaulty.cites

/-- Where every member is related to something, the list is related to a list. -/
theorem exists_forall₂_of_forall {α β : Type} {R : α → β → Prop} {list : List α}
    (h : ∀ a ∈ list, ∃ b, R a b) : ∃ images, List.Forall₂ R list images := by
  induction list with
  | nil => exact ⟨[], .nil⟩
  | cons a rest ih =>
      obtain ⟨⟨b, hb⟩, hrest⟩ := List.forall_mem_cons.mp h
      obtain ⟨images, himages⟩ := ih hrest
      exact ⟨b :: images, .cons hb himages⟩

/-- All members have the property, or there is a first one that has not. -/
theorem forall_or_exists_first {α : Type} (P : α → Prop) (list : List α) :
    (∀ a ∈ list, P a) ∨ ∃ earlier bad later, list = earlier ++ bad :: later ∧
      (∀ a ∈ earlier, P a) ∧ ¬ P bad := by
  induction list with
  | nil => exact .inl nofun
  | cons a rest ih =>
      by_cases ha : P a
      · rcases ih with hall | ⟨earlier, bad, later, rfl, hgood, hbad⟩
        · exact .inl (List.forall_mem_cons.mpr ⟨ha, hall⟩)
        · exact .inr ⟨a :: earlier, bad, later, rfl, List.forall_mem_cons.mpr ⟨ha, hgood⟩, hbad⟩
      · exact .inr ⟨[], a, rest, rfl, nofun, ha⟩

section Stretches

variable {text : Text} {fault : Violation} {written : String} {place : Span}

theorem not_blank_of_mem_visibleStretches {stretch : Span} (h : stretch ∈ visibleStretches text) :
    ¬ (Text.slice text stretch.start stretch.stop).all isBlank := by
  simpa using (List.mem_filter.mp h).2

theorem readParameters_eq_readAll (text : Text) (span : Span) :
    readParameters ⟨text, span⟩ =
      Piece.readAll text span.start .empty
        ((visibleStretches text).map (Piece.ofStretch text)) := by
  rw [readParameters, Piece.all_eq_map_stretches, Piece.readAll_map_ofStretch]
  rfl

/-- All visible stretches are entries, or there is a first one that is none. -/
theorem forall_makesEntry_or_firstBadStretch (text : Text) :
    (∀ stretch ∈ visibleStretches text, ∃ entry, MakesEntry text stretch entry) ∨
      ∃ fault written place, FirstBadStretch text fault written place := by
  rcases forall_or_exists_first (fun stretch => ∃ entry, MakesEntry text stretch entry)
    (visibleStretches text) with hall | ⟨earlier, bad, later, hsplit, hgood, hbad⟩
  · exact .inl hall
  · obtain ⟨fault, written, place, hfault⟩ := (makesEntry_or_faulty text bad).resolve_left hbad
    exact .inr ⟨fault, written, place, earlier, bad, later, hsplit, hgood, hfault⟩

theorem readParameters_of_forall₂ {pairs : List (Text × Value)}
    (h : List.Forall₂ (MakesEntry text) (visibleStretches text) pairs) (span : Span) :
    readParameters ⟨text, span⟩ = .ok (.ofList pairs) := by
  have hread := Piece.readAll_append_of_forall₂ h
    (fun _ => not_blank_of_mem_visibleStretches) span.start .empty []
  rw [List.append_nil] at hread
  rw [readParameters_eq_readAll, hread]
  rfl

theorem readParameters_of_firstBadStretch (h : FirstBadStretch text fault written place)
    (span : Span) :
    (readParameters ⟨text, span⟩).mapError Violation.diagnostic =
      .error (fault.diagnostic.shiftLabels span.start) := by
  obtain ⟨earlier, bad, later, hsplit, hgood, hbad⟩ := h
  obtain ⟨pairs, hpairs⟩ := exists_forall₂_of_forall hgood
  have hvisible : ∀ stretch ∈ earlier ++ bad :: later,
      ¬ (Text.slice text stretch.start stretch.stop).all isBlank :=
    hsplit ▸ fun _ => not_blank_of_mem_visibleStretches
  obtain ⟨hearlier, hrest⟩ := List.forall_mem_append.mp hvisible
  obtain ⟨violation, hread, hdiagnostic⟩ :=
    Piece.read_of_faulty (List.forall_mem_cons.mp hrest).1 hbad span.start
  rw [readParameters_eq_readAll, hsplit, List.map_append,
    Piece.readAll_append_of_forall₂ hpairs hearlier, List.map_cons, Piece.readAll, hread]
  exact congrArg Except.error hdiagnostic

theorem Diagnostic.shiftLabels_zero (diagnostic : Diagnostic) :
    diagnostic.shiftLabels 0 = diagnostic := by
  have hlabel : (fun label : Label => { label with span := label.span.shift 0 }) = id := rfl
  rw [shiftLabels, hlabel, List.map_id]

theorem exists_ok_iff_forall_makesEntry (text : Text) (span : Span) :
    (∃ params, readParameters ⟨text, span⟩ = .ok params) ↔
      ∀ stretch ∈ visibleStretches text, ∃ entry, MakesEntry text stretch entry := by
  constructor
  · rintro ⟨params, hok⟩
    apply (forall_makesEntry_or_firstBadStretch text).resolve_right
    rintro ⟨fault, written, place, hfault⟩
    have hread := readParameters_of_firstBadStretch hfault span
    rw [hok] at hread
    cases hread
  · intro hall
    obtain ⟨pairs, hpairs⟩ := exists_forall₂_of_forall hall
    exact ⟨_, readParameters_of_forall₂ hpairs span⟩

theorem exists_firstBadStretch {span : Span} {diagnostic : Diagnostic}
    (h : (readParameters ⟨text, span⟩).mapError Violation.diagnostic = .error diagnostic) :
    ∃ fault written place, FirstBadStretch text fault written place ∧
      diagnostic = fault.diagnostic.shiftLabels span.start := by
  rcases forall_makesEntry_or_firstBadStretch text with hall | ⟨fault, written, place, hfault⟩
  · obtain ⟨params, hok⟩ := (exists_ok_iff_forall_makesEntry text span).mpr hall
    rw [hok] at h
    cases h
  · rw [readParameters_of_firstBadStretch hfault] at h
    exact ⟨fault, written, place, hfault, (Except.error.inj h).symm⟩

/-- The error is that of the first bad stretch, under its code and with its place as the only one
that is marked. -/
theorem eq_error_iff_firstBadStretch (text : Text) (span : Span) (diagnostic : Diagnostic) :
    (readParameters ⟨text, span⟩).mapError Violation.diagnostic = .error diagnostic ↔
      ∃ fault written place, FirstBadStretch text fault written place ∧
        diagnostic.Cites written (place.shift span.start) [] ∧
        diagnostic = fault.diagnostic.shiftLabels span.start := by
  constructor
  · intro herror
    obtain ⟨fault, written, place, hfault, rfl⟩ := exists_firstBadStretch herror
    exact ⟨fault, written, place, hfault, hfault.cites.shiftLabels span.start, rfl⟩
  · rintro ⟨fault, written, place, hfault, _, rfl⟩
    exact readParameters_of_firstBadStretch hfault span

/-- The place of parameter text moves the labels, and has no other effect. -/
theorem mapError_readParameters (text : Text) (span : Span) :
    (readParameters ⟨text, span⟩).mapError Violation.diagnostic =
      (readParameters ⟨text, .emptyAt 0⟩).mapError fun violation =>
        violation.diagnostic.shiftLabels span.start := by
  cases hread : readParameters ⟨text, .emptyAt 0⟩ with
  | ok params =>
      have hok := @readParameters_of_value ⟨text, .emptyAt 0⟩ ⟨text, span⟩ rfl params hread
      rw [hok]
      rfl
  | error violation =>
      have hhere : (readParameters ⟨text, .emptyAt 0⟩).mapError Violation.diagnostic =
          .error violation.diagnostic := by
        rw [hread]
        rfl
      obtain ⟨fault, written, place, hfault, hdiagnostic⟩ := exists_firstBadStretch hhere
      have hzero : (Span.emptyAt 0).start = 0 := rfl
      rw [hzero, Diagnostic.shiftLabels_zero] at hdiagnostic
      rw [readParameters_of_firstBadStretch hfault, ← hdiagnostic]
      rfl

/-- Parameter text can be read if and only if all its visible stretches are entries, and then each
key has the value of its last entry, in the place of its first. Else the first stretch that is no
entry is reported, under the code of what is wrong with it and with a label on the text that is to
blame; the place of the parameter text moves the labels, and has no other effect. -/
theorem readParameters_piece_by_piece (text : Text) (span : Span) :
    ((∃ params, readParameters ⟨text, span⟩ = .ok params) ↔
      ∀ stretch ∈ visibleStretches text, ∃ entry, MakesEntry text stretch entry) ∧
    (∀ params, readParameters ⟨text, span⟩ = .ok params →
      ∃ pairs, List.Forall₂ (MakesEntry text) (visibleStretches text) pairs ∧
        params.keys = (pairs.map Prod.fst).eraseDups ∧
        ∀ key, params.get? key = pairs.reverse.lookup key) ∧
    (∀ diagnostic,
      (readParameters ⟨text, span⟩).mapError Violation.diagnostic = .error diagnostic ↔
        ∃ fault written place, FirstBadStretch text fault written place ∧
          diagnostic.Cites written (place.shift span.start) [] ∧
          diagnostic = fault.diagnostic.shiftLabels span.start) ∧
    (readParameters ⟨text, span⟩).mapError Violation.diagnostic =
      (readParameters ⟨text, .emptyAt 0⟩).mapError fun violation =>
        violation.diagnostic.shiftLabels span.start := by
  refine ⟨exists_ok_iff_forall_makesEntry text span, ?_, eq_error_iff_firstBadStretch text span,
    mapError_readParameters text span⟩
  intro params hok
  obtain ⟨pairs, hpairs⟩ :=
    exists_forall₂_of_forall ((exists_ok_iff_forall_makesEntry text span).mp ⟨params, hok⟩)
  rw [readParameters_of_forall₂ hpairs] at hok
  obtain rfl := Except.ok.inj hok
  exact ⟨pairs, hpairs, Entries.keys_ofList pairs, Entries.get?_ofList pairs⟩

end Stretches

end SceneScript
