import SceneScript.Proofs.Capitals
import SceneScript.Proofs.DeclaredNames
import SceneScript.Proofs.RenamedWords
import SceneScript.Proofs.ScanRuns

/-! # Hints to rename

A list or a shape whose name does not start with one of `A` to `Z` is refused, with the hint to give
the name a capital. Renamed so, the header stands in the source as before if the hint is a name at
all, and it is not refused for the same reason again if the hint starts with such a letter. For
names that start with one of `a` to `z` both hold, apart from those that become a keyword; for most
other names one of them does not.
-/

namespace SceneScript

/-- The text with another text in the place of a span. -/
def Text.replaced (text : Text) (span : Span) (other : Text) : Text :=
  takeBytes span.start text ++ (other ++ dropBytes span.stop text)

theorem Text.replaced_ofText (front word other back : Text) :
    (front ++ (word ++ back)).replaced (.ofText (byteLength front) word) other =
      front ++ (other ++ back) := by
  have hdrop := dropBytes_byteLength_add (front ++ word) back 0
  rw [Nat.add_zero, byteLength_append, dropBytes_zero, List.append_assoc] at hdrop
  have hstart : (Span.ofText (byteLength front) word).start = byteLength front := rfl
  have hstop : (Span.ofText (byteLength front) word).stop =
      byteLength front + byteLength word := rfl
  rw [replaced, hstart, hstop, takeBytes_byteLength, hdrop]

/-! ## Headers that a scan finds -/

/-- Some moves of a scan find the header. -/
def Header.ScannedIn (source : Text) (header : Header) : Prop :=
  ∃ steps, .header (some header) ∈ scan source steps

/-- The headers that some moves find are those that stand among the tokens. -/
theorem Header.scannedIn_iff {source : Text} {header : Header} :
    header.ScannedIn source ↔ ∃ skipped consumed rest, Header.Form source consumed header ∧
      significantTokens source = skipped ++ (consumed ++ rest) := by
  constructor
  · rintro ⟨steps, hmem⟩
    have hfound : Construct.header header ∈ (scan source steps).filterMap (·.found?) :=
      List.mem_filterMap.mpr ⟨_, hmem, rfl⟩
    exact exists_form_of_mem_scan hfound
  · rintro ⟨skipped, consumed, rest, form, htokens⟩
    have hdrop : (significantTokens source).drop skipped.length = consumed ++ rest := by
      rw [htokens, List.drop_left]
    obtain ⟨stop, hstands, _⟩ :=
      Construct.exists_standsAt_of_drop_eq (.header header) form hdrop
    obtain ⟨headers, hmem, _, hscan⟩ := exists_headers source (significantTokens source) 0
    obtain ⟨i, hi, hget⟩ :=
      List.getElem_of_mem ((hmem header _ stop).mpr ⟨Nat.zero_le _, hstands⟩)
    refine ⟨List.replicate (i + 1) .header, ?_⟩
    rw [scan, ← List.drop_zero (l := significantTokens source), hscan]
    refine List.mem_map.mpr ⟨i, List.mem_range.mpr (Nat.lt_succ_self i), ?_⟩
    rw [List.getElem?_eq_getElem hi, hget]
    rfl

/-- The name of a header, if it has one. -/
def Header.name? : Header → Option (Spanned Text)
  | list header => some header.name
  | shape header => header.name

theorem Header.isName_of_scannedIn {source : Text} {header : Header} {name : Spanned Text}
    (h : header.ScannedIn source) (hname : header.name? = some name) : IsName name.value := by
  obtain ⟨skipped, consumed, rest, form, htokens⟩ := scannedIn_iff.mp h
  have hconsumed : (⟨.identifier name.value, name.span⟩ : Spanned Token) ∈ consumed := by
    cases form with
    | list form =>
        obtain ⟨first, keyword, opening, closing, last, _⟩ := form
        obtain rfl := Option.some.inj hname
        simp
    | shape form =>
        obtain ⟨first, opening, closing, last, kind, _, inner, _, _⟩ := form
        obtain rfl := hname
        simp [nameTokens]
  have hmem : ⟨.identifier name.value, name.span⟩ ∈ significantTokens source := by
    rw [htokens]
    exact List.mem_append_right _ (List.mem_append_left _ hconsumed)
  exact isName_of_mem_significantTokens hmem

section Renamed

variable {source other : Text} (hother : IsName other)
include hother

/-- In the place of an identifier there may be another one. Then the same tokens follow, though at
other places. -/
theorem exists_replaced {word : Text} {span : Span} {before after : Tokens}
    (h : significantTokens source = before ++ ⟨.identifier word, span⟩ :: after) :
    ∃ later, later.map (·.value) = after.map (·.value) ∧
      significantTokens (source.replaced span other) =
        before ++ ⟨.identifier other, .ofText span.start other⟩ :: later := by
  obtain ⟨front, back, rfl, rfl, rfl, hrenamed⟩ := exists_renamed h
  have htokens := hrenamed other hother.1
  rw [hother.ofWord] at htokens
  rw [Text.replaced_ofText, htokens]
  refine ⟨_, ?_, rfl⟩
  rw [List.map_map, List.map_map]
  rfl

/-- In the place of its name, a list header may have any other name. -/
theorem ListHeader.exists_renamed {header : ListHeader}
    (h : (Header.list header).ScannedIn source) :
    ∃ renamed : ListHeader,
      (Header.list renamed).ScannedIn (source.replaced header.name.span other) ∧
        renamed.name = ⟨other, .ofText header.name.span.start other⟩ := by
  obtain ⟨skipped, consumed, rest, ⟨form⟩, htokens⟩ := Header.scannedIn_iff.mp h
  obtain ⟨first, keyword, opening, closing, last, ⟨name, span⟩⟩ := form
  have hsplit : significantTokens source =
      (skipped ++ [⟨.create, first⟩, ⟨.identifier listKeyword, keyword⟩]) ++
        ⟨.identifier name, span⟩ ::
          (⟨.leftParen, opening⟩ :: ⟨.rightParen, closing⟩ :: ⟨.leftBrace, last⟩ :: rest) := by
    rw [htokens]
    simp
  obtain ⟨later, hlater, hrenamed⟩ := exists_replaced hother hsplit
  simp only [List.map_cons, List.map_eq_cons_iff] at hlater
  obtain ⟨⟨_, opening'⟩, _, rfl, rfl, ⟨_, closing'⟩, _, rfl, rfl, ⟨_, last'⟩, rest', rfl, rfl, _⟩ :=
    hlater
  refine ⟨_, Header.scannedIn_iff.mpr ⟨skipped, _, rest', .list (.intro first keyword opening'
    closing' last' ⟨other, .ofText span.start other⟩), ?_⟩, rfl⟩
  rw [hrenamed]
  simp

/-- In the place of its name, a shape header may have any other name. -/
theorem ShapeHeader.exists_renamed {header : ShapeHeader} {name : Spanned Text}
    (h : (Header.shape header).ScannedIn source) (hname : header.name = some name) :
    ∃ renamed : ShapeHeader,
      (Header.shape renamed).ScannedIn (source.replaced name.span other) ∧
        renamed.kind = header.kind ∧
          renamed.name = some ⟨other, .ofText name.span.start other⟩ := by
  obtain ⟨skipped, consumed, rest, _ | ⟨form⟩, htokens⟩ := Header.scannedIn_iff.mp h
  obtain ⟨first, opening, closing, last, kind, name, inner, hkind, hinner⟩ := form
  obtain rfl := hname
  have hsplit : significantTokens source =
      (skipped ++ [⟨.create, first⟩, ⟨.identifier kind.value, kind.span⟩]) ++
        ⟨.identifier name.value, name.span⟩ ::
          (⟨.leftParen, opening⟩ :: (inner ++ ⟨.rightParen, closing⟩ :: ⟨.leftBrace, last⟩ ::
            rest)) := by
    rw [htokens]
    simp [nameTokens]
  obtain ⟨later, hlater, hrenamed⟩ := exists_replaced hother hsplit
  simp only [List.map_cons, List.map_append, List.map_eq_cons_iff, List.map_eq_append_iff] at hlater
  obtain ⟨⟨_, opening'⟩, _, rfl, rfl, inner', _, rfl, hinner', ⟨_, closing'⟩, _, rfl, rfl,
    ⟨_, last'⟩, rest', rfl, rfl, _⟩ := hlater
  refine ⟨_, Header.scannedIn_iff.mpr ⟨skipped, _, rest', .shape (.intro first opening' closing'
    last' kind (some ⟨other, .ofText name.span.start other⟩) inner' hkind ?_), ?_⟩, rfl, rfl⟩
  · intro token hmem
    obtain ⟨original, horiginal, hvalue⟩ :=
      List.mem_map.mp (hinner' ▸ List.mem_map_of_mem (f := Spanned.value) hmem)
    exact hvalue ▸ hinner original horiginal
  · rw [hrenamed]
    simp [nameTokens]

end Renamed

/-! ## Names that are refused for their first letter -/

theorem Naming.not_startsUppercase_of_checkList {naming : Naming} {header : ListHeader}
    (h : naming.checkList header = .error (.lowercaseList header)) :
    ¬ startsUppercase header.name.value := by
  intro hupper
  rw [checkList, hupper, Bool.not_true, if_neg Bool.false_ne_true] at h
  cases hstem : naming.stem with
  | none =>
      rw [hstem] at h
      cases h
  | some stem =>
      rw [hstem] at h
      dsimp only at h
      split at h
      next => cases h
      next => cases Except.error.inj h

theorem Naming.not_startsUppercase_of_acceptShape {naming : Naming} {header : ShapeHeader}
    {name : Text} (h : naming.acceptShape header = .error (.lowercaseName header name)) :
    ∃ spanned, header.name = some spanned ∧ spanned.value = name ∧ ¬ startsUppercase name := by
  unfold acceptShape at h
  cases hname : header.name with
  | none =>
      rw [hname] at h
      cases h
  | some spanned =>
      rw [hname] at h
      dsimp only at h
      split at h
      next => cases h
      next =>
        split at h
        next hlower =>
          cases h
          exact ⟨spanned, rfl, rfl, by simpa using hlower⟩
        next => split at h <;> cases h

/-! ## Hints -/

/-- A text is a single identifier token exactly if it may be a name. -/
theorem tokenize_eq_identifier_iff {text : Text} :
    tokenize text = [⟨.identifier text, .ofText 0 text⟩] ↔ IsName text := by
  constructor
  · intro h
    have hmem : ⟨.identifier text, .ofText 0 text⟩ ∈ significantTokens text := by
      rw [significantTokens, h]
      exact List.mem_singleton_self _
    exact isName_of_mem_significantTokens hmem
  · intro h
    have hlexes : LexesAs text (Token.ofWord text) [] := lexesAs_word_of_head h.1 rfl
    have hword := hlexes true 0
    rwa [List.append_nil, lexFrom_nil, h.ofWord] at hword

/-- With the other name a scan finds the list header again, and no check refuses it for its first
letter. -/
def ListHeader.CuredBy (source : Text) (header : ListHeader) (other : Text) : Prop :=
  ∃ renamed : ListHeader,
    (Header.list renamed).ScannedIn (source.replaced header.name.span other) ∧
      renamed.name = ⟨other, .ofText header.name.span.start other⟩ ∧
        ∀ naming : Naming, naming.checkList renamed ≠ .error (.lowercaseList renamed)

/-- With another name at its place a scan finds the shape header again, and no check refuses it for
its first letter. -/
def ShapeHeader.CuredBy (source : Text) (header : ShapeHeader) (place : Span) (other : Text) :
    Prop :=
  ∃ renamed : ShapeHeader,
    (Header.shape renamed).ScannedIn (source.replaced place other) ∧
      renamed.kind = header.kind ∧ renamed.name = some ⟨other, .ofText place.start other⟩ ∧
        ∀ (naming : Naming) (name : Text),
          naming.acceptShape renamed ≠ .error (.lowercaseName renamed name)

theorem ListHeader.curedBy_iff {source other : Text} {header : ListHeader}
    (h : (Header.list header).ScannedIn source) :
    header.CuredBy source other ↔ IsName other ∧ Naming.startsUppercase other := by
  constructor
  · rintro ⟨renamed, hscanned, hname, haccepted⟩
    have hother : IsName renamed.name.value := Header.isName_of_scannedIn hscanned rfl
    rw [hname] at hother
    refine ⟨hother, ?_⟩
    by_contra hlower
    apply haccepted (.ofFileName none)
    rw [Naming.checkList, hname, Bool.of_not_eq_true hlower]
    rfl
  · rintro ⟨hother, hupper⟩
    obtain ⟨renamed, hscanned, hname⟩ := exists_renamed hother h
    refine ⟨renamed, hscanned, hname, fun naming hrefused => ?_⟩
    have hlower := Naming.not_startsUppercase_of_checkList hrefused
    rw [hname] at hlower
    exact hlower hupper

theorem ShapeHeader.curedBy_iff {source other : Text} {header : ShapeHeader} {name : Spanned Text}
    (h : (Header.shape header).ScannedIn source) (hname : header.name = some name)
    (hfree : ¬ Naming.startsUppercase other → Naming.isReserved other = false) :
    header.CuredBy source name.span other ↔ IsName other ∧ Naming.startsUppercase other := by
  constructor
  · rintro ⟨renamed, hscanned, _, hrenamed, haccepted⟩
    refine ⟨Header.isName_of_scannedIn hscanned hrenamed, ?_⟩
    by_contra hlower
    apply haccepted (.ofFileName none) other
    rw [Naming.acceptShape, hrenamed]
    dsimp only
    rw [hfree hlower, Bool.of_not_eq_true hlower]
    rfl
  · rintro ⟨hother, hupper⟩
    obtain ⟨renamed, hscanned, hkind, hrenamed⟩ := exists_renamed hother h hname
    refine ⟨renamed, hscanned, hkind, hrenamed, fun naming word hrefused => ?_⟩
    obtain ⟨spanned, hspanned, rfl, hlower⟩ := Naming.not_startsUppercase_of_acceptShape hrefused
    rw [hrenamed] at hspanned
    obtain rfl := Option.some.inj hspanned
    exact hlower hupper

/-- The hint for a list or a shape that is refused for its first letter is a single identifier with
one of `A` to `Z` in front exactly if the name is mendable, and exactly then the header is found
again with the hint as its name and is not refused for its first letter. -/
theorem hint_cures_iff (source : Text) (naming : Naming) :
    (∀ header : ListHeader, (Header.list header).ScannedIn source →
      naming.checkList header = .error (.lowercaseList header) →
      let hint := Violation.capitalized header.name.value
      (Violation.lowercaseList header).help =
          some ("rename the list to '" ++ String.ofList hint ++ "'") ∧
        (Mendable header.name.value ↔
          tokenize hint = [⟨.identifier hint, .ofText 0 hint⟩] ∧ Naming.startsUppercase hint) ∧
        (Mendable header.name.value ↔ header.CuredBy source hint)) ∧
    ∀ (header : ShapeHeader) (name : Spanned Text), (Header.shape header).ScannedIn source →
      header.name = some name →
      naming.acceptShape header = .error (.lowercaseName header name.value) →
      let hint := Violation.capitalized name.value
      (Violation.lowercaseName header name.value).help =
          some ("rename the shape to '" ++ String.ofList hint ++ "'") ∧
        (Mendable name.value ↔
          tokenize hint = [⟨.identifier hint, .ofText 0 hint⟩] ∧ Naming.startsUppercase hint) ∧
        (Mendable name.value ↔ header.CuredBy source name.span hint) := by
  constructor
  · intro header hscanned hrefused hint
    have hname : IsName header.name.value := Header.isName_of_scannedIn hscanned rfl
    have hmendable := mendable_iff hname.1 (Naming.not_startsUppercase_of_checkList hrefused)
    refine ⟨rfl, ?_, ?_⟩
    · rw [tokenize_eq_identifier_iff, hmendable]
    · rw [ListHeader.curedBy_iff hscanned, hmendable]
  · intro header name hscanned hname hrefused hint
    have hword : IsName name.value := Header.isName_of_scannedIn hscanned hname
    obtain ⟨_, _, _, hlower⟩ := Naming.not_startsUppercase_of_acceptShape hrefused
    have hmendable := mendable_iff hword.1 hlower
    refine ⟨rfl, ?_, ?_⟩
    · rw [tokenize_eq_identifier_iff, hmendable]
    · rw [ShapeHeader.curedBy_iff hscanned hname isReserved_capitalized, hmendable]

/-- The hints are `SSeta` for a name with a sharp s in front, and `Sun` for one with a long s. -/
theorem hint_cures_sharpS :
    let source : Text := "Create List \u00dfeta() \x7b\nCreate Square \u017fun(x:1) \x7b".toList
    let list : ListHeader := ⟨⟨"\u00dfeta".toList, ⟨12, 17, by decide⟩⟩, ⟨0, 21, by decide⟩⟩
    let name : Spanned Text := ⟨"\u017fun".toList, ⟨36, 40, by decide⟩⟩
    let shape : ShapeHeader := ⟨⟨"Square".toList, ⟨29, 35, by decide⟩⟩, some name,
      ⟨"x:1".toList, ⟨41, 44, by decide⟩⟩, ⟨22, 47, by decide⟩⟩
    (Header.list list).ScannedIn source ∧
      (Naming.ofFileName none).checkList list = .error (.lowercaseList list) ∧
      (Header.shape shape).ScannedIn source ∧
      (Naming.ofFileName none).acceptShape shape = .error (.lowercaseName shape name.value) ∧
      list.CuredBy source "SSeta".toList ∧ shape.CuredBy source name.span "Sun".toList := by
  intro source list name shape
  have hlist : (Header.list list).ScannedIn source := ⟨[.header], by decide +kernel⟩
  have hshape : (Header.shape shape).ScannedIn source := ⟨[.header, .header], by decide +kernel⟩
  have hrefused : (Naming.ofFileName none).checkList list = .error (.lowercaseList list) := by
    decide +kernel
  have hlower : (Naming.ofFileName none).acceptShape shape =
      .error (.lowercaseName shape name.value) := by
    decide +kernel
  obtain ⟨_, _, hcured⟩ := (hint_cures_iff source (.ofFileName none)).1 list hlist hrefused
  obtain ⟨_, _, hmended⟩ :=
    (hint_cures_iff source (.ofFileName none)).2 shape name hshape rfl hlower
  have hlistHint : Violation.capitalized list.name.value = "SSeta".toList := by decide
  have hshapeHint : Violation.capitalized name.value = "Sun".toList := by decide
  exact ⟨hlist, hrefused, hshape, hlower, hlistHint ▸ hcured.mp ⟨by decide, by decide⟩,
    hshapeHint ▸ hmended.mp ⟨by decide, by decide⟩⟩

/-- A source with a list that has a Cyrillic name, and with a shape that is called `style`. -/
def smallNames : Text :=
  "Create List \u043a\u0440\u0443\u0433() \x7b\nCreate Square style() \x7b".toList

/-- The header of the list in `smallNames`. -/
def smallList : ListHeader :=
  ⟨⟨"\u043a\u0440\u0443\u0433".toList, ⟨12, 20, by decide⟩⟩, ⟨0, 24, by decide⟩⟩

/-- The header of the shape in `smallNames`. -/
def smallShape : ShapeHeader :=
  ⟨⟨"Square".toList, ⟨32, 38, by decide⟩⟩, some ⟨"style".toList, ⟨39, 44, by decide⟩⟩,
    ⟨[], ⟨45, 45, by decide⟩⟩, ⟨25, 48, by decide⟩⟩

/-- Not every hint cures: with a Cyrillic capital the list is refused for its first letter again,
and `Style` is a keyword, so that there is no header of that name. -/
theorem hint_refused_again :
    (¬ ∀ (source : Text) (header : ListHeader), (Header.list header).ScannedIn source →
      (Naming.ofFileName none).checkList header = .error (.lowercaseList header) →
      header.CuredBy source (Violation.capitalized header.name.value)) ∧
    ((Header.list smallList).ScannedIn smallNames ∧
      (Naming.ofFileName none).checkList smallList = .error (.lowercaseList smallList) ∧
      ¬ smallList.CuredBy smallNames (Violation.capitalized smallList.name.value)) ∧
    (Header.shape smallShape).ScannedIn smallNames ∧
      (Naming.ofFileName none).acceptShape smallShape =
        .error (.lowercaseName smallShape "style".toList) ∧
      ¬ smallShape.CuredBy smallNames ⟨39, 44, by decide⟩
        (Violation.capitalized "style".toList) := by
  have hlist : (Header.list smallList).ScannedIn smallNames := ⟨[.header], by decide +kernel⟩
  have hshape : (Header.shape smallShape).ScannedIn smallNames :=
    ⟨[.header, .header], by decide +kernel⟩
  have hrefused : (Naming.ofFileName none).checkList smallList =
      .error (.lowercaseList smallList) := by
    decide +kernel
  have hcured : ¬ smallList.CuredBy smallNames (Violation.capitalized smallList.name.value) := by
    rw [ListHeader.curedBy_iff hlist]
    decide +kernel
  refine ⟨fun hall => hcured (hall _ _ hlist hrefused), ⟨hlist, hrefused, hcured⟩, hshape,
    by decide +kernel, ?_⟩
  rw [@ShapeHeader.curedBy_iff _ _ _ ⟨"style".toList, ⟨39, 44, by decide⟩⟩ hshape rfl
    isReserved_capitalized]
  decide +kernel

end SceneScript
