import SceneScript.Proofs.DeclaredNames
import SceneScript.Proofs.ValueForms
import SceneScript.Proofs.WrittenStyle

/-! # What a document promises

Who draws a document may rely on its names, its entries and its lookup by name, however the text was
written. Each clause is kept by another part: words are cut off by the lexer, types and names are
placed by the header forms and checked by the naming rules, and entries are what their readers let
through.
-/

namespace SceneScript

/-! ## Valid documents -/

/-- The text is not empty, no white space stands at its ends, and no semicolon in it. -/
structure Style.IsPart (text : Text) : Prop where
  ne_nil : text ≠ []
  first : ∀ c ∈ text.head?, isBlank c = false
  last : ∀ c ∈ text.getLast?, isBlank c = false
  semicolon : ';' ∉ text

/-- The name starts with one of `A` to `Z`. -/
def StartsUppercase (name : Text) : Prop :=
  ∃ c ∈ name.head?, 'A' ≤ c ∧ c ≤ 'Z'

/-- What may be relied on of a shape: its type and its name are proper, its parameters have
identifiers as keys and integers of 64 bits, and its style entries are trimmed. -/
structure Shape.Valid (shape : Shape) : Prop where
  kind : IsName shape.kind ∧ shape.kind ≠ ['L', 'i', 's', 't']
  name : IsName shape.name ∧ StartsUppercase shape.name
  name_free : shape.name.map Char.toLower ≠ ['l', 'i', 's', 't']
  param_keys : shape.params.keys.Nodup ∧ ∀ key ∈ shape.params.keys, Text.isIdentifier key
  integers : ∀ entry ∈ shape.params.toList, ∀ n, entry.2 = .integer n → -2 ^ 63 ≤ n ∧ n < 2 ^ 63
  style_keys : shape.style.keys.Nodup ∧ ∀ key ∈ shape.style.keys, Style.IsPart key ∧ ':' ∉ key
  style_values : ∀ entry ∈ shape.style.toList, Style.IsPart entry.2

/-- What may be relied on of a document: it has shapes, all of them valid, and each is found by its
name. -/
structure Document.Valid (document : Document) : Prop where
  some_shape : document.shapes ≠ []
  listName : IsName document.listName ∧ StartsUppercase document.listName
  shapes : ∀ shape ∈ document.shapes, shape.Valid
  lookup : ∀ shape ∈ document.shapes, document.shape? shape.name = some shape

/-! ## Names -/

theorem startsUppercase_iff (name : Text) :
    Naming.startsUppercase name ↔ StartsUppercase name := by
  cases name with
  | nil => simp [Naming.startsUppercase, StartsUppercase]
  | cons c rest => simp [Naming.startsUppercase, StartsUppercase]

/-- Where all names differ, the first shape of a name is the only one. -/
theorem Document.shape?_of_mem {document : Document}
    (h : (document.shapes.map fun shape => shape.name).Nodup) {shape : Shape}
    (hmem : shape ∈ document.shapes) : document.shape? shape.name = some shape := by
  obtain ⟨listName, shapes⟩ := document
  rw [shape?]
  simp only at h hmem ⊢
  induction shapes with
  | nil => cases hmem
  | cons first rest ih =>
      obtain ⟨hfirst, hrest⟩ := List.nodup_cons.mp h
      rcases List.mem_cons.mp hmem with rfl | hmem
      · exact List.find?_cons_of_pos (by simp)
      · have hne : first.name ≠ shape.name := by
          intro heq
          exact hfirst (List.mem_map.mpr ⟨shape, hmem, heq.symm⟩)
        rw [List.find?_cons_of_neg (by simpa using hne)]
        exact ih hrest hmem

/-! ## Parameters -/

/-- Only a number of 64 bits is read as an integer. -/
theorem Value.inRange_of_read? {text : Text} {n : Int} (h : read? text = some (.integer n)) :
    inRange n := by
  obtain ⟨_, _, _, _, _, hlow, hhigh⟩ := (read?_eq_integer_iff text n).mp h
  exact (inRange_iff n).mpr ⟨hlow, by omega⟩

/-- The key is an identifier, and an integer has 64 bits. -/
def IsParameter (entry : Text × Value) : Prop :=
  Text.isIdentifier entry.1 ∧ ∀ n, entry.2 = .integer n → Value.inRange n

namespace Piece

theorem isParameter_of_read {text : Text} {base : Nat} {piece : Piece} {entry : Text × Value}
    (h : piece.read text base = .ok (some entry)) : IsParameter entry := by
  simp only [read] at h
  split at h
  next => cases h
  next =>
    split at h
    next => cases h
    next colon _ =>
      split at h
      next => cases h
      next =>
        split at h
        next => cases h
        next hidentifier =>
          split at h
          next parsed hparsed =>
            obtain rfl := Option.some.inj (Except.ok.inj h)
            refine ⟨by simpa using hidentifier, ?_⟩
            rintro n rfl
            exact Value.inRange_of_read? hparsed
          next => cases h

theorem isParameter_of_readAll {text : Text} {base : Nat} {pieces : List Piece}
    {entries params : Entries Value} (hentries : ∀ entry ∈ entries.toList, IsParameter entry)
    (h : readAll text base entries pieces = .ok params) :
    ∀ entry ∈ params.toList, IsParameter entry := by
  induction pieces generalizing entries with
  | nil => exact Except.ok.inj h ▸ hentries
  | cons piece rest ih =>
      rw [readAll] at h
      split at h
      next => cases h
      next => exact ih hentries h
      next key value hread =>
        exact ih (Entries.forall_mem_insert hentries (isParameter_of_read hread)) h

end Piece

theorem isParameter_of_readParameters {raw : Spanned Text} {params : Entries Value}
    (h : readParameters raw = .ok params) : ∀ entry ∈ params.toList, IsParameter entry :=
  Piece.isParameter_of_readAll (by simp [Entries.empty]) h

/-! ## Style entries -/

namespace Style

theorem isPart_trim {text : Text} (hblank : ¬ text.all isBlank) (h : ';' ∉ text) :
    IsPart (Text.trim text) where
  ne_nil := mt (Text.trim_eq_nil_iff text).mp hblank
  first := fun _ => Text.isBlank_of_mem_head?_trim
  last := fun _ => Text.isBlank_of_mem_getLast?_trim
  semicolon := fun hmem => h (Text.mem_of_mem_trim hmem)

/-- A clause without a semicolon is read as a key that has no colon either, and a value. -/
theorem isPart_of_isEntryOf {clause : Text} {entry : Text × Text} (h : ';' ∉ clause)
    (hentry : IsEntryOf clause entry) : (IsPart entry.1 ∧ ':' ∉ entry.1) ∧ IsPart entry.2 := by
  obtain ⟨before, after, rfl, hcolon, hbefore, hafter, rfl⟩ := hentry
  rw [List.mem_append, List.mem_cons, not_or, not_or] at h
  exact ⟨⟨isPart_trim hbefore h.1, fun hmem => hcolon (Text.mem_of_mem_trim hmem)⟩,
    isPart_trim hafter h.2.2⟩

theorem isPart_of_mem_read {body : Text} :
    ∀ entry ∈ (read body).toList, (IsPart entry.1 ∧ ':' ∉ entry.1) ∧ IsPart entry.2 := by
  apply Entries.forall_mem_ofList
  intro entry hentry
  obtain ⟨clause, hclause, hread⟩ := List.mem_filterMap.mp hentry
  exact isPart_of_isEntryOf (Text.not_mem_of_mem_splitAt hclause)
    ((readClause?_eq_some_iff clause entry).mp hread)

end Style

/-! ## Documents -/

/-- A candidate of the source that is sound declares a valid shape. -/
theorem Candidate.Declares.valid {candidate : Candidate} {shape : Shape}
    (h : candidate.Declares shape) (hsound : candidate.Sound)
    (hnamed : (Declaration.shape candidate).Named) : shape.Valid := by
  obtain ⟨hkind, hlist, hname⟩ := hnamed
  obtain ⟨name, hsome, hupper, hreserved⟩ := hsound.named
  have hshapeName : name = shape.name := Option.some.inj (hsome.symm.trans h.name)
  subst hshapeName
  have hparams := isParameter_of_readParameters h.params
  have hstyle : ∀ entry ∈ shape.style.toList,
      (Style.IsPart entry.1 ∧ ':' ∉ entry.1) ∧ Style.IsPart entry.2 := by
    obtain ⟨block, _, hblock⟩ := Option.map_eq_some_iff.mp h.style
    exact hblock ▸ Style.isPart_of_mem_read
  refine ⟨?_, ⟨hname _ h.name, (startsUppercase_iff _).mp hupper⟩, ?_, ⟨shape.params.nodup_keys, ?_⟩,
    ?_, ⟨shape.style.nodup_keys, ?_⟩, fun entry hmem => (hstyle entry hmem).2⟩
  · rw [h.kind]
    exact ⟨hkind, hlist⟩
  · simpa [Naming.isReserved] using hreserved
  · intro key hkey
    obtain ⟨entry, hmem, rfl⟩ := List.mem_map.mp hkey
    exact (hparams entry hmem).1
  · intro entry hmem n hn
    exact (Value.inRange_iff n).mp ((hparams entry hmem).2 n hn)
  · intro key hkey
    obtain ⟨entry, hmem, rfl⟩ := List.mem_map.mp hkey
    exact (hstyle entry hmem).1

theorem nodup_of_declares {held : List Candidate} {shapes : List Shape}
    (h : List.Forall₂ Candidate.Declares held shapes)
    (hdistinct : held.Pairwise fun a b => a.name? ≠ b.name?) :
    (shapes.map fun shape => shape.name).Nodup := by
  have hnames : (held.map Candidate.name?).Nodup := List.pairwise_map.mpr hdistinct
  rw [map_name?_of_declares h] at hnames
  have hshapes := List.pairwise_map.mp hnames
  exact List.pairwise_map.mpr (hshapes.imp fun hne heq => hne (congrArg some heq))

/-- Every document that is read is valid, whether or not its shapes were held back until the list
header was met. -/
theorem parse_valid {source : Text} {fileName : Option Text} {document : Document}
    (h : parse source fileName = .ok document) : document.Valid := by
  have hbuild := (parse_eq_ok_iff ..).mp h
  obtain ⟨hlist, hshapes⟩ := build_eq_ok hbuild
  obtain ⟨⟨list, hlists, hupper, _⟩, hsome, hsound, hdistinct⟩ :=
    (build_ok_iff_wellFormed source fileName).mp ⟨document, hbuild⟩
  have hlistMem : list ∈ listHeaders (declarations source) := hlists ▸ List.mem_singleton_self list
  rw [hlists, List.map_singleton, List.singleton_inj] at hlist
  refine ⟨?_, ?_, ?_, fun shape => Document.shape?_of_mem (nodup_of_declares hshapes hdistinct)⟩
  · intro hnil
    rw [hnil] at hshapes
    exact hsome (List.forall₂_nil_right_iff.mp hshapes)
  · rw [← hlist]
    exact ⟨isName_of_mem_listHeaders hlistMem, (startsUppercase_iff _).mp hupper⟩
  · intro shape hmem
    obtain ⟨candidate, hcandidate, hdeclares⟩ := exists_candidate_of_mem hshapes hmem
    exact hdeclares.valid (hsound candidate hcandidate) (named_of_mem_candidates hcandidate)

/-- A document with a shape on each side of its list header. -/
theorem parse_valid_board :
    let source := ("Create Square Sq1(x:1, y:-2) \x7b Style \x7b color: red; \x7d \x7d\n" ++
      "Create List Board() \x7b\n" ++
      "Create Circle C1(r:2.5, note:'a;b') \x7b Style \x7b fill:a:b;;: x \x7d \x7d\n\x7d").toList
    ∃ document, parse source (some "scenes/Board.slc".toList) = .ok document ∧ document.Valid := by
  intro source
  have hok : (parse source (some "scenes/Board.slc".toList)).isOk := by decide +kernel
  cases hparse : parse source (some "scenes/Board.slc".toList) with
  | error diagnostic =>
      rw [hparse] at hok
      cases hok
  | ok document => exact ⟨document, rfl, parse_valid hparse⟩

end SceneScript
