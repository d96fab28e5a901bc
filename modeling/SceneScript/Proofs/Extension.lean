import SceneScript.Document.Template
import SceneScript.Proofs.Acceptance
import SceneScript.Proofs.Lexing
import SceneScript.Proofs.Scanning

/-! # Text that is written after a document

Text on later lines cannot change what a source already declares. All of its declarations have their
style blocks, so a longer source declares the same things first, and then perhaps more.
-/

namespace SceneScript

/-! ## Tokens of the longer source -/

theorem significantTokens_within (source : Text) :
    Tokens.Within source (significantTokens source) := by
  intro token hmem
  have hspan := span_of_mem_lexFrom (List.mem_of_mem_filter hmem)
  omega

/-- A newline carries no structure, so the structure of a longer source goes on after that of its
front. -/
theorem significantTokens_append_newline (source more : Text) :
    ∃ later, significantTokens (source ++ '\n' :: more) = significantTokens source ++ later := by
  refine ⟨(lexFrom true (0 + Text.byteLength source + 1) more).filter
    fun token => !token.value.isTrivia, ?_⟩
  rw [significantTokens, tokenize, lexFrom_append_newline, List.filter_append,
    List.filter_cons_of_neg (by simp [Token.isTrivia])]
  rfl

/-! ## Declarations of the longer source -/

/-- When each shape header has a style block, later tokens change no declaration: the scan finds
the same ones up to where no header is left, and goes on from there. -/
theorem declarationsFrom_append {source : Text} {tokens : Tokens} (hwithin : tokens.Within source)
    (hstyled : ∀ candidate ∈ candidates (declarationsFrom source tokens), candidate.block.isSome)
    (more : Text) (later : Tokens) :
    ∃ rest, rest <:+ tokens ∧ nextHeader source rest = none ∧
      declarationsFrom (source ++ more) (tokens ++ later) =
        declarationsFrom source tokens ++ declarationsFrom (source ++ more) (rest ++ later) := by
  induction tokens using scan_induction source with
  | none tokens hnone =>
      rw [declarationsFrom_of_none hnone]
      exact ⟨tokens, List.suffix_refl tokens, hnone, rfl⟩
  | list tokens header rest hnext ih =>
      have hlonger := nextHeader_append hwithin hnext more later
      rw [declarationsFrom_of_list hnext] at hstyled
      obtain ⟨left, hleft, hnone, hrest⟩ := ih (hwithin.of_nextHeader hnext) hstyled
      refine ⟨left, hleft.trans (suffix_of_nextHeader hnext), hnone, ?_⟩
      rw [declarationsFrom_of_list hnext, declarationsFrom_of_list hlonger, hrest, List.cons_append]
  | shape tokens header rest block after hnext hfind ih =>
      have hlonger := nextHeader_append hwithin hnext more later
      have hrest := hwithin.of_nextHeader hnext
      have hafter := findStyle_suffix source rest
      rw [declarationsFrom_of_shape hnext hfind] at hstyled
      obtain ⟨hblock, hlater⟩ := List.forall_mem_cons.mp hstyled
      obtain ⟨block, rfl⟩ := Option.isSome_iff_exists.mp hblock
      obtain ⟨left, hleft, hnone, hfound⟩ := ih (hrest.of_findStyle hfind) hlater
      rw [hfind] at hafter
      refine ⟨left, (hleft.trans hafter).trans (suffix_of_nextHeader hnext), hnone, ?_⟩
      rw [declarationsFrom_of_shape hnext hfind,
        declarationsFrom_of_shape hlonger (findStyle_append hrest hfind more later), hfound,
        List.cons_append]

theorem declarations_append_newline {source : Text}
    (hstyled : ∀ candidate ∈ candidates (declarations source), candidate.block.isSome)
    (more : Text) : declarations source <+: declarations (source ++ '\n' :: more) := by
  obtain ⟨later, htokens⟩ := significantTokens_append_newline source more
  obtain ⟨rest, _, _, hfound⟩ :=
    declarationsFrom_append (significantTokens_within source) hstyled ('\n' :: more) later
  rw [declarations, declarations, htokens, hfound]
  exact List.prefix_append _ _

/-! ## Documents of the longer source -/

/-- Candidates that extend others declare shapes that extend theirs. -/
theorem prefix_of_declares {front back : List Candidate} {shapes longer : List Shape}
    (h : List.Forall₂ Candidate.Declares front shapes)
    (hlonger : List.Forall₂ Candidate.Declares (front ++ back) longer) : shapes <+: longer := by
  induction h generalizing longer with
  | nil => exact List.nil_prefix
  | cons hshape _ ih =>
      cases hlonger with
      | cons hother hrest =>
          rw [hshape.unique hother, List.prefix_cons_inj]
          exact ih hrest

/-- Text on later lines extends a document or makes it invalid, but never changes it. -/
theorem parse_append_newline {source : Text} {fileName : Option Text} {document : Document}
    (h : parse source fileName = .ok document) (more : Text) :
    (∃ diagnostic, parse (source ++ '\n' :: more) fileName = .error diagnostic) ∨
      ∃ extended, parse (source ++ '\n' :: more) fileName = .ok extended ∧
        extended.listName = document.listName ∧ document.shapes <+: extended.shapes := by
  cases hlonger : parse (source ++ '\n' :: more) fileName with
  | error diagnostic => exact .inl ⟨diagnostic, rfl⟩
  | ok extended =>
      rw [parse_eq_ok_iff] at h hlonger
      have hstyled := ((build_ok_iff_wellFormed source fileName).mp ⟨document, h⟩).sound
      obtain ⟨later, hdeclarations⟩ := declarations_append_newline
        (fun candidate hmem => (hstyled candidate hmem).styled) more
      obtain ⟨hname, hshapes⟩ := build_eq_ok h
      obtain ⟨hlongerName, hlongerShapes⟩ := build_eq_ok hlonger
      rw [← hdeclarations, listHeaders_append, List.map_append, hname] at hlongerName
      rw [← hdeclarations, candidates_append] at hlongerShapes
      refine .inr ⟨extended, rfl, ?_, ?_⟩
      · exact (List.cons.inj hlongerName).1.symm
      · exact prefix_of_declares hshapes hlongerShapes

/-- The starter document of a list `A`, followed by a line with one more brace. -/
theorem starterDocument_append_newline :
    ∃ document, parse (starterDocument ['A']) none = .ok document ∧
      ((∃ diagnostic, parse (starterDocument ['A'] ++ '\n' :: ['}']) none = .error diagnostic) ∨
        ∃ extended, parse (starterDocument ['A'] ++ '\n' :: ['}']) none = .ok extended ∧
          extended.listName = document.listName ∧ document.shapes <+: extended.shapes) := by
  have hok : (parse (starterDocument ['A']) none).isOk := by decide +kernel
  cases h : parse (starterDocument ['A']) none with
  | error diagnostic =>
      rw [h] at hok
      cases hok
  | ok document => exact ⟨document, rfl, parse_append_newline h ['}']⟩

end SceneScript
