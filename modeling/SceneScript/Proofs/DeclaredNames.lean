import SceneScript.Proofs.Acceptance
import SceneScript.Proofs.Places
import SceneScript.Proofs.WrittenForms

/-! # The names in declarations

A scan takes types and names from identifier tokens. So they are identifiers and no keywords,
whatever else stands in the source.
-/

namespace SceneScript

variable {source : Text}

theorem isName_of_mem_significantTokens {word : Text} {span : Span}
    (h : ⟨.identifier word, span⟩ ∈ significantTokens source) : IsName word := by
  obtain ⟨spelling, ⟨_, hidentifier, hword⟩, _⟩ :=
    exists_standsIn_of_mem_lexFrom (List.mem_filter.mp h).1
  refine ⟨hidentifier, ?_, ?_⟩
  · rintro rfl
    cases hword
  · rintro rfl
    cases hword

/-- The type and the name are words that a declaration may have there. -/
def Declaration.Named : Declaration → Prop
  | .list header => IsName header.name.value
  | .shape candidate =>
    IsName candidate.header.kind.value ∧ candidate.header.kind.value ≠ listKeyword ∧
      ∀ name ∈ candidate.name?, IsName name

theorem named_of_mem_declarations : ∀ declaration ∈ declarations source, declaration.Named := by
  apply forall_mem_declarationsFrom
  · rintro _ _ ⟨first, keyword, opening, closing, last, name⟩ hpart
    have hmem : ⟨.identifier name.value, name.span⟩ ∈ significantTokens source :=
      hpart.subset (by simp)
    exact isName_of_mem_significantTokens hmem
  · rintro _ _ block ⟨first, opening, closing, last, kind, name, inner, hkind, _⟩ hpart
    have hmem : ⟨.identifier kind.value, kind.span⟩ ∈ significantTokens source :=
      hpart.subset (by simp)
    refine ⟨isName_of_mem_significantTokens hmem, hkind, ?_⟩
    intro word hword
    obtain ⟨name, rfl, rfl⟩ := Option.map_eq_some_iff.mp hword
    have hname : ⟨.identifier name.value, name.span⟩ ∈ significantTokens source :=
      hpart.subset (by simp [nameTokens])
    exact isName_of_mem_significantTokens hname

theorem isName_of_mem_listHeaders {header : ListHeader}
    (h : header ∈ listHeaders (declarations source)) : IsName header.name.value := by
  obtain ⟨declaration, hmem, hlist⟩ := List.mem_filterMap.mp h
  cases declaration with
  | list other => exact Option.some.inj hlist ▸ named_of_mem_declarations _ hmem
  | shape candidate => cases hlist

theorem named_of_mem_candidates {candidate : Candidate}
    (h : candidate ∈ candidates (declarations source)) :
    (Declaration.shape candidate).Named := by
  obtain ⟨declaration, hmem, hshape⟩ := List.mem_filterMap.mp h
  cases declaration with
  | list header => cases hshape
  | shape other => exact Option.some.inj hshape ▸ named_of_mem_declarations _ hmem

end SceneScript
