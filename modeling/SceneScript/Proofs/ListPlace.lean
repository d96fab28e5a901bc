import SceneScript.Proofs.Extension
import SceneScript.Proofs.Relocation
import SceneScript.Proofs.WrittenScene

/-! # The place of the list header

A text whose shapes are complete declares the same wherever it stands, and so does what follows it.
The list header may therefore stand in front of it or behind it: shapes that are held back for the
list are taken in by the same checks, in the same order.
-/

namespace SceneScript

/-- Whole lines in which every shape header has its style block, and nothing follows the last
brace. -/
structure Complete (text : Text) : Prop where
  line : EndsLine text
  brace : ∀ token ∈ (significantTokens text).getLast?, token.value = .rightBrace
  styled : ∀ candidate ∈ candidates (declarations text), candidate.block.isSome

theorem declarations_nil : declarations [] = [] := by
  rw [declarations, significantTokens_eq, structureTokens, keptTokens_nil]
  exact declarationsFrom_of_none rfl

theorem complete_nil : Complete [] where
  line := .inl rfl
  brace := by simp [significantTokens_eq, structureTokens, keptTokens_nil]
  styled := by simp [declarations_nil]

section Place

variable {text name : Text} (h : Complete text) (hname : IsName name) (more : Text)

include h in
/-- The scan takes up what follows a complete text as if nothing stood in front of it. -/
theorem Complete.declarations_append :
    declarations (text ++ more) = declarations text ++
      declarationsFrom (text ++ more) (structureTokens true (Text.byteLength text) more) := by
  obtain ⟨rest, hrest, hnone, hfound⟩ := declarationsFrom_append (significantTokens_within text)
    h.styled more (structureTokens true (Text.byteLength text) more)
  have hwithin : Tokens.Within text rest :=
    fun token hmem => significantTokens_within text token (hrest.mem hmem)
  have hlast : ∀ token ∈ rest.getLast?, token.value = .rightBrace := by
    intro token hmem
    obtain ⟨front, htokens⟩ := hrest
    apply h.brace token
    rw [← htokens, List.getLast?_append, Option.mem_def.mp hmem]
    rfl
  rw [declarations, significantTokens_eq, structureTokens_append_of_endsLine h.line, Nat.zero_add,
    ← significantTokens_eq, hfound,
    declarationsFrom_congr (nextHeader_append_of_none hwithin hlast hnone more _), declarations]

include h hname in
theorem Complete.declarations_append_listLine :
    ∃ list : ListHeader, list.name.value = name ∧
      declarations (text ++ (listLine name ++ more)) = declarations text ++
        .list list :: declarationsFrom (text ++ (listLine name ++ more))
          (structureTokens true (Text.byteLength (text ++ listLine name)) more) := by
  obtain ⟨list, hlist, hfound⟩ := declarationsFrom_listLine hname
    (text ++ (listLine name ++ more)) true (Text.byteLength text) more
  refine ⟨list, hlist, ?_⟩
  rw [h.declarations_append, hfound, Text.byteLength_append]

include h hname in
/-- Whether the line of a list header stands behind a complete text without one or in front of it,
it is the first of its sort, and the other declarations are the same. -/
theorem Complete.sameOutline (hlists : listHeaders (declarations text) = []) :
    SameOutline (declarations (text ++ (listLine name ++ more)))
      (declarations (listLine name ++ (text ++ more))) := by
  obtain ⟨held, hheld⟩ := exists_map_of_listHeaders_eq_nil hlists
  obtain ⟨list, hlist, hbehind⟩ := h.declarations_append_listLine hname more
  obtain ⟨first, hfirst, hfront⟩ := complete_nil.declarations_append_listLine hname (text ++ more)
  rw [hheld] at hbehind
  rw [declarations_nil, List.nil_append, List.nil_append, List.nil_append] at hfront
  -- What follows both is read behind the same two pieces, in one order or the other.
  have hafter := Declaration.SameText.of_common
    (declarations_behind text more) (declarations_behind (text ++ listLine name) more)
  rw [List.append_assoc] at hafter
  have hlonger := declarations_behind (listLine name) (text ++ more)
  rw [h.declarations_append, hheld] at hlonger
  have hheldSame : List.Forall₂ Declaration.SameText (held.map .shape) (held.map .shape) :=
    List.forall₂_same.mpr fun declaration _ => .refl declaration
  have hrest := Declaration.SameText.of_common (List.rel_append hheldSame hafter) hlonger
  have hlater := listHeaders_sameText hrest
  rw [listHeaders_append, listHeaders_map_shape, List.nil_append] at hlater
  constructor
  · rw [hbehind, hfront, listHeaders_append, listHeaders_map_shape, List.nil_append,
      listHeaders_list, listHeaders_list]
    exact .cons (hlist.trans hfirst.symm) hlater
  · rw [hbehind, hfront, eraseP_map_append_list, List.eraseP_cons_of_pos rfl]
    exact hrest

end Place

/-- The list header may stand anywhere among the shapes: in front of complete ones or behind them,
the source has the same document, or is rejected by the same rule in the same words. -/
theorem parse_append_listLine {name text : Text} (hname : IsName name) (h : Complete text)
    (hlists : listHeaders (declarations text) = []) (more : Text) (fileName : Option Text) :
    (parse (text ++ (listLine name ++ more)) fileName).mapError Diagnostic.verdict =
      (parse (listLine name ++ (text ++ more)) fileName).mapError Diagnostic.verdict :=
  (h.sameOutline hname more hlists).mapError_parse fileName

/-- A square with its style block. -/
def squareLines : Text :=
  "Create Square Sq1(x:1) \x7b\n    Style \x7b color:red; \x7d\n\x7d\n".toList

theorem complete_squareLines : Complete squareLines where
  line := .inr ⟨"Create Square Sq1(x:1) \x7b\n    Style \x7b color:red; \x7d\n\x7d".toList, rfl⟩
  brace := by decide +kernel
  styled := by decide +kernel

/-- A scene with the list header between its two shapes. -/
theorem parse_append_listLine_squareLines :
    let name := ['B', 'o', 'a', 'r', 'd']
    let more := "Create Circle C1(r:2.5) \x7b\n    Style \x7b \x7d\n\x7d\n\x7d".toList
    IsName name ∧ Complete squareLines ∧ listHeaders (declarations squareLines) = [] ∧
      (parse (squareLines ++ (listLine name ++ more)) none).isOk ∧
      (parse (squareLines ++ (listLine name ++ more)) none).mapError Diagnostic.verdict =
        (parse (listLine name ++ (squareLines ++ more)) none).mapError Diagnostic.verdict := by
  intro name more
  have hname : IsName name := by decide
  have hlists : listHeaders (declarations squareLines) = [] := by decide +kernel
  exact ⟨hname, complete_squareLines, hlists, by decide +kernel,
    parse_append_listLine hname complete_squareLines hlists more none⟩

end SceneScript
