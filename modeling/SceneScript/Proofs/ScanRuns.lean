import SceneScript.Proofs.Lexing
import SceneScript.Proofs.Scanning

/-! # Runs of a scan

A cursor is a position in the significant tokens of a source. A move answers with the form at the
least position ahead and leaves the cursor behind it. Headers hold `Create` at their front alone, so
no two of them overlap, and a run of moves meets the source from front to back.
-/

namespace SceneScript

/-- What a move of the cursor may find. -/
inductive Construct where
  | header (found : Header)
  | style (found : StyleBlock)
  deriving DecidableEq, Repr

namespace Construct

/-- The tokens of a construct. -/
def Form (source : Text) (consumed : Tokens) : Construct → Prop
  | header found => Header.Form source consumed found
  | style found => StyleBlock.Form source consumed found

/-- The tokens from position `start` up to position `stop` are those of the construct. -/
def StandsAt (source : Text) (tokens : Tokens) (construct : Construct) (start stop : Nat) : Prop :=
  ∃ consumed, construct.Form source consumed ∧ consumed <+: tokens.drop start ∧
    stop = start + consumed.length

/-- The place of a header, or of what stands between the braces of a style block. -/
def span : Construct → Span
  | header (.list found) => found.span
  | header (.shape found) => found.span
  | style found => found.body.span

end Construct

/-- What was found, if anything was. -/
def ScanAnswer.found? : ScanAnswer → Option Construct
  | header found => found.map .header
  | style found => found.map .style

/-- A header starts at the position. -/
def HeaderAt (source : Text) (tokens : Tokens) (position : Nat) : Prop :=
  ∃ header stop, Construct.StandsAt source tokens (.header header) position stop

/-- A style block starts at the position. -/
def StyleAt (source : Text) (tokens : Tokens) (position : Nat) : Prop :=
  ∃ block stop, Construct.StandsAt source tokens (.style block) position stop

/-- What a move answers when the cursor stands at a position, and where it leaves the cursor. -/
inductive ScanStep.Answers (source : Text) (tokens : Tokens) (cursor : Nat) :
    ScanStep → ScanAnswer → Nat → Prop where
  | header {found : Header} {start stop : Nat}
      (stands : Construct.StandsAt source tokens (.header found) start stop)
      (ahead : cursor ≤ start)
      (least : ∀ i, cursor ≤ i → i < start → ¬ HeaderAt source tokens i) :
      Answers source tokens cursor .header (.header (some found)) stop
  | noHeader (exhausted : ∀ i, cursor ≤ i → ¬ HeaderAt source tokens i) :
      Answers source tokens cursor .header (.header none) tokens.length
  | style {found : StyleBlock} {start stop : Nat}
      (stands : Construct.StandsAt source tokens (.style found) start stop)
      (ahead : cursor ≤ start)
      (least : ∀ i, cursor ≤ i → i < start → ¬ StyleAt source tokens i)
      (first : ∀ i, cursor ≤ i → i ≤ start → ¬ HeaderAt source tokens i) :
      Answers source tokens cursor .style (.style (some found)) stop
  | noStyle {stop : Nat} (ahead : cursor ≤ stop) (inside : stop ≤ tokens.length)
      (skipped : ∀ i, cursor ≤ i → i < stop → ¬ HeaderAt source tokens i)
      (behind : ∀ i, cursor ≤ i → StyleAt source tokens i →
        ∃ j, cursor ≤ j ∧ j ≤ i ∧ HeaderAt source tokens j) :
      Answers source tokens cursor .style (.style none) stop

/-- A run of moves that takes the cursor from one position to another. -/
inductive Run (source : Text) (tokens : Tokens) :
    Nat → List ScanStep → List ScanAnswer → Nat → Prop where
  | done (cursor : Nat) : Run source tokens cursor [] [] cursor
  | move {cursor next stop : Nat} {step : ScanStep} {answer : ScanAnswer} {steps : List ScanStep}
      {answers : List ScanAnswer} (answered : step.Answers source tokens cursor answer next)
      (later : Run source tokens next steps answers stop) :
      Run source tokens cursor (step :: steps) (answer :: answers) stop

/-- No header holds a closing brace. -/
theorem Header.Form.ne_rightBrace {source : Text} {consumed : Tokens} {header : Header}
    (form : Header.Form source consumed header) :
    ∀ token ∈ consumed, token.value ≠ .rightBrace := by
  obtain ⟨first, more, rfl, hmore⟩ := Header.Form.eq_cons form
  intro token hmem
  rcases List.mem_cons.mp hmem with rfl | hmem
  · simp
  · exact (hmore token hmem).2.2

section Position

variable {source : Text} {tokens : Tokens} {construct : Construct} {start stop : Nat}

/-! ## Forms at positions -/

namespace Construct

theorem Form.ne_nil {consumed : Tokens} (form : construct.Form source consumed) :
    consumed ≠ [] := by
  cases construct with
  | header found =>
      obtain ⟨first, more, rfl, _⟩ := Header.Form.eq_cons form
      exact List.cons_ne_nil _ _
  | style found =>
      obtain ⟨keyword, inner, closing, rfl, _⟩ := StyleBlock.Form.eq_append form
      exact List.cons_ne_nil _ _

theorem StandsAt.drop_eq (h : construct.StandsAt source tokens start stop) :
    ∃ consumed, construct.Form source consumed ∧
      tokens.drop start = consumed ++ tokens.drop stop ∧ stop = start + consumed.length := by
  obtain ⟨consumed, form, ⟨rest, hrest⟩, rfl⟩ := h
  refine ⟨consumed, form, ?_, rfl⟩
  rw [← List.drop_drop, ← hrest, List.drop_left]

theorem StandsAt.start_lt_stop (h : construct.StandsAt source tokens start stop) :
    start < stop := by
  obtain ⟨consumed, form, _, rfl⟩ := h
  have hpos := List.length_pos_iff.mpr form.ne_nil
  omega

theorem StandsAt.stop_le_length (h : construct.StandsAt source tokens start stop) :
    stop ≤ tokens.length := by
  have hlt := h.start_lt_stop
  obtain ⟨consumed, _, hconsumed, rfl⟩ := h
  have hle := hconsumed.length_le
  rw [List.length_drop] at hle
  omega

theorem exists_standsAt_of_drop_eq (construct : Construct) {consumed rest : Tokens}
    (form : construct.Form source consumed) (h : tokens.drop start = consumed ++ rest) :
    ∃ stop, construct.StandsAt source tokens start stop ∧ rest = tokens.drop stop := by
  refine ⟨start + consumed.length, ⟨consumed, form, ⟨rest, h.symm⟩, rfl⟩, ?_⟩
  rw [← List.drop_drop, h, List.drop_left]

end Construct

theorem exists_standsAt_of_headerMatch? {header : Header} {rest : Tokens}
    (h : Header.match? source (tokens.drop start) = some (header, rest)) :
    ∃ stop, Construct.StandsAt source tokens (.header header) start stop ∧
      rest = tokens.drop stop := by
  obtain ⟨consumed, form, htokens⟩ := Header.match?_eq_some_iff.mp h
  exact Construct.exists_standsAt_of_drop_eq (.header header) form htokens

theorem headerMatch?_of_standsAt {header : Header}
    (h : Construct.StandsAt source tokens (.header header) start stop) :
    Header.match? source (tokens.drop start) = some (header, tokens.drop stop) := by
  obtain ⟨consumed, form, htokens, _⟩ := h.drop_eq
  exact Header.match?_eq_some_iff.mpr ⟨consumed, form, htokens⟩

theorem exists_standsAt_of_styleMatch? {block : StyleBlock} {rest : Tokens}
    (h : StyleBlock.match? source (tokens.drop start) = some (block, rest)) :
    ∃ stop, Construct.StandsAt source tokens (.style block) start stop ∧
      rest = tokens.drop stop := by
  obtain ⟨consumed, form, htokens⟩ := StyleBlock.match?_eq_some_iff.mp h
  exact Construct.exists_standsAt_of_drop_eq (.style block) form htokens

theorem styleMatch?_of_standsAt {block : StyleBlock}
    (h : Construct.StandsAt source tokens (.style block) start stop) :
    StyleBlock.match? source (tokens.drop start) = some (block, tokens.drop stop) := by
  obtain ⟨consumed, form, htokens, _⟩ := h.drop_eq
  exact StyleBlock.match?_eq_some_iff.mpr ⟨consumed, form, htokens⟩

/-- One header at most starts at a position. -/
theorem header_unique {header other : Header} {otherStop : Nat}
    (h : Construct.StandsAt source tokens (.header header) start stop)
    (hother : Construct.StandsAt source tokens (.header other) start otherStop) :
    header = other ∧ stop = otherStop := by
  have hmatch := (headerMatch?_of_standsAt h).symm.trans (headerMatch?_of_standsAt hother)
  obtain ⟨hheader, hrest⟩ := Prod.mk.inj (Option.some.inj hmatch)
  refine ⟨hheader, ?_⟩
  have hlength := congrArg List.length hrest
  have hstop := h.stop_le_length
  have hotherStop := hother.stop_le_length
  rw [List.length_drop, List.length_drop] at hlength
  omega

/-! ## Positions inside a form -/

theorem exists_token_of_lt {consumed rest : Tokens} (h : tokens.drop start = consumed ++ rest)
    (count : Nat) (hcount : count < consumed.length) :
    ∃ token more, tokens.drop (start + count) = token :: more ∧ token ∈ consumed.drop count := by
  have hdrop : tokens.drop (start + count) = consumed.drop count ++ rest := by
    rw [← List.drop_drop, h, List.drop_append_of_le_length (by omega)]
  rw [hdrop, List.drop_eq_getElem_cons hcount, List.cons_append]
  exact ⟨_, _, rfl, List.mem_cons_self⟩

theorem HeaderAt.eq_create {token : Spanned Token} {more : Tokens}
    (h : HeaderAt source tokens start) (htokens : tokens.drop start = token :: more) :
    token.value = .create := by
  obtain ⟨header, stop, hstands⟩ := h
  obtain ⟨consumed, form, hdrop, _⟩ := hstands.drop_eq
  obtain ⟨first, inner, rfl, _⟩ := Header.Form.eq_cons form
  rw [htokens] at hdrop
  exact congrArg Spanned.value (List.cons.inj hdrop).1

/-- No header starts inside another one. -/
theorem not_headerAt_inside {header : Header} {position : Nat}
    (h : Construct.StandsAt source tokens (.header header) start stop)
    (hstart : start < position) (hstop : position < stop) : ¬ HeaderAt source tokens position := by
  intro hother
  obtain ⟨consumed, form, hdrop, hlength⟩ := h.drop_eq
  obtain ⟨count, rfl⟩ := Nat.exists_eq_add_of_lt hstart
  obtain ⟨token, more, htokens, hmem⟩ := exists_token_of_lt hdrop (count + 1) (by omega)
  obtain ⟨first, inner, rfl, hinner⟩ := Header.Form.eq_cons form
  exact (hinner token (List.mem_of_mem_drop hmem)).1 (hother.eq_create htokens)

/-- A header that starts inside a style block ends inside it: the block goes on up to a closing
brace, and no header holds one. -/
theorem stop_lt_of_header_inside {header : Header} {block : StyleBlock} {first last : Nat}
    (h : Construct.StandsAt source tokens (.header header) start stop)
    (hblock : Construct.StandsAt source tokens (.style block) first last)
    (hlast : start < last) : stop < last := by
  by_contra hle
  obtain ⟨consumed, form, hdrop, hlength⟩ := hblock.drop_eq
  obtain ⟨others, otherForm, hotherDrop, hotherLength⟩ := h.drop_eq
  obtain ⟨keyword, inner, closing, hmarks, _⟩ := StyleBlock.Form.eq_append form
  have hend : last = first + (inner.length + 1) + 1 := by
    rw [hlength, hmarks, List.length_append, List.length_cons, List.length_singleton]
    omega
  -- The token in front of `last` is the brace, and it would belong to the header as well.
  have hbrace : tokens.drop (first + (inner.length + 1)) =
      ⟨.rightBrace, closing⟩ :: tokens.drop last := by
    rw [← List.drop_drop, hdrop, hmarks, List.append_assoc]
    exact List.drop_left
  have hbefore : start ≤ first + (inner.length + 1) := by omega
  obtain ⟨count, hcount⟩ := Nat.exists_eq_add_of_le hbefore
  obtain ⟨token, more, htokens, hmem⟩ := exists_token_of_lt hotherDrop count (by omega)
  rw [← hcount, hbrace] at htokens
  obtain rfl := (List.cons.inj htokens).1
  exact Header.Form.ne_rightBrace otherForm _ (List.mem_of_mem_drop hmem) rfl

/-! ## One move -/

theorem not_headerAt_of_match? (h : Header.match? source (tokens.drop start) = none) :
    ¬ HeaderAt source tokens start := by
  rintro ⟨header, stop, hstands⟩
  rw [headerMatch?_of_standsAt hstands] at h
  cases h

theorem not_styleAt_of_match? (h : StyleBlock.match? source (tokens.drop start) = none) :
    ¬ StyleAt source tokens start := by
  rintro ⟨block, stop, hstands⟩
  rw [styleMatch?_of_standsAt hstands] at h
  cases h

theorem HeaderAt.lt_length (h : HeaderAt source tokens start) : start < tokens.length := by
  obtain ⟨header, stop, hstands⟩ := h
  exact Nat.lt_of_lt_of_le hstands.start_lt_stop hstands.stop_le_length

theorem StyleAt.lt_length (h : StyleAt source tokens start) : start < tokens.length := by
  obtain ⟨block, stop, hstands⟩ := h
  exact Nat.lt_of_lt_of_le hstands.start_lt_stop hstands.stop_le_length

/-- What holds at the cursor and behind it holds from the cursor on. -/
theorem forall_from_cursor {P : Nat → Prop} {cursor : Nat} (h : P cursor)
    (hlater : ∀ i, cursor + 1 ≤ i → P i) : ∀ i, cursor ≤ i → P i := by
  intro i hi
  rcases Nat.eq_or_lt_of_le hi with rfl | hlt
  · exact h
  · exact hlater i hlt

/-- The next header stands at the least position ahead where one stands. -/
theorem nextHeader_position (source : Text) (tokens : Tokens) (cursor : Nat) :
    (∃ header start stop, nextHeader source (tokens.drop cursor) = some (header, tokens.drop stop) ∧
      Construct.StandsAt source tokens (.header header) start stop ∧ cursor ≤ start ∧
        ∀ i, cursor ≤ i → i < start → ¬ HeaderAt source tokens i) ∨
      nextHeader source (tokens.drop cursor) = none ∧
        ∀ i, cursor ≤ i → ¬ HeaderAt source tokens i := by
  generalize hahead : tokens.drop cursor = ahead
  induction ahead generalizing cursor with
  | nil =>
      refine .inr ⟨rfl, ?_⟩
      intro i hi hheader
      have hlength := List.drop_eq_nil_iff.mp hahead
      have hlt := hheader.lt_length
      omega
  | cons token more ih =>
      have hmore : tokens.drop (cursor + 1) = more := by
        rw [← List.drop_drop, hahead]
        rfl
      cases hmatch : Header.match? source (token :: more) with
      | some found =>
          obtain ⟨header, rest⟩ := found
          rw [nextHeader_of_match? hmatch]
          rw [← hahead] at hmatch
          obtain ⟨stop, hstands, rfl⟩ := exists_standsAt_of_headerMatch? hmatch
          exact .inl ⟨header, cursor, stop, rfl, hstands, Nat.le_refl _, by omega⟩
      | none =>
          rw [nextHeader_cons_of_match? hmatch]
          rw [← hahead] at hmatch
          have hcursor := not_headerAt_of_match? hmatch
          rcases ih (cursor + 1) hmore with
            ⟨header, start, stop, hnext, hstands, hle, hleast⟩ | ⟨hnext, hnone⟩
          · exact .inl ⟨header, start, stop, hnext, hstands, by omega,
              forall_from_cursor (fun _ => hcursor) hleast⟩
          · exact .inr ⟨hnext, forall_from_cursor hcursor hnone⟩

/-- A move that skips the position at the cursor, where nothing stands that it looks for, answers
as it does from the next position on. -/
theorem ScanStep.Answers.of_succ {cursor next : Nat} {step : ScanStep} {answer : ScanAnswer}
    (h : step.Answers source tokens (cursor + 1) answer next)
    (hheader : ¬ HeaderAt source tokens cursor)
    (hstyle : step = .style → ¬ StyleAt source tokens cursor) :
    step.Answers source tokens cursor answer next := by
  cases h with
  | header stands ahead least =>
      exact .header stands (Nat.le_of_lt ahead) (forall_from_cursor (fun _ => hheader) least)
  | noHeader exhausted => exact .noHeader (forall_from_cursor hheader exhausted)
  | style stands ahead least first =>
      exact .style stands (Nat.le_of_lt ahead) (forall_from_cursor (fun _ => hstyle rfl) least)
        (forall_from_cursor (fun _ => hheader) first)
  | noStyle ahead inside skipped behind =>
      refine .noStyle (Nat.le_of_lt ahead) inside (forall_from_cursor (fun _ => hheader) skipped) ?_
      apply forall_from_cursor
      · exact fun hat => absurd hat (hstyle rfl)
      · intro i hi hat
        obtain ⟨j, hj, hji, hjat⟩ := behind i hi hat
        exact ⟨j, Nat.le_of_succ_le hj, hji, hjat⟩

/-- Looking for a style block answers with the one at the least position ahead where one stands,
and with none when every block ahead has a header in front of it. -/
theorem findStyle_answers (source : Text) {tokens : Tokens} {cursor : Nat}
    (hcursor : cursor ≤ tokens.length) :
    ∃ next, (findStyle source (tokens.drop cursor)).2 = tokens.drop next ∧
      ScanStep.style.Answers source tokens cursor
        (.style (findStyle source (tokens.drop cursor)).1) next := by
  generalize hahead : tokens.drop cursor = ahead
  induction ahead generalizing cursor with
  | nil =>
      refine ⟨cursor, hahead.symm, .noStyle (Nat.le_refl _) hcursor (by omega) ?_⟩
      intro i hi hstyle
      have hlength := List.drop_eq_nil_iff.mp hahead
      have hlt := hstyle.lt_length
      omega
  | cons token more ih =>
      have hmore : tokens.drop (cursor + 1) = more := by
        rw [← List.drop_drop, hahead]
        rfl
      have hlt : cursor < tokens.length := by
        by_contra hle
        rw [List.drop_eq_nil_of_le (by omega)] at hahead
        cases hahead
      cases hheader : Header.match? source (token :: more) with
      | some found =>
          obtain ⟨header, rest⟩ := found
          rw [findStyle, hheader]
          rw [← hahead] at hheader ⊢
          obtain ⟨stop, hstands, _⟩ := exists_standsAt_of_headerMatch? hheader
          refine ⟨cursor, rfl, .noStyle (Nat.le_refl _) hcursor (by omega) ?_⟩
          intro i hi _
          exact ⟨cursor, Nat.le_refl _, hi, header, stop, hstands⟩
      | none =>
          have hnone := hheader
          rw [← hahead] at hnone
          have hheaderAt := not_headerAt_of_match? hnone
          cases hstyle : StyleBlock.match? source (token :: more) with
          | some found =>
              obtain ⟨block, rest⟩ := found
              rw [findStyle_of_match? hstyle]
              rw [← hahead] at hstyle
              obtain ⟨stop, hstands, rfl⟩ := exists_standsAt_of_styleMatch? hstyle
              refine ⟨stop, rfl, .style hstands (Nat.le_refl _) (by omega) ?_⟩
              intro i hi hle
              obtain rfl := Nat.le_antisymm hi hle
              exact hheaderAt
          | none =>
              rw [findStyle_cons_of_match? hheader hstyle]
              rw [← hahead] at hstyle
              obtain ⟨next, hrest, hanswers⟩ := ih hlt hmore
              exact ⟨next, hrest, hanswers.of_succ hheaderAt
                fun _ => not_styleAt_of_match? hstyle⟩

/-- Every move answers as it should. -/
theorem ScanStep.take_answers (source : Text) {tokens : Tokens} {cursor : Nat}
    (hcursor : cursor ≤ tokens.length) (step : ScanStep) :
    ∃ next, (step.take source (tokens.drop cursor)).2 = tokens.drop next ∧
      step.Answers source tokens cursor (step.take source (tokens.drop cursor)).1 next := by
  cases step with
  | header =>
      rcases nextHeader_position source tokens cursor with
        ⟨header, start, stop, hnext, hstands, hle, hleast⟩ | ⟨hnext, hnone⟩
      · rw [take, hnext]
        exact ⟨stop, rfl, .header hstands hle hleast⟩
      · rw [take, hnext]
        exact ⟨tokens.length, List.drop_length.symm, .noHeader hnone⟩
  | style => exact findStyle_answers source hcursor

end Position

/-! ## Runs -/

/-- A construct with the positions of its first token and of the token behind it. -/
structure Placed where
  construct : Construct
  start : Nat
  stop : Nat
  deriving DecidableEq, Repr

def Placed.Stands (source : Text) (tokens : Tokens) (placed : Placed) : Prop :=
  placed.construct.StandsAt source tokens placed.start placed.stop

section Run

variable {source : Text} {tokens : Tokens} {cursor stop : Nat} {steps : List ScanStep}
  {answers : List ScanAnswer}

theorem scanSteps_cons (source : Text) (step : ScanStep) (steps : List ScanStep)
    (tokens : Tokens) :
    scanSteps source (step :: steps) tokens =
      (step.take source tokens).1 :: scanSteps source steps (step.take source tokens).2 :=
  rfl

theorem ScanStep.Answers.le_next {step : ScanStep} {answer : ScanAnswer} {next : Nat}
    (h : step.Answers source tokens cursor answer next) (hcursor : cursor ≤ tokens.length) :
    cursor ≤ next ∧ next ≤ tokens.length := by
  cases h with
  | header stands ahead _ =>
      exact ⟨by have := stands.start_lt_stop; omega, stands.stop_le_length⟩
  | noHeader _ => exact ⟨hcursor, Nat.le_refl _⟩
  | style stands ahead _ _ =>
      exact ⟨by have := stands.start_lt_stop; omega, stands.stop_le_length⟩
  | noStyle ahead inside _ _ => exact ⟨ahead, inside⟩

theorem exists_run (source : Text) {tokens : Tokens} {cursor : Nat}
    (hcursor : cursor ≤ tokens.length) (steps : List ScanStep) :
    ∃ stop, Run source tokens cursor steps (scanSteps source steps (tokens.drop cursor)) stop := by
  induction steps generalizing cursor with
  | nil => exact ⟨cursor, .done cursor⟩
  | cons step steps ih =>
      obtain ⟨next, hrest, hanswers⟩ := step.take_answers source hcursor
      obtain ⟨stop, hlater⟩ := ih (hanswers.le_next hcursor).2
      rw [scanSteps_cons, hrest]
      exact ⟨stop, .move hanswers hlater⟩

/-- What a move finds stands between the places where the cursor was and is. -/
theorem ScanStep.Answers.placed {step : ScanStep} {answer : ScanAnswer} {next : Nat}
    (h : step.Answers source tokens cursor answer next) :
    answer.found? = none ∨ ∃ construct start, answer.found? = some construct ∧
      construct.StandsAt source tokens start next ∧ cursor ≤ start := by
  cases h with
  | header stands ahead _ => exact .inr ⟨_, _, rfl, stands, ahead⟩
  | noHeader _ => exact .inl rfl
  | style stands ahead _ _ => exact .inr ⟨_, _, rfl, stands, ahead⟩
  | noStyle _ _ _ _ => exact .inl rfl

/-- What a run finds stands at disjoint places, in the order in which it is found. -/
theorem Run.placed (h : Run source tokens cursor steps answers stop)
    (hcursor : cursor ≤ tokens.length) :
    ∃ placed : List Placed, placed.map (·.construct) = answers.filterMap (·.found?) ∧
      (∀ found ∈ placed, found.Stands source tokens ∧ cursor ≤ found.start) ∧
        placed.Pairwise fun a b => a.stop ≤ b.start := by
  induction h with
  | done cursor => exact ⟨[], rfl, by simp, .nil⟩
  | @move cursor next stop step answer steps answers answered later ih =>
      obtain ⟨hnext, hlength⟩ := answered.le_next hcursor
      obtain ⟨placed, hmap, hstands, hpairwise⟩ := ih hlength
      have hlater : ∀ found ∈ placed, found.Stands source tokens ∧ cursor ≤ found.start := by
        intro found hmem
        exact ⟨(hstands found hmem).1, Nat.le_trans hnext (hstands found hmem).2⟩
      rcases answered.placed with hnone | ⟨construct, start, hsome, hat, hle⟩
      · refine ⟨placed, ?_, hlater, hpairwise⟩
        rw [List.filterMap_cons_none hnone, hmap]
      · refine ⟨⟨construct, start, next⟩ :: placed, ?_, ?_, ?_⟩
        · rw [List.map_cons, List.filterMap_cons_some hsome, hmap]
        · exact List.forall_mem_cons.mpr ⟨⟨hat, hle⟩, hlater⟩
        · exact List.pairwise_cons.mpr ⟨fun found hmem => (hstands found hmem).2, hpairwise⟩

/-- A header that a run passes is found by it, or stands inside a style block that is found. -/
theorem Run.header_met (h : Run source tokens cursor steps answers stop) {header : Header}
    {first last : Nat} (hstands : Construct.StandsAt source tokens (.header header) first last)
    (hcursor : cursor ≤ first) (hstop : first < stop) :
    .header header ∈ answers.filterMap (·.found?) ∨
      ∃ block start stop, .style block ∈ answers.filterMap (·.found?) ∧
        Construct.StandsAt source tokens (.style block) start stop ∧ start < first ∧
          last < stop := by
  have hat : HeaderAt source tokens first := ⟨header, last, hstands⟩
  induction h with
  | done cursor => omega
  | @move cursor next stop step answer steps answers answered later ih =>
      have hpassed : next ≤ first →
          .header header ∈ (answer :: answers).filterMap (·.found?) ∨
            ∃ block start stop, .style block ∈ (answer :: answers).filterMap (·.found?) ∧
              Construct.StandsAt source tokens (.style block) start stop ∧ start < first ∧
                last < stop := by
        intro hnext
        have hsub : answers.filterMap (·.found?) ⊆ (answer :: answers).filterMap (·.found?) :=
          ((List.sublist_cons_self answer answers).filterMap _).subset
        rcases ih hnext hstop with hmem | ⟨block, start, stop, hmem, hblock⟩
        · exact .inl (hsub hmem)
        · exact .inr ⟨block, start, stop, hsub hmem, hblock⟩
      -- The move passes no header but the one that it finds and those in the block that it finds.
      cases answered with
      | @header found start _ stands ahead least =>
          rcases Nat.lt_trichotomy first start with hlt | rfl | hlt
          · exact absurd hat (least first hcursor hlt)
          · rw [(header_unique hstands stands).1]
            exact .inl List.mem_cons_self
          · by_cases hnext : next ≤ first
            · exact hpassed hnext
            · exact absurd hat (not_headerAt_inside stands hlt (by omega))
      | noHeader exhausted => exact absurd hat (exhausted first hcursor)
      | @style found start _ stands ahead least earlier =>
          by_cases hstart : first ≤ start
          · exact absurd hat (earlier first hcursor hstart)
          · by_cases hnext : next ≤ first
            · exact hpassed hnext
            · refine .inr ⟨found, start, next, List.mem_cons_self, stands, by omega, ?_⟩
              exact stop_lt_of_header_inside hstands stands (by omega)
      | noStyle ahead inside skipped behind =>
          by_cases hnext : next ≤ first
          · exact hpassed hnext
          · exact absurd hat (skipped first hcursor (by omega))

/-- Everything that a scan finds has its form in the source. -/
theorem exists_form_of_mem_scan {construct : Construct}
    (h : construct ∈ (scan source steps).filterMap (·.found?)) :
    ∃ skipped consumed rest, construct.Form source consumed ∧
      significantTokens source = skipped ++ (consumed ++ rest) := by
  obtain ⟨stop, hrun⟩ := exists_run source (Nat.zero_le _) steps
  obtain ⟨placed, hmap, hstands, _⟩ := hrun.placed (Nat.zero_le _)
  rw [scan, ← List.drop_zero (l := significantTokens source), ← hmap] at h
  obtain ⟨found, hmem, rfl⟩ := List.mem_map.mp h
  obtain ⟨consumed, form, hdrop, _⟩ := (hstands found hmem).1.drop_eq
  refine ⟨(significantTokens source).take found.start, consumed,
    (significantTokens source).drop found.stop, form, ?_⟩
  rw [← hdrop, List.take_append_drop]

end Run

/-! ## The order in the source -/

/-- The tokens follow one another in the source, and none of them is empty. -/
structure Tokens.InOrder (tokens : Tokens) : Prop where
  pairwise : tokens.Pairwise fun a b => a.span.stop ≤ b.span.start
  nonempty : ∀ token ∈ tokens, token.span.start < token.span.stop

section Order

variable {source : Text} {tokens consumed : Tokens}

theorem Tokens.InOrder.of_sublist {part : Tokens} (h : tokens.InOrder)
    (hpart : part.Sublist tokens) : part.InOrder where
  pairwise := h.pairwise.sublist hpart
  nonempty := fun token hmem => h.nonempty token (hpart.subset hmem)

theorem lexFrom_inOrder (lineStart : Bool) (offset : Nat) (text : Text) :
    Tokens.InOrder (lexFrom lineStart offset text) where
  pairwise := pairwise_lexFrom lineStart offset text
  nonempty := fun _ hmem => nonempty_of_mem_lexFrom hmem

theorem significantTokens_inOrder (source : Text) :
    Tokens.InOrder (significantTokens source) :=
  (lexFrom_inOrder true 0 source).of_sublist List.filter_sublist

/-- A header spans from its first token to its last. -/
theorem Header.Form.exists_span {header : Header} (form : Header.Form source consumed header) :
    ∃ first inner last, consumed = first :: (inner ++ [last]) ∧
      (Construct.header header).span = first.span.union last.span := by
  cases form with
  | list form =>
      obtain ⟨first, keyword, opening, closing, last, name⟩ := form
      exact ⟨_, [_, _, _, _], _, rfl, rfl⟩
  | shape form =>
      obtain ⟨first, opening, closing, last, kind, name, inner, _, _⟩ := form
      refine ⟨⟨.create, first⟩, ⟨.identifier kind.value, kind.span⟩ :: (nameTokens name ++
        ⟨.leftParen, opening⟩ :: (inner ++ [⟨.rightParen, closing⟩])), ⟨.leftBrace, last⟩, ?_, rfl⟩
      simp

/-- A construct starts in one of its tokens and ends in one of them. -/
theorem Construct.Form.span_bounds {construct : Construct}
    (form : construct.Form source consumed) (h : consumed.InOrder) :
    (∃ token ∈ consumed, token.span.start ≤ construct.span.start) ∧
      ∃ token ∈ consumed, construct.span.start < token.span.stop ∧
        construct.span.stop ≤ token.span.stop := by
  cases construct with
  | header found =>
      obtain ⟨first, inner, last, rfl, hspan⟩ := Header.Form.exists_span form
      have hlast : last ∈ first :: (inner ++ [last]) := by simp
      have hle := (List.pairwise_cons.mp h.pairwise).1 last (by simp)
      have hfirst := h.nonempty first List.mem_cons_self
      have hpos := h.nonempty last hlast
      rw [hspan]
      refine ⟨⟨first, List.mem_cons_self, ?_⟩, last, hlast, ?_, ?_⟩
      · simp only [Span.union]
        omega
      · simp only [Span.union]
        omega
      · simp only [Span.union]
        omega
  | style found =>
      obtain ⟨keyword, opening, closing, inner, _⟩ := form
      have hclosing : ⟨.rightBrace, closing⟩ ∈
          inner ++ [(⟨.rightBrace, closing⟩ : Spanned Token)] :=
        List.mem_append_right _ List.mem_cons_self
      have hlater := (List.pairwise_cons.mp h.pairwise).2
      have hle := (List.pairwise_cons.mp hlater).1 _ hclosing
      have hpos := h.nonempty _ (List.mem_cons_of_mem _ (List.mem_cons_of_mem _ hclosing))
      simp only at hle hpos
      refine ⟨⟨⟨.leftBrace, opening⟩, by simp, opening.start_le_stop⟩,
        ⟨.rightBrace, closing⟩, by simp, ?_, ?_⟩
      · simp only [Construct.span, Spanned.slice, Span.between]
        omega
      · simp only [Construct.span, Spanned.slice, Span.between]
        omega

/-- What stands at earlier positions stands at earlier places of the source. -/
theorem Placed.span_lt {a b : Placed} (h : tokens.InOrder) (ha : a.Stands source tokens)
    (hb : b.Stands source tokens) (hab : a.stop ≤ b.start) :
    a.construct.span.start < b.construct.span.start ∧
      a.construct.span.stop ≤ b.construct.span.start := by
  obtain ⟨front, form, hfront, _⟩ := ha.drop_eq
  obtain ⟨back, otherForm, hback, _⟩ := hb.drop_eq
  have hbetween := List.take_append_drop (b.start - a.stop) (tokens.drop a.stop)
  rw [List.drop_drop, Nat.add_sub_cancel' hab, hback] at hbetween
  have hordered := h.of_sublist (List.drop_sublist a.start tokens)
  rw [hfront, ← hbetween] at hordered
  have hfrontOrdered := hordered.of_sublist (List.sublist_append_left _ _)
  have hbackOrdered := hordered.of_sublist ((List.sublist_append_left _ _).trans
    ((List.sublist_append_right _ _).trans (List.sublist_append_right _ _)))
  obtain ⟨_, token, hmem, hstart, hstop⟩ := form.span_bounds hfrontOrdered
  obtain ⟨⟨other, hother, hle⟩, _⟩ := otherForm.span_bounds hbackOrdered
  have hlt := (List.pairwise_append.mp hordered.pairwise).2.2 token hmem other (by simp [hother])
  omega

end Order

/-! ## Moves that find nothing, and headers alone -/

section Alone

variable {source : Text} {tokens : Tokens}

/-- When no style block is found, the next header stays the same. -/
theorem nextHeader_of_findStyle (h : (findStyle source tokens).1 = none) :
    nextHeader source (findStyle source tokens).2 = nextHeader source tokens := by
  induction tokens with
  | nil => rfl
  | cons token more ih =>
      cases hheader : Header.match? source (token :: more) with
      | some found => rw [findStyle, hheader, Option.isSome_some, if_pos rfl]
      | none =>
          cases hstyle : StyleBlock.match? source (token :: more) with
          | some found =>
              rw [findStyle_of_match? hstyle] at h
              cases h
          | none =>
              rw [findStyle_cons_of_match? hheader hstyle] at h ⊢
              rw [nextHeader_cons_of_match? hheader]
              exact ih h

/-- After any moves, the moves that follow go on from where the cursor is. -/
theorem exists_scanSteps_append (source : Text) (steps : List ScanStep) (tokens : Tokens) :
    ∃ rest, ∀ more, scanSteps source (steps ++ more) tokens =
      scanSteps source steps tokens ++ scanSteps source more rest := by
  induction steps generalizing tokens with
  | nil => exact ⟨tokens, fun _ => rfl⟩
  | cons step steps ih =>
      obtain ⟨rest, hrest⟩ := ih (step.take source tokens).2
      refine ⟨rest, ?_⟩
      intro more
      rw [List.cons_append, scanSteps_cons, scanSteps_cons, hrest, List.cons_append]

theorem scan_style_header {steps : List ScanStep}
    (h : (scan source (steps ++ [.style])).getLast? = some (.style none)) :
    (scan source (steps ++ [.style, .header])).getLast? =
      (scan source (steps ++ [.header])).getLast? := by
  obtain ⟨rest, happend⟩ := exists_scanSteps_append source steps (significantTokens source)
  have hnone : (findStyle source rest).1 = none := by
    rw [scan, happend, List.getLast?_append] at h
    exact ScanAnswer.style.inj (Option.some.inj h)
  have hnext := nextHeader_of_findStyle hnone
  rw [scan, scan, happend, happend, List.getLast?_append, List.getLast?_append]
  simp only [scanSteps, ScanStep.take, hnext]
  cases nextHeader source rest <;> rfl

theorem scanSteps_replicate_nil (source : Text) (count : Nat) :
    scanSteps source (List.replicate count .header) [] =
      (List.range count).map fun _ => .header none := by
  induction count with
  | zero => rfl
  | succ count ih =>
      rw [List.replicate_succ, scanSteps_cons, List.range_succ_eq_map, List.map_cons, List.map_map]
      exact congrArg _ ih

/-- The headers from a position on can be listed in order, and moving from header to header goes
through the list. -/
theorem exists_headers (source : Text) (tokens : Tokens) (cursor : Nat) :
    ∃ headers : List (Header × Nat × Nat),
      (∀ header start stop, (header, start, stop) ∈ headers ↔
        cursor ≤ start ∧ Construct.StandsAt source tokens (.header header) start stop) ∧
      headers.Pairwise (fun a b => a.2.2 ≤ b.2.1) ∧
      ∀ count, scanSteps source (List.replicate count .header) (tokens.drop cursor) =
        (List.range count).map fun i => .header (headers[i]?.map Prod.fst) := by
  induction hlength : tokens.length - cursor using Nat.strongRecOn generalizing cursor with
  | ind length ih =>
      rcases nextHeader_position source tokens cursor with
        ⟨header, start, stop, hnext, hstands, hle, hleast⟩ | ⟨hnext, hnone⟩
      · have hlt := hstands.start_lt_stop
        have hstop := hstands.stop_le_length
        obtain ⟨headers, hmem, hpairwise, hscan⟩ := ih (tokens.length - stop) (by omega) stop rfl
        refine ⟨(header, start, stop) :: headers, ?_, ?_, ?_⟩
        · intro other first last
          rw [List.mem_cons, hmem]
          constructor
          · rintro (heq | ⟨hfirst, hother⟩)
            · obtain ⟨rfl, rfl, rfl⟩ := heq
              exact ⟨hle, hstands⟩
            · exact ⟨by omega, hother⟩
          · rintro ⟨hfirst, hother⟩
            have hat : HeaderAt source tokens first := ⟨other, last, hother⟩
            rcases Nat.lt_trichotomy first start with hbefore | rfl | hafter
            · exact absurd hat (hleast first hfirst hbefore)
            · obtain ⟨rfl, rfl⟩ := header_unique hstands hother
              exact .inl rfl
            · by_cases hinside : first < stop
              · exact absurd hat (not_headerAt_inside hstands hafter hinside)
              · exact .inr ⟨by omega, hother⟩
        · refine List.pairwise_cons.mpr ⟨?_, hpairwise⟩
          rintro ⟨other, first, last⟩ hother
          exact ((hmem other first last).mp hother).1
        · intro count
          cases count with
          | zero => rfl
          | succ count =>
              rw [List.replicate_succ, scanSteps_cons, ScanStep.take, hnext, List.range_succ_eq_map,
                List.map_cons, List.map_map]
              exact congrArg _ (hscan count)
      · refine ⟨[], ?_, .nil, ?_⟩
        · intro other first last
          constructor
          · simp
          · rintro ⟨hfirst, hother⟩
            exact absurd ⟨other, last, hother⟩ (hnone first hfirst)
        · intro count
          cases count with
          | zero => rfl
          | succ count =>
              rw [List.replicate_succ, scanSteps_cons, ScanStep.take, hnext, List.range_succ_eq_map,
                List.map_cons, List.map_map]
              exact congrArg _ (scanSteps_replicate_nil source count)

end Alone

/-- Any sequence of moves answers with what stands least ahead of the cursor, at disjoint places of
the source in their order, and passes no header that it does not find, other than inside a style
block. A move that finds no style block leaves the next header as it was, and moves to headers alone
go through all of them. -/
theorem scan_answers_in_order (source : Text) :
    (∀ steps, ∃ stop, Run source (significantTokens source) 0 steps (scan source steps) stop ∧
      ∀ header first last,
        Construct.StandsAt source (significantTokens source) (.header header) first last →
        first < stop →
        .header header ∈ (scan source steps).filterMap (·.found?) ∨
          ∃ block start stop, .style block ∈ (scan source steps).filterMap (·.found?) ∧
            Construct.StandsAt source (significantTokens source) (.style block) start stop ∧
              start < first ∧ last < stop) ∧
    (∀ steps, ∃ placed : List Placed,
      placed.map (·.construct) = (scan source steps).filterMap (·.found?) ∧
      (∀ found ∈ placed, found.Stands source (significantTokens source)) ∧
      placed.Pairwise fun a b => a.stop ≤ b.start ∧
        a.construct.span.start < b.construct.span.start ∧
          a.construct.span.stop ≤ b.construct.span.start) ∧
    (∀ steps, (scan source (steps ++ [.style])).getLast? = some (.style none) →
      (scan source (steps ++ [.style, .header])).getLast? =
        (scan source (steps ++ [.header])).getLast?) ∧
    ∃ headers : List (Header × Nat × Nat),
      (∀ header start stop, (header, start, stop) ∈ headers ↔
        Construct.StandsAt source (significantTokens source) (.header header) start stop) ∧
      headers.Pairwise (fun a b => a.2.2 ≤ b.2.1) ∧
      ∀ count, scan source (List.replicate count .header) =
        (List.range count).map fun i => .header (headers[i]?.map Prod.fst) := by
  refine ⟨?_, ?_, fun steps h => scan_style_header h, ?_⟩
  · intro steps
    obtain ⟨stop, hrun⟩ := exists_run source (Nat.zero_le _) steps
    refine ⟨stop, hrun, ?_⟩
    intro header first last hstands hstop
    exact hrun.header_met hstands (Nat.zero_le _) hstop
  · intro steps
    obtain ⟨stop, hrun⟩ := exists_run source (Nat.zero_le _) steps
    obtain ⟨placed, hmap, hstands, hpairwise⟩ := hrun.placed (Nat.zero_le _)
    refine ⟨placed, hmap, fun found hmem => (hstands found hmem).1, ?_⟩
    apply hpairwise.imp_of_mem
    intro a b ha hb hab
    exact ⟨hab, Placed.span_lt (significantTokens_inOrder source) (hstands a ha).1
      (hstands b hb).1 hab⟩
  · obtain ⟨headers, hmem, hpairwise, hscan⟩ := exists_headers source (significantTokens source) 0
    refine ⟨headers, ?_, hpairwise, hscan⟩
    intro header start stop
    rw [hmem]
    exact and_iff_right (Nat.zero_le _)

end SceneScript
