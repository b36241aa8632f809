import Criteria.Proofs.Filter.RoundTrip

set_option autoImplicit false

namespace Criteria.Grammar

section

variable {ts us : List Token}

theorem tokens_around {vs : List Token} {x : Lexeme} {p : Position}
    (same : lexemes us = lexemes (ts ++ ⟨x, p⟩ :: vs)) :
    ∃ q before behind, us = before ++ ⟨x, q⟩ :: behind ∧ lexemes before = lexemes ts ∧
      lexemes behind = lexemes vs := by
  rw [lexemes_append, lexemes_cons] at same
  exact lexemes_eq_around same

theorem Field.relocated {field : FieldRef} (h : Field ts field) (same : lexemes us = lexemes ts) :
    ∃ g, Field us g ∧ g.unplaced = field.unplaced := by
  induction h generalizing us with
  | name name p =>
    obtain ⟨q, rfl⟩ := lexemes_eq_singleton same
    exact ⟨_, .name name q, rfl⟩
  | dotted name p q h ih =>
    obtain ⟨dot, before, behind, rfl, sameBefore, last⟩ := tokens_around same
    obtain ⟨place, rfl⟩ := lexemes_eq_singleton last
    obtain ⟨g, derived, unplaced⟩ := ih sameBefore
    simp only [FieldRef.unplaced, FieldRef.mk.injEq, and_true] at unplaced
    exact ⟨_, .dotted name dot place derived, by simp [FieldRef.unplaced, unplaced]⟩

theorem Param.relocated {param : ParamRef} (h : Param ts param) (same : lexemes us = lexemes ts) :
    ∃ g, Param us g ∧ g.unplaced = param.unplaced := by
  obtain ⟨name, p, q⟩ := h
  obtain ⟨colon, rest, rfl, last⟩ := lexemes_eq_cons_iff.1 same
  obtain ⟨place, rfl⟩ := lexemes_eq_singleton last
  exact ⟨_, .named name colon place, rfl⟩

theorem Negation.relocated {negated : Bool} (h : Negation ts negated)
    (same : lexemes us = lexemes ts) : Negation us negated := by
  cases h with
  | absent =>
    rw [lexemes_eq_nil_iff.1 same]
    exact .absent
  | present p =>
    obtain ⟨q, rfl⟩ := lexemes_eq_singleton same
    exact .present q

theorem Comparand.relocated {condition : Condition} (h : Comparand ts condition)
    (same : lexemes us = lexemes ts) :
    ∃ g, Comparand us g ∧ g.unplaced = condition.unplaced := by
  cases h with
  | compare op p param =>
    obtain ⟨q, rest, rfl, sameParam⟩ := lexemes_eq_cons_iff.1 same
    obtain ⟨g, derived, unplaced⟩ := param.relocated sameParam
    exact ⟨_, .compare op q derived, by simp [Condition.unplaced, unplaced]⟩
  | @between _ _ _ negated _ _ p q negation low high =>
    rw [List.append_assoc, List.cons_append] at same
    obtain ⟨between, ns, rest, rfl, sameNegation, sameBounds⟩ := tokens_around same
    obtain ⟨and, ls, hs, rfl, sameLow, sameHigh⟩ := tokens_around sameBounds
    obtain ⟨g, lowDerived, lowUnplaced⟩ := low.relocated sameLow
    obtain ⟨h, highDerived, highUnplaced⟩ := high.relocated sameHigh
    refine ⟨.between negated g h, ?_, by simp [Condition.unplaced, lowUnplaced, highUnplaced]⟩
    simpa using Comparand.between between and (negation.relocated sameNegation) lowDerived
      highDerived
  | oneOf p negation param =>
    obtain ⟨q, ns, rest, rfl, sameNegation, sameParam⟩ := tokens_around same
    obtain ⟨g, derived, unplaced⟩ := param.relocated sameParam
    exact ⟨_, .oneOf q (negation.relocated sameNegation) derived,
      by simp [Condition.unplaced, unplaced]⟩
  | null p q negation =>
    rw [List.cons_append, lexemes_cons] at same
    obtain ⟨is, rest, rfl, sameRest⟩ := lexemes_eq_cons_iff.1 same
    obtain ⟨null, ns, rest, rfl, sameNegation, none⟩ := tokens_around sameRest
    rw [lexemes_eq_nil_iff.1 none]
    exact ⟨_, .null is null (negation.relocated sameNegation), rfl⟩
  | like p negation param =>
    obtain ⟨q, ns, rest, rfl, sameNegation, sameParam⟩ := tokens_around same
    obtain ⟨g, derived, unplaced⟩ := param.relocated sameParam
    exact ⟨_, .like q (negation.relocated sameNegation) derived,
      by simp [Condition.unplaced, unplaced]⟩

theorem Grouped.relocated {op : Connective} {fs gs : List Filter} {f : Filter}
    (grouped : Grouped op fs f) (same : gs.map Filter.unplaced = fs.map Filter.unplaced) :
    ∃ g, Grouped op gs g ∧ g.unplaced = f.unplaced := by
  cases grouped with
  | lone f =>
    obtain ⟨g, rfl, unplaced⟩ := List.map_eq_singleton_iff.1 same
    exact ⟨g, .lone g, unplaced⟩
  | group fs several =>
    have length := congrArg List.length same
    rw [List.length_map, List.length_map] at length
    refine ⟨_, .group gs (by omega), ?_⟩
    simp [Filter.unplaced, Filter.unplacedOperands_eq_map, same]

end

mutual

theorem Term.relocated {ts us : List Token} {f : Filter} : Term ts f → lexemes us = lexemes ts →
    ∃ g, Term us g ∧ g.unplaced = f.unplaced
  | .leaf field comparand, same => by
    rw [lexemes_append] at same
    obtain ⟨before, behind, rfl, sameField, sameComparand⟩ := lexemes_eq_append_iff.1 same
    obtain ⟨g, fieldDerived, fieldUnplaced⟩ := field.relocated sameField
    obtain ⟨c, derived, unplaced⟩ := comparand.relocated sameComparand
    exact ⟨_, .leaf fieldDerived derived, by simp [Filter.unplaced, fieldUnplaced, unplaced]⟩
  | .parens p q inner grouped, same => by
    rw [List.cons_append, lexemes_cons] at same
    obtain ⟨opening, rest, rfl, sameRest⟩ := lexemes_eq_cons_iff.1 same
    obtain ⟨closing, between, behind, rfl, sameInner, none⟩ := tokens_around sameRest
    obtain ⟨gs, derived, unplaced⟩ := Alternatives.relocated inner sameInner
    obtain ⟨g, regrouped, sameFilter⟩ := grouped.relocated unplaced
    rw [lexemes_eq_nil_iff.1 none]
    exact ⟨g, .parens opening closing derived regrouped, sameFilter⟩

theorem Conjuncts.relocated {ts us : List Token} {fs : List Filter} :
    Conjuncts ts fs → lexemes us = lexemes ts →
    ∃ gs, Conjuncts us gs ∧ gs.map Filter.unplaced = fs.map Filter.unplaced
  | .term term, same => by
    obtain ⟨g, derived, unplaced⟩ := Term.relocated term same
    exact ⟨[g], .term derived, by simp [unplaced]⟩
  | .and p first last, same => by
    obtain ⟨q, before, behind, rfl, sameFirst, sameLast⟩ := tokens_around same
    obtain ⟨gs, firstDerived, firstUnplaced⟩ := Conjuncts.relocated first sameFirst
    obtain ⟨g, lastDerived, lastUnplaced⟩ := Term.relocated last sameLast
    exact ⟨gs ++ [g], .and q firstDerived lastDerived, by simp [firstUnplaced, lastUnplaced]⟩

theorem Alternatives.relocated {ts us : List Token} {fs : List Filter} :
    Alternatives ts fs → lexemes us = lexemes ts →
    ∃ gs, Alternatives us gs ∧ gs.map Filter.unplaced = fs.map Filter.unplaced
  | .conjuncts conjuncts grouped, same => by
    obtain ⟨gs, derived, unplaced⟩ := Conjuncts.relocated conjuncts same
    obtain ⟨g, regrouped, sameFilter⟩ := grouped.relocated unplaced
    exact ⟨[g], .conjuncts derived regrouped, by simp [sameFilter]⟩
  | .or p first last grouped, same => by
    obtain ⟨q, before, behind, rfl, sameFirst, sameLast⟩ := tokens_around same
    obtain ⟨gs, firstDerived, firstUnplaced⟩ := Alternatives.relocated first sameFirst
    obtain ⟨hs, lastDerived, lastUnplaced⟩ := Conjuncts.relocated last sameLast
    obtain ⟨g, regrouped, sameFilter⟩ := grouped.relocated lastUnplaced
    refine ⟨gs ++ [g], .or q firstDerived lastDerived regrouped, ?_⟩
    simp [firstUnplaced, sameFilter]

end

theorem Sentence.relocated {ts us : List Token} {f : Filter} (sentence : Sentence ts f)
    (same : lexemes us = lexemes ts) : ∃ g, Sentence us g ∧ g.unplaced = f.unplaced := by
  obtain ⟨alternatives, grouped⟩ := sentence
  obtain ⟨gs, derived, unplaced⟩ := alternatives.relocated same
  obtain ⟨g, regrouped, sameFilter⟩ := grouped.relocated unplaced
  exact ⟨g, .mk derived regrouped, sameFilter⟩

end Criteria.Grammar
