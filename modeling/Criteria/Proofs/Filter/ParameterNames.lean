import Criteria.Proofs.Filter.Recognition

set_option autoImplicit false

namespace Criteria

theorem Filter.operandParameters_append (fs gs : List Filter) :
    operandParameters (fs ++ gs) = operandParameters fs ++ operandParameters gs := by
  induction fs with
  | nil => rfl
  | cons f fs ih => rw [List.cons_append, operandParameters, operandParameters, ih, List.append_assoc]

namespace Grammar

def namesBehindColons : List Lexeme → List (Option String)
  | [] => []
  | .colon :: .name name :: rest => some name :: namesBehindColons rest
  | .colon :: rest => none :: namesBehindColons rest
  | _ :: rest => namesBehindColons rest

theorem namesBehindColons_cons {x : Lexeme} (notColon : x ≠ .colon) (xs : List Lexeme) :
    namesBehindColons (x :: xs) = namesBehindColons xs := by
  cases x with
  | colon => exact absurd rfl notColon
  | _ => rfl

variable {ts : List Token}

theorem Field.names {field : FieldRef} (h : Field ts field) (xs : List Lexeme) :
    namesBehindColons (lexemes ts ++ xs) = namesBehindColons xs := by
  induction h generalizing xs with
  | name name p => rfl
  | dotted name p q h ih =>
    rw [lexemes_append, List.append_assoc, ih]
    rfl

theorem Param.names {param : ParamRef} (h : Param ts param) (xs : List Lexeme) :
    namesBehindColons (lexemes ts ++ xs) = some param.name :: namesBehindColons xs := by
  cases h
  rfl

theorem Negation.names {negated : Bool} (h : Negation ts negated) (xs : List Lexeme) :
    namesBehindColons (lexemes ts ++ xs) = namesBehindColons xs := by
  cases h <;> rfl

theorem Comparand.names {condition : Condition} (h : Comparand ts condition) (xs : List Lexeme) :
    namesBehindColons (lexemes ts ++ xs) =
      (condition.params.map (some ·.name)) ++ namesBehindColons xs := by
  cases h with
  | compare op p param =>
    rw [lexemes_cons, List.cons_append, namesBehindColons_cons (by simp), param.names]
    rfl
  | between p q negation low high =>
    simp only [lexemes_append, lexemes_cons, List.append_assoc, List.cons_append]
    rw [negation.names, namesBehindColons_cons (by simp), low.names,
      namesBehindColons_cons (by simp), high.names]
    rfl
  | oneOf p negation param | like p negation param =>
    simp only [lexemes_append, lexemes_cons, List.append_assoc, List.cons_append]
    rw [negation.names, namesBehindColons_cons (by simp), param.names]
    rfl
  | null p q negation =>
    simp only [lexemes_append, lexemes_cons, lexemes_nil, List.append_assoc, List.cons_append]
    rw [namesBehindColons_cons (by simp), negation.names]
    rfl

theorem Grouped.parameters {op : Connective} {fs : List Filter} {f : Filter}
    (grouped : Grouped op fs f) : f.parameters = Filter.operandParameters fs := by
  cases grouped with
  | lone f => simp [Filter.operandParameters]
  | group fs several => rfl

mutual

theorem Term.names {ts : List Token} {f : Filter} : Term ts f → ∀ xs,
    namesBehindColons (lexemes ts ++ xs) = f.parameters.map some ++ namesBehindColons xs
  | .leaf field comparand, xs => by
    rw [lexemes_append, List.append_assoc, field.names, comparand.names, Filter.parameters,
      List.map_map]
    rfl
  | .parens p q inner grouped, xs => by
    simp only [lexemes_append, lexemes_cons, lexemes_nil, List.append_assoc, List.cons_append]
    rw [namesBehindColons_cons (by simp), inner.names, grouped.parameters]
    rfl

theorem Conjuncts.names {ts : List Token} {fs : List Filter} : Conjuncts ts fs → ∀ xs,
    namesBehindColons (lexemes ts ++ xs) =
      (Filter.operandParameters fs).map some ++ namesBehindColons xs
  | .term term, xs => by
    rw [term.names, Filter.operandParameters, Filter.operandParameters, List.append_nil]
  | .and p first last, xs => by
    simp only [lexemes_append, lexemes_cons, List.append_assoc, List.cons_append]
    rw [first.names, namesBehindColons_cons (by simp), last.names]
    simp [Filter.operandParameters_append, Filter.operandParameters]

theorem Alternatives.names {ts : List Token} {fs : List Filter} : Alternatives ts fs → ∀ xs,
    namesBehindColons (lexemes ts ++ xs) =
      (Filter.operandParameters fs).map some ++ namesBehindColons xs
  | .conjuncts conjuncts grouped, xs => by
    rw [conjuncts.names, ← grouped.parameters, Filter.operandParameters, Filter.operandParameters,
      List.append_nil]
  | .or p first last grouped, xs => by
    simp only [lexemes_append, lexemes_cons, List.append_assoc, List.cons_append]
    rw [first.names, namesBehindColons_cons (by simp), last.names, ← grouped.parameters]
    simp [Filter.operandParameters_append, Filter.operandParameters]

end

theorem Sentence.names {f : Filter} (sentence : Sentence ts f) :
    namesBehindColons (lexemes ts) = f.parameters.map some := by
  obtain ⟨alternatives, grouped⟩ := sentence
  have names := alternatives.names []
  rw [List.append_nil, ← grouped.parameters] at names
  exact names.trans (List.append_nil _)

end Grammar

end Criteria
