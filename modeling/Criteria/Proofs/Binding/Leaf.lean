import Criteria.Binding.Leaf
import Criteria.Proofs.Outcome

set_option autoImplicit false

namespace Criteria

namespace Environment

variable (env : Environment) (field : Field)

inductive Accepts : Value → Value → Prop
  | parsed {p : ValueParser} {v w : Value} :
      v ≠ .null → field.parser = some p → p v = .ok w → Accepts v w
  | kept {key : TypeKey} {v : Value} :
      field.parser = none → field.path.valueType = some key → v.key? = some key → Accepts v v
  | registered {key : TypeKey} {p : ValueParser} {v w : Value} :
      v ≠ .null → field.parser = none → field.path.valueType = some key → v.key? ≠ some key →
      env.coercions.parser? key = some p → p v = .ok w → Accepts v w

inductive Refuses : Value → CoercionError → Prop
  | null : Refuses .null .nullValue
  | parsed {p : ValueParser} {v : Value} {cause : CoercionError} :
      v ≠ .null → field.parser = some p → p v = .error cause → Refuses v cause
  | structured {v : Value} :
      v ≠ .null → field.parser = none → field.path.valueType = none → Refuses v (.noParser none)
  | unregistered {key : TypeKey} {v : Value} :
      v ≠ .null → field.parser = none → field.path.valueType = some key → v.key? ≠ some key →
      env.coercions.parser? key = none → Refuses v (.noParser (some key))
  | registered {key : TypeKey} {p : ValueParser} {v : Value} {cause : CoercionError} :
      v ≠ .null → field.parser = none → field.path.valueType = some key → v.key? ≠ some key →
      env.coercions.parser? key = some p → p v = .error cause → Refuses v cause

inductive Takes (param : ParamRef) : Value → Prop
  | mk {v w : Value} :
      env.parameters.get? param.name = some v → env.Accepts field v w → Takes param w

inductive ParamFault (param : ParamRef) : FilterError → Prop
  | unbound :
      env.parameters.get? param.name = none → ParamFault param (.parameterNotBound param.name)
  | refused {v : Value} {cause : CoercionError} :
      env.parameters.get? param.name = some v → env.Refuses field v cause →
      ParamFault param (.coercion param.name cause)

inductive TakesItems (param : ParamRef) : List Value → Prop
  | mk {items values : List Value} :
      env.parameters.get? param.name = some (.list items) →
      List.Forall₂ (env.Accepts field) items values → TakesItems param values

inductive ItemsFault (param : ParamRef) : FilterError → Prop
  | unbound :
      env.parameters.get? param.name = none → ItemsFault param (.parameterNotBound param.name)
  | noList {v : Value} :
      env.parameters.get? param.name = some v → (∀ items, v ≠ .list items) →
      ItemsFault param (.typeMismatch param.name .list)
  | refused {before after : List Value} {v : Value} {cause : CoercionError} :
      env.parameters.get? param.name = some (.list (before ++ v :: after)) →
      (∀ u ∈ before, ∃ w, env.Accepts field u w) → env.Refuses field v cause →
      ItemsFault param (.coercion param.name cause)

inductive Tests : Condition → Test → Prop
  | compare {param : ParamRef} {v : Value} (op : Comparison) :
      env.Takes field param v → Tests (.compare op param) (.compare op v)
  | between {low high : ParamRef} {v w : Value} (negated : Bool) :
      env.Takes field low v → env.Takes field high w →
      Tests (.between negated low high) (.between v w)
  | oneOf {param : ParamRef} {values : List Value} (negated : Bool) :
      env.TakesItems field param values → Tests (.oneOf negated param) (.oneOf values)
  | null (negated : Bool) : Tests (.null negated) .null
  | like {param : ParamRef} {pattern : String} (negated : Bool) :
      env.Takes field param (.text pattern) → Tests (.like negated param) (.like pattern)

inductive TestFault : Condition → FilterError → Prop
  | compare {param : ParamRef} {e : FilterError} (op : Comparison) :
      env.ParamFault field param e → TestFault (.compare op param) e
  | low {low high : ParamRef} {e : FilterError} (negated : Bool) :
      env.ParamFault field low e → TestFault (.between negated low high) e
  | high {low high : ParamRef} {v : Value} {e : FilterError} (negated : Bool) :
      env.Takes field low v → env.ParamFault field high e →
      TestFault (.between negated low high) e
  | oneOf {param : ParamRef} {e : FilterError} (negated : Bool) :
      env.ItemsFault field param e → TestFault (.oneOf negated param) e
  | like {param : ParamRef} {e : FilterError} (negated : Bool) :
      env.ParamFault field param e → TestFault (.like negated param) e
  | noText {param : ParamRef} {v : Value} (negated : Bool) :
      env.Takes field param v → (∀ pattern, v ≠ .text pattern) →
      TestFault (.like negated param) (.typeMismatch param.name .text)

variable {env field}

theorem isNull_eq_false_iff {v : Value} : v.isNull = false ↔ v ≠ .null := by
  cases v <;> simp [Value.isNull]

theorem coerce_parsed {p : ValueParser} {v : Value} (notNull : v ≠ .null)
    (own : field.parser = some p) : env.coerce field v = p v := by
  simp [coerce, isNull_eq_false_iff.2 notNull, own]

section Unparsed

variable {key : TypeKey} {v : Value} (notNull : v ≠ .null) (unparsed : field.parser = none)

include notNull unparsed

theorem coerce_structured (structured : field.path.valueType = none) :
    env.coerce field v = .error (.noParser none) := by
  simp [coerce, CoercionRegistry.coerce, isNull_eq_false_iff.2 notNull, unparsed, structured]

variable (target : field.path.valueType = some key)

include target

theorem coerce_kept (same : v.key? = some key) : env.coerce field v = .ok v := by
  simp [coerce, CoercionRegistry.coerce, isNull_eq_false_iff.2 notNull, unparsed, target,
    Value.satisfies_iff.2 same]

theorem coerce_unregistered (differs : v.key? ≠ some key)
    (unregistered : env.coercions.parser? key = none) :
    env.coerce field v = .error (.noParser (some key)) := by
  simp [coerce, CoercionRegistry.coerce, isNull_eq_false_iff.2 notNull, unparsed, target,
    Value.satisfies_iff, differs, unregistered]

theorem coerce_registered {p : ValueParser} (differs : v.key? ≠ some key)
    (registered : env.coercions.parser? key = some p) : env.coerce field v = p v := by
  simp [coerce, CoercionRegistry.coerce, isNull_eq_false_iff.2 notNull, unparsed, target,
    Value.satisfies_iff, differs, registered]

end Unparsed

theorem coerce_cases (env : Environment) (field : Field) (v : Value) :
    (∃ w, env.coerce field v = .ok w ∧ env.Accepts field v w) ∨
      ∃ cause, env.coerce field v = .error cause ∧ env.Refuses field v cause := by
  by_cases notNull : v ≠ .null
  -- The parser of the field is asked first, then the registry, which keeps values of the type.
  · cases own : field.parser with
    | some p =>
      rw [coerce_parsed notNull own]
      cases outcome : p v with
      | ok w => exact .inl ⟨w, rfl, .parsed notNull own outcome⟩
      | error cause => exact .inr ⟨cause, rfl, .parsed notNull own outcome⟩
    | none =>
      cases target : field.path.valueType with
      | none => exact .inr ⟨_, coerce_structured notNull own target, .structured notNull own target⟩
      | some key =>
        by_cases same : v.key? = some key
        · exact .inl ⟨v, coerce_kept notNull own target same, .kept own target same⟩
        · cases registered : env.coercions.parser? key with
          | none =>
            exact .inr ⟨_, coerce_unregistered notNull own target same registered,
              .unregistered notNull own target same registered⟩
          | some p =>
            rw [coerce_registered notNull own target same registered]
            cases outcome : p v with
            | ok w => exact .inl ⟨w, rfl, .registered notNull own target same registered outcome⟩
            | error cause =>
              exact .inr ⟨cause, rfl, .registered notNull own target same registered outcome⟩
  · obtain rfl := not_ne_iff.1 notNull
    exact .inr ⟨.nullValue, rfl, .null⟩

theorem coerce_eq_ok_iff {v w : Value} : env.coerce field v = .ok w ↔ env.Accepts field v w := by
  constructor
  · intro h
    rcases env.coerce_cases field v with ⟨u, outcome, accepts⟩ | ⟨cause, outcome, -⟩
    · rw [outcome] at h
      cases h
      exact accepts
    · rw [outcome] at h
      cases h
  · intro accepted
    cases accepted with
    | parsed notNull own accepts => rw [coerce_parsed notNull own, accepts]
    | kept own target same =>
      -- Null has no type, so it is never kept.
      have notNull : v ≠ .null := by
        rintro rfl
        simp [Value.key?] at same
      exact coerce_kept notNull own target same
    | registered notNull own target differs registered accepts =>
      rw [coerce_registered notNull own target differs registered, accepts]

theorem coerce_eq_error_iff {v : Value} {cause : CoercionError} :
    env.coerce field v = .error cause ↔ env.Refuses field v cause := by
  constructor
  · intro h
    rcases env.coerce_cases field v with ⟨w, outcome, -⟩ | ⟨other, outcome, refuses⟩
    · rw [outcome] at h
      cases h
    · rw [outcome] at h
      cases h
      exact refuses
  · intro refused
    cases refused with
    | null => rfl
    | parsed notNull own refuses => rw [coerce_parsed notNull own, refuses]
    | structured notNull own target => exact coerce_structured notNull own target
    | unregistered notNull own target differs unregistered =>
      exact coerce_unregistered notNull own target differs unregistered
    | registered notNull own target differs registered refuses =>
      rw [coerce_registered notNull own target differs registered, refuses]

theorem raw_eq_ok_iff {param : ParamRef} {v : Value} :
    env.raw param = .ok v ↔ env.parameters.get? param.name = some v := by
  cases h : env.parameters.get? param.name <;> simp [raw, h]

theorem raw_eq_error_iff {param : ParamRef} {e : FilterError} :
    env.raw param = .error e ↔
      env.parameters.get? param.name = none ∧ e = .parameterNotBound param.name := by
  cases h : env.parameters.get? param.name <;> simp [raw, h, eq_comm]

theorem coerceFor_eq_ok_iff {param : ParamRef} {v w : Value} :
    env.coerceFor field param v = .ok w ↔ env.Accepts field v w := by
  rw [← coerce_eq_ok_iff, coerceFor]
  cases env.coerce field v <;> simp [Except.mapError]

theorem coerceFor_eq_error_iff {param : ParamRef} {v : Value} {e : FilterError} :
    env.coerceFor field param v = .error e ↔
      ∃ cause, env.Refuses field v cause ∧ e = .coercion param.name cause := by
  simp only [← coerce_eq_error_iff, coerceFor]
  cases env.coerce field v <;> simp [Except.mapError, eq_comm]

theorem argument_eq_ok_iff {param : ParamRef} {w : Value} :
    env.argument field param = .ok w ↔ env.Takes field param w := by
  simp only [argument, bind_eq_ok_iff, raw_eq_ok_iff, coerceFor_eq_ok_iff]
  constructor
  · intro given
    obtain ⟨v, bound, accepts⟩ := given
    exact .mk bound accepts
  · intro given
    obtain ⟨bound, accepts⟩ := given
    exact ⟨_, bound, accepts⟩

theorem argument_eq_error_iff {param : ParamRef} {e : FilterError} :
    env.argument field param = .error e ↔ env.ParamFault field param e := by
  simp only [argument, bind_eq_error_iff, raw_eq_ok_iff, raw_eq_error_iff, coerceFor_eq_error_iff]
  constructor
  · intro given
    rcases given with ⟨unbound, rfl⟩ | ⟨v, bound, cause, refuses, rfl⟩
    · exact .unbound unbound
    · exact .refused bound refuses
  · intro fault
    cases fault with
    | unbound unbound => exact .inl ⟨unbound, rfl⟩
    | refused bound refuses => exact .inr ⟨_, bound, _, refuses, rfl⟩

theorem argumentList_eq_ok_iff {param : ParamRef} {values : List Value} :
    env.argumentList field param = .ok values ↔ env.TakesItems field param values := by
  simp only [argumentList, bind_eq_ok_iff, raw_eq_ok_iff]
  constructor
  · intro given
    obtain ⟨v, bound, h⟩ := given
    cases v with
    | list items =>
      simp only [Value.items?, mapM_eq_ok_iff, coerceFor_eq_ok_iff] at h
      exact .mk bound h
    | _ => cases h
  · intro given
    obtain ⟨bound, accepts⟩ := given
    refine ⟨_, bound, ?_⟩
    simpa only [Value.items?, mapM_eq_ok_iff, coerceFor_eq_ok_iff] using accepts

theorem argumentList_eq_error_iff {param : ParamRef} {e : FilterError} :
    env.argumentList field param = .error e ↔ env.ItemsFault field param e := by
  simp only [argumentList, bind_eq_error_iff, raw_eq_ok_iff, raw_eq_error_iff]
  constructor
  · intro given
    rcases given with ⟨unbound, rfl⟩ | ⟨v, bound, h⟩
    · exact .unbound unbound
    cases v with
    | list items =>
      simp only [Value.items?, mapM_eq_error_iff, coerceFor_eq_ok_iff, coerceFor_eq_error_iff] at h
      obtain ⟨before, v, after, rfl, accepted, cause, refuses, rfl⟩ := h
      exact .refused bound accepted refuses
    | _ =>
      cases h
      exact .noList bound (by simp)
  · intro fault
    cases fault with
    | unbound unbound => exact .inl ⟨unbound, rfl⟩
    | @noList v bound noList =>
      refine .inr ⟨v, bound, ?_⟩
      cases v with
      | list items => exact absurd rfl (noList items)
      | _ => rfl
    | refused bound accepted refuses =>
      refine .inr ⟨_, bound, ?_⟩
      simp only [Value.items?, mapM_eq_error_iff, coerceFor_eq_ok_iff, coerceFor_eq_error_iff]
      exact ⟨_, _, _, rfl, accepted, _, refuses, rfl⟩

theorem pattern_eq_ok_iff {param : ParamRef} {s : String} :
    env.pattern field param = .ok s ↔ env.Takes field param (.text s) := by
  simp only [pattern, bind_eq_ok_iff, argument_eq_ok_iff]
  constructor
  · intro given
    obtain ⟨v, takes, h⟩ := given
    cases v with
    | text =>
      cases h
      exact takes
    | _ => cases h
  · exact fun takes => ⟨_, takes, rfl⟩

theorem pattern_eq_error_iff {param : ParamRef} {e : FilterError} :
    env.pattern field param = .error e ↔ env.ParamFault field param e ∨
      ∃ v, env.Takes field param v ∧ (∀ s, v ≠ .text s) ∧ e = .typeMismatch param.name .text := by
  simp only [pattern, bind_eq_error_iff, argument_eq_ok_iff, argument_eq_error_iff]
  refine or_congr_right (exists_congr fun v => and_congr_right fun takes => ?_)
  cases v <;> simp [Value.text?, eq_comm]

theorem test_eq_ok_iff {condition : Condition} {t : Test} :
    env.test field condition = .ok t ↔ env.Tests field condition t := by
  cases condition with
  | compare op param =>
    simp only [test, bind_pure_eq_ok_iff, argument_eq_ok_iff]
    constructor
    · intro given
      obtain ⟨v, takes, rfl⟩ := given
      exact .compare op takes
    · intro given
      obtain ⟨_, takes⟩ := given
      exact ⟨_, takes, rfl⟩
  | between negated low high =>
    rw [test, bind_eq_ok_iff]
    simp only [bind_pure_eq_ok_iff, argument_eq_ok_iff]
    constructor
    · intro given
      obtain ⟨v, takesLow, w, takesHigh, rfl⟩ := given
      exact .between negated takesLow takesHigh
    · intro tests
      cases tests with
      | between _ takesLow takesHigh => exact ⟨_, takesLow, _, takesHigh, rfl⟩
  | oneOf negated param =>
    simp only [test, bind_pure_eq_ok_iff, argumentList_eq_ok_iff]
    constructor
    · intro given
      obtain ⟨values, takes, rfl⟩ := given
      exact .oneOf negated takes
    · intro tests
      cases tests with
      | oneOf _ takes => exact ⟨_, takes, rfl⟩
  | null negated =>
    constructor
    · intro made
      cases made
      exact .null negated
    · intro tests
      cases tests
      rfl
  | like negated param =>
    simp only [test, bind_pure_eq_ok_iff, pattern_eq_ok_iff]
    constructor
    · intro given
      obtain ⟨pattern, takes, rfl⟩ := given
      exact .like negated takes
    · intro tests
      cases tests with
      | like _ takes => exact ⟨_, takes, rfl⟩

theorem test_eq_error_iff {condition : Condition} {e : FilterError} :
    env.test field condition = .error e ↔ env.TestFault field condition e := by
  cases condition with
  | compare op param =>
    rw [test, bind_pure_eq_error_iff, argument_eq_error_iff]
    constructor
    · exact .compare op
    · intro fault
      cases fault with
      | compare _ fault => exact fault
  | between negated low high =>
    rw [test, bind_eq_error_iff, argument_eq_error_iff]
    simp only [bind_pure_eq_error_iff, argument_eq_ok_iff, argument_eq_error_iff]
    constructor
    · intro given
      rcases given with fault | ⟨v, takes, fault⟩
      · exact .low negated fault
      · exact .high negated takes fault
    · intro fault
      cases fault with
      | low _ fault => exact .inl fault
      | high _ takes fault => exact .inr ⟨_, takes, fault⟩
  | oneOf negated param =>
    rw [test, bind_pure_eq_error_iff, argumentList_eq_error_iff]
    constructor
    · exact .oneOf negated
    · intro fault
      cases fault with
      | oneOf _ fault => exact fault
  | null negated => constructor <;> exact nofun
  | like negated param =>
    rw [test, bind_pure_eq_error_iff, pattern_eq_error_iff]
    constructor
    · intro given
      rcases given with fault | ⟨v, takes, noText, rfl⟩
      · exact .like negated fault
      · exact .noText negated takes noText
    · intro fault
      cases fault with
      | like _ fault => exact .inl fault
      | noText _ takes noText => exact .inr ⟨_, takes, noText, rfl⟩

end Environment

end Criteria
