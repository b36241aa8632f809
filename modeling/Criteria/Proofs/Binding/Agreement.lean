import Criteria.Proofs.Binding.Meaning
import Mathlib

set_option autoImplicit false

namespace Criteria

namespace Filter

mutual

theorem parameters_eq_flatMap (f : Filter) :
    f.parameters = f.leaves.flatMap fun leaf => leaf.2.params.map (·.name) := by
  match f with
  | .leaf field condition => simp [parameters, leaves]
  | .group op fs => rw [parameters, leaves, operandParameters_eq_flatMap fs]

theorem operandParameters_eq_flatMap (fs : List Filter) :
    operandParameters fs = (operandLeaves fs).flatMap fun leaf => leaf.2.params.map (·.name) := by
  match fs with
  | [] => rfl
  | f :: fs =>
    rw [operandParameters, operandLeaves, List.flatMap_append, parameters_eq_flatMap f,
      operandParameters_eq_flatMap fs]

end

theorem mem_parameters {f : Filter} {leaf : FieldRef × Condition} {param : ParamRef}
    (listed : leaf ∈ f.leaves) (named : param ∈ leaf.2.params) : param.name ∈ f.parameters := by
  rw [parameters_eq_flatMap]
  exact List.mem_flatMap.2 ⟨leaf, listed, List.mem_map_of_mem named⟩

end Filter

namespace CoercionRegistry

variable {r : CoercionRegistry} {key other : TypeKey}

theorem parser?_bind (distinct : key ≠ other) (b : ParserBinding) :
    (r.bind key b).parser? other = r.parser? other := by
  have bindings : (r.bind key b).binding? other = r.binding? other := by
    simp [bind, binding?, Std.TreeMap.getElem?_insert, distinct]
  have runs : (r.bind key b).run = r.run := by
    funext b
    cases b <;> rfl
  rw [parser?, bindings, runs, parser?]

theorem parser?_unregister (distinct : key ≠ other) :
    (r.unregister key).2.parser? other = r.parser? other := by
  have bindings : (r.unregister key).2.binding? other = r.binding? other := by
    simp [unregister, binding?, Std.TreeMap.getElem?_erase, distinct]
  have runs : (r.unregister key).2.run = r.run := by
    funext b
    cases b <;> rfl
  rw [parser?, bindings, runs, parser?]

inductive Rebound (keys : TypeKey → Prop) (r : CoercionRegistry) : CoercionRegistry → Prop
  | unchanged : Rebound keys r r
  | register {r' : CoercionRegistry} {key : TypeKey} (b : ParserBinding) :
      Rebound keys r r' → keys key → Rebound keys r (r'.register key b).2
  | copy {r' : CoercionRegistry} {key : TypeKey} (source : TypeKey) :
      Rebound keys r r' → keys key → Rebound keys r (r'.copy key source).2
  | unregister {r' : CoercionRegistry} {key : TypeKey} :
      Rebound keys r r' → keys key → Rebound keys r (r'.unregister key).2

theorem Rebound.parser? {keys : TypeKey → Prop} {r' : CoercionRegistry}
    (rebound : r.Rebound keys r') (untouched : ¬ keys other) :
    r'.parser? other = r.parser? other := by
  have distinct {key : TypeKey} (touched : keys key) : key ≠ other := fun same =>
    untouched (same ▸ touched)
  induction rebound with
  | unchanged => rfl
  | register b _ touched ih => exact (parser?_bind (distinct touched) b).trans ih
  | @copy r' key source _ touched ih =>
    unfold CoercionRegistry.copy
    split
    · exact (parser?_bind (distinct touched) _).trans ih
    · exact ih
  | unregister _ touched ih => exact (parser?_unregister (distinct touched)).trans ih

end CoercionRegistry

namespace Environment

variable {env env' : Environment} {field : Field} {f : Filter} {limit : ExpressionLimit}

/-- The types whose parsers may be asked when a filter is compiled. -/
def Consults (env : Environment) (f : Filter) (key : TypeKey) : Prop :=
  ∃ leaf ∈ f.leaves, ∃ field, env.catalog.field? leaf.1.name = some field ∧
    field.parser = none ∧ field.path.valueType = some key

structure Agree (f : Filter) (env env' : Environment) : Prop where
  parameters : ∀ name ∈ f.parameters, env.parameters.get? name = env'.parameters.get? name
  fields : ∀ leaf ∈ f.leaves, env.catalog.field? leaf.1.name = env'.catalog.field? leaf.1.name
  parsers : ∀ key, env.Consults f key → env.coercions.parser? key = env'.coercions.parser? key

section Condition

variable {condition : Condition} {param : ParamRef}

theorem raw_congr (bound : env.parameters.get? param.name = env'.parameters.get? param.name) :
    env.raw param = env'.raw param := by
  rw [raw, raw, bound]

variable (parsers : field.parser = none → ∀ key, field.path.valueType = some key →
  env.coercions.parser? key = env'.coercions.parser? key)

include parsers

theorem coerceFor_congr (param : ParamRef) :
    env.coerceFor field param = env'.coerceFor field param := by
  funext v
  suffices same : env.coerce field v = env'.coerce field v by rw [coerceFor, coerceFor, same]
  unfold coerce
  cases own : field.parser with
  | some p => rfl
  | none =>
    unfold CoercionRegistry.coerce
    cases target : field.path.valueType with
    | none => rfl
    | some key => simp only [parsers own key target]

theorem argument_congr (bound : env.parameters.get? param.name = env'.parameters.get? param.name) :
    env.argument field param = env'.argument field param := by
  rw [argument, argument, raw_congr bound, coerceFor_congr parsers]

theorem test_congr (bound : ∀ param ∈ condition.params,
      env.parameters.get? param.name = env'.parameters.get? param.name) :
    env.test field condition = env'.test field condition := by
  cases condition with
  | compare op param =>
    have same := argument_congr parsers (bound param (by simp [Condition.params]))
    rw [test, test, same]
  | between negated low high =>
    have sameLow := argument_congr parsers (bound low (by simp [Condition.params]))
    have sameHigh := argument_congr parsers (bound high (by simp [Condition.params]))
    rw [test, test, sameLow, sameHigh]
  | oneOf negated param =>
    have same := raw_congr (bound param (by simp [Condition.params]))
    rw [test, test, argumentList, argumentList, same, coerceFor_congr parsers]
  | null negated => rfl
  | like negated param =>
    have same := argument_congr parsers (bound param (by simp [Condition.params]))
    rw [test, test, pattern, pattern, same]

end Condition

theorem Agree.leaf_eq (agree : Agree f env env') {leaf : FieldRef × Condition}
    (listed : leaf ∈ f.leaves) : env.leaf leaf.1 leaf.2 = env'.leaf leaf.1 leaf.2 := by
  have known := agree.fields leaf listed
  unfold Environment.leaf Catalog.require
  rw [← known]
  cases found : env.catalog.field? leaf.1.name with
  | none => rfl
  | some field =>
    have parsers : field.parser = none → ∀ key, field.path.valueType = some key →
        env.coercions.parser? key = env'.coercions.parser? key :=
      fun own key target => agree.parsers key ⟨leaf, listed, field, found, own, target⟩
    have same : env.test field leaf.2 = env'.test field leaf.2 := test_congr parsers
      fun param named => agree.parameters param.name (Filter.mem_parameters listed named)
    simp only [bind, Except.bind, same]

mutual

theorem compileFrom_congr (f : Filter) (emitted : Nat)
    (same : ∀ leaf ∈ f.leaves, env.leaf leaf.1 leaf.2 = env'.leaf leaf.1 leaf.2) :
    env.compileFrom limit f emitted = env'.compileFrom limit f emitted := by
  match f with
  | .leaf name condition =>
    have leaf : env.leaf name condition = env'.leaf name condition :=
      same (name, condition) List.mem_cons_self
    rw [compileFrom_leaf, compileFrom_leaf, leaf]
  | .group op fs =>
    rw [compileFrom_group, compileFrom_group, compileOperands_congr fs emitted same]

theorem compileOperands_congr (fs : List Filter) (emitted : Nat)
    (same : ∀ leaf ∈ Filter.operandLeaves fs, env.leaf leaf.1 leaf.2 = env'.leaf leaf.1 leaf.2) :
    env.compileOperands limit fs emitted = env'.compileOperands limit fs emitted := by
  match fs with
  | [] => rw [compileOperands_nil, compileOperands_nil]
  | f :: fs =>
    rw [Filter.operandLeaves, List.forall_mem_append] at same
    -- The others follow with whatever count the first operand leaves.
    have rest (n : Nat) : env.compileOperands limit fs n = env'.compileOperands limit fs n :=
      compileOperands_congr fs n same.2
    simp only [compileOperands_cons, compileFrom_congr f emitted same.1, rest]

end

theorem compileText_congr {text? : Option String}
    (agree : ∀ text f, text? = some text → Filter.parse text = .ok f → Agree f env env') :
    env.compileText limit text? = env'.compileText limit text? := by
  cases text? with
  | none => rfl
  | some text =>
    cases parsed : Filter.parse text with
    | error e => simp only [compileText, parsed]
    | ok f =>
      have same : env.compile limit f = env'.compile limit f :=
        compileFrom_congr f 0 fun _ => (agree text f rfl parsed).leaf_eq
      simp only [compileText, parsed, same]

/-- Environments that agree on what a text names compile it alike, to the same predicate or the same
error and with the same count. So values of other parameters do not matter, nor do the parsers of
types that no field of the text asks for; and none at all, if each of these fields has its own. -/
theorem compileText_local (env : Environment) (limit : ExpressionLimit) (text : String) :
    (∀ env', (∀ f, Filter.parse text = .ok f → Agree f env env') →
      env'.compileText limit (some text) = env.compileText limit (some text)) ∧
    ∀ f, Filter.parse text = .ok f →
      (∀ parameters : Parameters,
        (∀ name ∈ f.parameters, parameters.get? name = env.parameters.get? name) →
        compileText { env with parameters } limit (some text) =
          env.compileText limit (some text)) ∧
      (∀ coercions, env.coercions.Rebound (¬ env.Consults f ·) coercions →
        compileText { env with coercions } limit (some text) =
          env.compileText limit (some text)) ∧
      ((∀ leaf ∈ f.leaves, ∀ field, env.catalog.field? leaf.1.name = some field →
          field.parser.isSome) →
        ∀ coercions, compileText { env with coercions } limit (some text) =
          env.compileText limit (some text)) := by
  have all : ∀ env', (∀ f, Filter.parse text = .ok f → Agree f env env') →
      env'.compileText limit (some text) = env.compileText limit (some text) := by
    intro env' agree
    refine (compileText_congr fun other f same parsed => ?_).symm
    cases same
    exact agree f parsed
  refine ⟨all, fun f parsed => ?_⟩
  have agreed {env' : Environment} (agree : Agree f env env') :
      env'.compileText limit (some text) = env.compileText limit (some text) := by
    refine all env' fun g parsed' => ?_
    cases parsed.symm.trans parsed'
    exact agree
  refine ⟨fun parameters same => agreed ?_, fun coercions rebound => agreed ?_,
    fun own coercions => agreed ?_⟩
  · exact ⟨fun name named => (same name named).symm, fun _ _ => rfl, fun _ _ => rfl⟩
  · exact ⟨fun _ _ => rfl, fun _ _ => rfl, fun key asked => (rebound.parser? (not_not.2 asked)).symm⟩
  · refine ⟨fun _ _ => rfl, fun _ _ => rfl, fun key asked => ?_⟩
    obtain ⟨leaf, listed, field, known, unparsed, -⟩ := asked
    have parser := own leaf listed field known
    rw [unparsed] at parser
    cases parser

def byName : Environment where
  catalog :=
    { schema := {}, root := ⟨"Course", []⟩
      fields := (∅ : Std.TreeMap String Field).insert "name"
        ⟨"name", "name", ⟨.root, ["name"], some .text⟩, false, none⟩ }
  parameters := ⟨(∅ : Std.TreeMap String Value).insert "n" (.char 'L')⟩
  coercions := .seeded

-- Another field, another parameter, no parser for booleans and one that refuses integers.
def byNameAndMore : Environment where
  catalog :=
    { byName.catalog with
      fields := byName.catalog.fields.insert "credits"
        ⟨"credits", "credits", ⟨.root, ["credits"], some (.int .int)⟩, true, none⟩ }
  parameters := ⟨byName.parameters.values.insert "low" .null⟩
  coercions := ((CoercionRegistry.seeded.unregister .bool).2.register (.int .int)
    (.parser fun _ => .error .nullValue)).2

theorem byName_agrees :
    (∀ f, Filter.parse "name = :n" = .ok f → Agree f byName byNameAndMore) ∧
      byName.compileText (.atMost 1) (some "name = :n") =
        (.ok (some (.leaf ⟨.root, ["name"], some .text⟩ (.compare .eq (.text "L")))), some 1) ∧
      byNameAndMore.compileText (.atMost 1) (some "name = :n") =
        byName.compileText (.atMost 1) (some "name = :n") := by
  have parsed : Filter.parse "name = :n" =
      .ok (.leaf ⟨"name", ⟨1, 0⟩⟩ (.compare .eq ⟨"n", ⟨1, 7⟩⟩)) := by cbv
  have agree : ∀ f, Filter.parse "name = :n" = .ok f → Agree f byName byNameAndMore := by
    intro f parsed'
    cases parsed.symm.trans parsed'
    refine ⟨?_, ?_, fun key asked => ?_⟩
    · intro name named
      cases List.mem_singleton.1 named
      rfl
    · intro leaf listed
      cases List.mem_singleton.1 listed
      rfl
    · obtain ⟨leaf, listed, field, known, -, target⟩ := asked
      cases List.mem_singleton.1 listed
      cases known
      cases target
      rfl
  exact ⟨agree, by cbv, (compileText_local byName (.atMost 1) "name = :n").1 _ agree⟩

end Environment

end Criteria
