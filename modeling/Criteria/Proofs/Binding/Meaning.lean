import Criteria.Proofs.Binding.Emission
import Criteria.Proofs.Binding.Leaf

set_option autoImplicit false

namespace Criteria

namespace Filter

mutual

def leaves : Filter → List (FieldRef × Condition)
  | leaf field condition => [(field, condition)]
  | group _ operands => operandLeaves operands

def operandLeaves : List Filter → List (FieldRef × Condition)
  | [] => []
  | f :: rest => f.leaves ++ operandLeaves rest

end

end Filter

namespace Environment

variable (env : Environment)

def Compiles (leaf : FieldRef × Condition) : Prop :=
  ∃ field t, env.catalog.field? leaf.1.name = some field ∧ env.Tests field leaf.2 t

inductive LeafFault : FieldRef × Condition → FilterError → Prop
  | unknown {name : FieldRef} {condition : Condition} :
      env.catalog.field? name.name = none → LeafFault (name, condition) (.unknownField name.name)
  | test {name : FieldRef} {condition : Condition} {field : Field} {e : FilterError} :
      env.catalog.field? name.name = some field → env.TestFault field condition e →
      LeafFault (name, condition) e

/-- The error of the first condition that fails. -/
inductive FirstFault : List (FieldRef × Condition) → FilterError → Prop
  | here {leaf : FieldRef × Condition} {e : FilterError} (later : List (FieldRef × Condition)) :
      env.LeafFault leaf e → FirstFault (leaf :: later) e
  | later {leaf : FieldRef × Condition} {later : List (FieldRef × Condition)} {e : FilterError} :
      env.Compiles leaf → FirstFault later e → FirstFault (leaf :: later) e

mutual

inductive Means : Filter → Predicate → Prop
  | plain {name : FieldRef} {condition : Condition} {field : Field} {t : Test} :
      env.catalog.field? name.name = some field → env.Tests field condition t →
      condition.negated = false → Means (.leaf name condition) (.leaf field.path t)
  | negated {name : FieldRef} {condition : Condition} {field : Field} {t : Test} :
      env.catalog.field? name.name = some field → env.Tests field condition t →
      condition.negated = true → Means (.leaf name condition) (.not (.leaf field.path t))
  | group {fs : List Filter} {ps : List Predicate} (op : Connective) :
      MeansOperands fs ps → Means (.group op fs) (.group op ps)

inductive MeansOperands : List Filter → List Predicate → Prop
  | nil : MeansOperands [] []
  | cons {f : Filter} {p : Predicate} {fs : List Filter} {ps : List Predicate} :
      Means f p → MeansOperands fs ps → MeansOperands (f :: fs) (p :: ps)

end

variable {env}

theorem require_eq_ok_iff {name : String} {field : Field} :
    env.catalog.require name = .ok field ↔ env.catalog.field? name = some field := by
  cases h : env.catalog.field? name <;> simp [Catalog.require, h]

theorem require_eq_error_iff {name : String} {e : FilterError} :
    env.catalog.require name = .error e ↔
      env.catalog.field? name = none ∧ e = .unknownField name := by
  cases h : env.catalog.field? name <;> simp [Catalog.require, h, eq_comm]

theorem leaf_eq_ok_iff {name : FieldRef} {condition : Condition} {p : Predicate} :
    env.leaf name condition = .ok p ↔ ∃ field t, env.catalog.field? name.name = some field ∧
      env.Tests field condition t ∧ p = .leaf field.path t := by
  rw [leaf, bind_eq_ok_iff]
  simp only [bind_pure_eq_ok_iff, require_eq_ok_iff, test_eq_ok_iff]
  constructor
  · intro given
    obtain ⟨field, known, t, tests, rfl⟩ := given
    exact ⟨field, t, known, tests, rfl⟩
  · intro given
    obtain ⟨field, t, known, tests, rfl⟩ := given
    exact ⟨field, known, t, tests, rfl⟩

theorem leaf_eq_error_iff {name : FieldRef} {condition : Condition} {e : FilterError} :
    env.leaf name condition = .error e ↔ env.LeafFault (name, condition) e := by
  rw [leaf, bind_eq_error_iff]
  simp only [bind_pure_eq_error_iff, require_eq_ok_iff, require_eq_error_iff, test_eq_error_iff]
  constructor
  · intro given
    rcases given with ⟨unknown, rfl⟩ | ⟨field, known, fault⟩
    · exact .unknown unknown
    · exact .test known fault
  · intro fault
    cases fault with
    | unknown unknown => exact .inl ⟨unknown, rfl⟩
    | test known fault => exact .inr ⟨_, known, fault⟩

theorem compiles_iff {name : FieldRef} {condition : Condition} :
    env.Compiles (name, condition) ↔ ∃ p, env.leaf name condition = .ok p := by
  simp only [leaf_eq_ok_iff, Compiles]
  constructor
  · intro given
    obtain ⟨field, t, known, tests⟩ := given
    exact ⟨_, field, t, known, tests, rfl⟩
  · intro given
    obtain ⟨_, field, t, known, tests, rfl⟩ := given
    exact ⟨field, t, known, tests⟩

theorem means_leaf_iff {name : FieldRef} {condition : Condition} {p : Predicate} :
    env.Means (.leaf name condition) p ↔
      ∃ positive, env.leaf name condition = .ok positive ∧
        positive.negateIf condition.negated = p := by
  simp only [leaf_eq_ok_iff]
  constructor
  · intro means
    cases means with
    | plain known tests plain => exact ⟨_, ⟨_, _, known, tests, rfl⟩, by rw [plain]; rfl⟩
    | negated known tests negated => exact ⟨_, ⟨_, _, known, tests, rfl⟩, by rw [negated]; rfl⟩
  · intro given
    obtain ⟨_, ⟨field, t, known, tests, rfl⟩, rfl⟩ := given
    cases negated : condition.negated with
    | false => exact .plain known tests negated
    | true => exact .negated known tests negated

theorem result_leaf (name : FieldRef) (condition : Condition) (emitted : Nat) :
    (env.compileFrom .unbounded (.leaf name condition) emitted).result =
      env.leaf name condition >>= fun p => pure (p.negateIf condition.negated) := by
  rw [compileFrom_leaf, Emission.andThen_result]
  rfl

theorem result_group (op : Connective) (fs : List Filter) (emitted : Nat) :
    (env.compileFrom .unbounded (.group op fs) emitted).result =
      (env.compileOperands .unbounded fs emitted).result >>= fun ps => pure (.group op ps) := by
  rw [compileFrom_group, Emission.andThen_result]
  rfl

theorem result_cons (f : Filter) (fs : List Filter) (emitted : Nat) :
    (env.compileOperands .unbounded (f :: fs) emitted).result =
      (env.compileFrom .unbounded f emitted).result >>= fun p =>
        (env.compileOperands .unbounded fs
          (env.compileFrom .unbounded f emitted).emitted).result >>= fun ps => pure (p :: ps) := by
  simp only [compileOperands_cons, Emission.andThen_result]
  rfl

mutual

theorem result_eq_ok_iff (f : Filter) {emitted : Nat} {p : Predicate} :
    (env.compileFrom .unbounded f emitted).result = .ok p ↔ env.Means f p := by
  match f with
  | .leaf name condition =>
    rw [result_leaf, bind_pure_eq_ok_iff, means_leaf_iff]
  | .group op fs =>
    simp only [result_group, bind_pure_eq_ok_iff, operands_eq_ok_iff fs]
    constructor
    · intro given
      obtain ⟨ps, means, rfl⟩ := given
      exact .group op means
    · intro means
      cases means with
      | group op means => exact ⟨_, means, rfl⟩

theorem operands_eq_ok_iff (fs : List Filter) {emitted : Nat} {ps : List Predicate} :
    (env.compileOperands .unbounded fs emitted).result = .ok ps ↔ env.MeansOperands fs ps := by
  match fs with
  | [] =>
    rw [compileOperands_nil]
    constructor
    · rintro ⟨⟩
      exact .nil
    · rintro ⟨⟩
      rfl
  | f :: fs =>
    rw [result_cons, bind_eq_ok_iff]
    simp only [bind_pure_eq_ok_iff, result_eq_ok_iff f, operands_eq_ok_iff fs]
    constructor
    · intro given
      obtain ⟨p, first, ps, rest, rfl⟩ := given
      exact .cons first rest
    · intro means
      cases means with
      | cons first rest => exact ⟨_, first, _, rest, rfl⟩

end

mutual

theorem exists_means_iff (f : Filter) :
    (∃ p, env.Means f p) ↔ ∀ leaf ∈ f.leaves, env.Compiles leaf := by
  match f with
  | .leaf name condition =>
    simp only [means_leaf_iff, Filter.leaves, List.forall_mem_singleton, compiles_iff]
    constructor
    · intro given
      obtain ⟨_, positive, h, -⟩ := given
      exact ⟨positive, h⟩
    · intro given
      obtain ⟨positive, h⟩ := given
      exact ⟨_, positive, h, rfl⟩
  | .group op fs =>
    rw [Filter.leaves, ← exists_meansOperands_iff fs]
    constructor
    · intro given
      obtain ⟨_, means⟩ := given
      cases means with
      | group op means => exact ⟨_, means⟩
    · intro given
      obtain ⟨ps, means⟩ := given
      exact ⟨_, .group op means⟩

theorem exists_meansOperands_iff (fs : List Filter) :
    (∃ ps, env.MeansOperands fs ps) ↔ ∀ leaf ∈ Filter.operandLeaves fs, env.Compiles leaf := by
  match fs with
  | [] => simpa [Filter.operandLeaves] using ⟨[], .nil⟩
  | f :: fs =>
    rw [Filter.operandLeaves, List.forall_mem_append, ← exists_means_iff f,
      ← exists_meansOperands_iff fs]
    constructor
    · intro given
      obtain ⟨_, means⟩ := given
      cases means with
      | cons first rest => exact ⟨⟨_, first⟩, ⟨_, rest⟩⟩
    · intro given
      obtain ⟨⟨p, first⟩, ⟨ps, rest⟩⟩ := given
      exact ⟨_, .cons first rest⟩

end

theorem firstFault_append_iff {xs ys : List (FieldRef × Condition)} {e : FilterError} :
    env.FirstFault (xs ++ ys) e ↔
      env.FirstFault xs e ∨ (∀ leaf ∈ xs, env.Compiles leaf) ∧ env.FirstFault ys e := by
  induction xs with
  | nil =>
    have none : ¬ env.FirstFault [] e := nofun
    simp [none]
  | cons leaf xs ih =>
    rw [List.cons_append]
    constructor
    · intro fault
      cases fault with
      | here _ fault => exact .inl (.here xs fault)
      | later compiles fault =>
        rcases ih.1 fault with inside | ⟨all, behind⟩
        · exact .inl (.later compiles inside)
        · exact .inr ⟨List.forall_mem_cons.2 ⟨compiles, all⟩, behind⟩
    · intro given
      rcases given with fault | ⟨all, behind⟩
      · cases fault with
        | here _ fault => exact .here _ fault
        | later compiles fault => exact .later compiles (ih.2 (.inl fault))
      · obtain ⟨compiles, all⟩ := List.forall_mem_cons.1 all
        exact .later compiles (ih.2 (.inr ⟨all, behind⟩))

theorem firstFault_singleton_iff {leaf : FieldRef × Condition} {e : FilterError} :
    env.FirstFault [leaf] e ↔ env.LeafFault leaf e := by
  constructor
  · intro fault
    cases fault with
    | here _ fault => exact fault
    | later _ fault => cases fault
  · exact .here []

mutual

theorem result_eq_error_iff (f : Filter) {emitted : Nat} {e : FilterError} :
    (env.compileFrom .unbounded f emitted).result = .error e ↔ env.FirstFault f.leaves e := by
  match f with
  | .leaf name condition =>
    rw [result_leaf, bind_pure_eq_error_iff, leaf_eq_error_iff, Filter.leaves,
      firstFault_singleton_iff]
  | .group op fs =>
    rw [result_group, bind_pure_eq_error_iff, operands_eq_error_iff fs, Filter.leaves]

theorem operands_eq_error_iff (fs : List Filter) {emitted : Nat} {e : FilterError} :
    (env.compileOperands .unbounded fs emitted).result = .error e ↔
      env.FirstFault (Filter.operandLeaves fs) e := by
  match fs with
  | [] =>
    rw [compileOperands_nil]
    constructor <;> exact nofun
  | f :: fs =>
    -- The operands behind the first count only if it compiles, that is if its conditions do.
    rw [result_cons, bind_eq_error_iff]
    simp only [bind_pure_eq_error_iff, result_eq_ok_iff, result_eq_error_iff f,
      operands_eq_error_iff fs]
    rw [exists_and_right, exists_means_iff, Filter.operandLeaves, firstFault_append_iff]

end

/-- Without a limit a filter compiles exactly if each of its conditions does, to a predicate of the
filter's shape; if not, the first condition that fails tells the error. -/
theorem compile_unbounded (env : Environment) (f : Filter) :
    ((∃ p, (env.compile .unbounded f).result = .ok p) ↔
      ∀ leaf ∈ f.leaves, env.Compiles leaf) ∧
    (∀ p, (env.compile .unbounded f).result = .ok p ↔ env.Means f p) ∧
    (∀ e, (env.compile .unbounded f).result = .error e ↔ env.FirstFault f.leaves e) := by
  refine ⟨?_, fun p => result_eq_ok_iff f, fun e => result_eq_error_iff f⟩
  rw [← exists_means_iff]
  exact exists_congr fun p => result_eq_ok_iff f

end Environment

end Criteria
