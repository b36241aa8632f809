import Criteria.Proofs.Query.Steps

set_option autoImplicit false

namespace Criteria

namespace Query

def Mirrored (q : Query) : Prop :=
  q.count = q.rows

variable {q : Query}

theorem mirrored_start (catalog : Catalog) (limit : ExpressionLimit) (text : Option String)
    (distinct : Bool) : (start catalog limit text distinct).Mirrored :=
  rfl

theorem mirrored_bind (mirrored : q.Mirrored) (name : String) (v : Value) :
    (q.bind name v).1.Mirrored := by
  have count : q.count.bind name v = q.rows.bind name v := by rw [mirrored]
  unfold bind
  cases bound : q.rows.bind name v with
  | error e => exact mirrored
  | ok rows =>
    -- The second write is made to the same filter as the first, so it is not refused.
    simp only [count, bound]
    rfl

theorem mirrored_predefine (mirrored : q.Mirrored) (p : Predicate) : (q.predefine p).Mirrored :=
  congrArg (FilterModel.predefine · p) mirrored

theorem kept_mirrored : Kept Mirrored where
  bind := mirrored_bind
  order mirrored _ _ _ _ _ := mirrored
  page mirrored _ := mirrored
  distinct mirrored _ := mirrored
  predefine := mirrored_predefine

theorem mirrored_run (mirrored : q.Mirrored) (steps : List QueryStep) :
    (q.run steps).Mirrored :=
  kept_mirrored.run mirrored steps

theorem Mirrored.compile (mirrored : q.Mirrored) (coercions : CoercionRegistry) (distinct : Bool) :
    (∃ rows count, q.compile coercions = .ok rows ∧
      q.compileCount coercions distinct = .ok count ∧ count.filter = rows.filter ∧
      count.joins = rows.joins ∧ rows.distinct = q.distinct ∧ count.distinct = distinct) ∨
    ∃ e, q.compile coercions = .error e ∧ q.compileCount coercions distinct = .error e := by
  unfold Query.compile compileCount
  rw [show q.count = q.rows from mirrored]
  cases q.rows.compile q.catalog coercions q.limit with
  | error e => exact .inr ⟨e, rfl, rfl⟩
  | ok filter => exact .inl ⟨_, _, rfl, rfl, rfl, rfl, rfl, rfl⟩

end Query

/-- Whatever steps are made on a new query, its rows and their count are restricted by the same
parameters and added predicates, and compile to the same filter and joins or fail alike. -/
theorem Provider.run_mirrored (provider : Provider) (text : Option String)
    (steps : List QueryStep) :
    let q := (provider.query text).run steps
    q.count.parameters = q.rows.parameters ∧ q.count.predefined = q.rows.predefined ∧
    ∀ coercions distinct,
      (∃ rows count, q.compile coercions = .ok rows ∧
        q.compileCount coercions distinct = .ok count ∧ count.filter = rows.filter ∧
        count.joins = rows.joins ∧ rows.distinct = q.distinct ∧ count.distinct = distinct) ∨
      ∃ e, q.compile coercions = .error e ∧ q.compileCount coercions distinct = .error e := by
  have mirrored : ((provider.query text).run steps).Mirrored :=
    Query.mirrored_run (Query.mirrored_start _ _ text _) steps
  have same := mirrored
  unfold Query.Mirrored at same
  exact ⟨by rw [same], by rw [same], mirrored.compile⟩

end Criteria
