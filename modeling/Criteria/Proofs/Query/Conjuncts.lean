import Criteria.Proofs.Predicate.Lowering
import Criteria.Proofs.Query.History
import Criteria.Proofs.Query.Joins

set_option autoImplicit false

namespace Criteria

namespace Predicate

variable {truth : AttributePath → Test → Bool}

mutual

def holds (truth : AttributePath → Test → Bool) : Predicate → Bool
  | leaf path test => truth path test
  | group op operands => operandsHold truth op operands
  | not p => !p.holds truth

def operandsHold (truth : AttributePath → Test → Bool) : Connective → List Predicate → Bool
  | .and, [] => true
  | .or, [] => false
  | .and, p :: rest => p.holds truth && operandsHold truth .and rest
  | .or, p :: rest => p.holds truth || operandsHold truth .or rest

end

theorem operandsHold_and (ps : List Predicate) :
    operandsHold truth .and ps = ps.all (holds truth) := by
  induction ps with
  | nil => rfl
  | cons p rest ih => rw [operandsHold, List.all_cons, ih]

theorem operandsHold_or (ps : List Predicate) :
    operandsHold truth .or ps = ps.any (holds truth) := by
  induction ps with
  | nil => rfl
  | cons p rest ih => rw [operandsHold, List.any_cons, ih]

end Predicate

namespace Backend

def deciding (truth : AttributePath → Test → Bool) : Backend Unit Bool where
  test path test := pure (truth path test)
  combine op operands :=
    match op with
    | .and => pure (operands.all id)
    | .or => pure (operands.any id)
  negate operand := pure !operand

end Backend

namespace Predicate

variable (truth : AttributePath → Test → Bool)

mutual

theorem lower_deciding (p : Predicate) : p.lower (.deciding truth) () = (p.holds truth, ()) := by
  cases p with
  | leaf path test => rfl
  | group op operands =>
    rw [lower_group, lowerAll_deciding, holds]
    cases op with
    | and =>
      rw [operandsHold_and, ← Function.id_comp (holds truth), ← List.all_map]
      rfl
    | or =>
      rw [operandsHold_or, ← Function.id_comp (holds truth), ← List.any_map]
      rfl
  | not p =>
    rw [lower_not, lower_deciding]
    rfl

theorem lowerAll_deciding (ps : List Predicate) :
    lowerAll (.deciding truth) ps () = (ps.map (holds truth), ()) := by
  match ps with
  | [] => rfl
  | p :: rest => rw [lowerAll_cons, lower_deciding, lowerAll_deciding, List.map_cons]

end

end Predicate

namespace CompiledFilter

variable (f : CompiledFilter)

theorem predicate?_eq_none_iff : f.predicate? = none ↔ f.conjuncts = [] := by
  unfold predicate?
  split <;> simp_all

theorem lower_eq_predicate? {σ ε : Type} (b : Backend σ ε) :
    f.lower b = f.predicate?.mapM (Predicate.lower b) := by
  unfold lower predicate?
  split <;> rfl

theorem all_predicate? (truth : AttributePath → Test → Bool) :
    f.predicate?.all (Predicate.holds truth) = f.conjuncts.all (Predicate.holds truth) := by
  unfold predicate?
  split
  · next none => simp [none]
  · next p single => simp [single]
  · next ps none single => simp [Predicate.holds, Predicate.operandsHold_and]

end CompiledFilter

/-- The conjuncts of a compiled query are the predicate of its text and the predicates that were
added, as many as there are and in their order, under any limit. Taken as one predicate or lowered,
the filter does the same to every backend, and holds where all conjuncts do. -/
theorem Provider.compile_conjuncts (provider : Provider) (text : Option String)
    (steps : List QueryStep) (coercions : CoercionRegistry) {compiled : CompiledQuery}
    (compiles : ((provider.query text).run steps).compile coercions = .ok compiled) :
    ∃ p? : Option Predicate,
      let parameters := ((provider.query text).run steps).rows.parameters
      let predefined := steps.filterMap (·.predefined? provider.catalog)
      (Environment.compileText ⟨provider.catalog, parameters, coercions⟩ .unbounded text).1 =
        .ok p? ∧
      (p? = none ↔ text = none) ∧
      compiled.filter.conjuncts = p?.toList ++ predefined ∧
      (compiled.filter.predicate? = none ↔ compiled.filter.conjuncts = []) ∧
      (∀ {σ ε : Type} (b : Backend σ ε) (s : σ),
        compiled.filter.lower b s = compiled.filter.predicate?.mapM (Predicate.lower b) s) ∧
      ∀ truth : AttributePath → Test → Bool,
        compiled.filter.lower (.deciding truth) () =
          (compiled.filter.predicate?.map (Predicate.holds truth), ()) ∧
        (compiled.filter.predicate?.all (Predicate.holds truth) ↔
          (∀ p, p? = some p → p.holds truth) ∧ ∀ p ∈ predefined, p.holds truth) := by
  have recalls := Query.Recalls.run provider text steps
  obtain ⟨-, -, p?, made, conjuncts⟩ := Query.compile_eq_ok compiles
  rw [recalls.catalog_eq, recalls.text_eq] at made
  rw [recalls.predefined_eq] at conjuncts
  obtain ⟨unlimited, untold⟩ := Environment.compileText_unbounded made
  refine ⟨p?, unlimited, untold, conjuncts, compiled.filter.predicate?_eq_none_iff,
    fun b s => ?_, fun truth => ⟨?_, ?_⟩⟩
  · rw [CompiledFilter.lower_eq_predicate?]
  · rw [CompiledFilter.lower_eq_predicate?]
    cases compiled.filter.predicate? with
    | none => rfl
    | some p =>
      exact congrArg (fun decided => (some decided.1, ())) (Predicate.lower_deciding truth p)
  · rw [CompiledFilter.all_predicate?, conjuncts, List.all_append, Bool.and_eq_true,
      List.all_eq_true, List.all_eq_true]
    simp only [Option.mem_toList]

namespace Query

-- Groups among the conjuncts, one of them empty, stay as they are.
def amongGroups : List QueryStep :=
  [.predefine (.group .or []), .bind "n" (.text "Logic"), .predefine (hasCredits.conj hasCredits)]

def named : Predicate :=
  .leaf ⟨.root, ["name"], some .text⟩ (.compare .eq (.text "Logic"))

def amongGroupsCompiled : CompiledQuery where
  filter := ⟨[named, .group .or [], hasCredits.conj hasCredits]⟩
  order := none
  page := {}
  distinct := true
  joins := lectures.catalog.joins

theorem amongGroups_conjuncts :
    ((lectures.query (some "name = :n")).run amongGroups).compile .seeded =
        .ok amongGroupsCompiled ∧
      amongGroupsCompiled.filter.lower recorder #[] =
        amongGroupsCompiled.filter.predicate?.mapM (Predicate.lower recorder) #[] := by
  have compiles : ((lectures.query (some "name = :n")).run amongGroups).compile .seeded =
      .ok amongGroupsCompiled := by cbv
  obtain ⟨p?, -, -, -, -, lowered, -⟩ := Provider.compile_conjuncts lectures (some "name = :n")
    amongGroups .seeded compiles
  exact ⟨compiles, lowered recorder #[]⟩

end Query

end Criteria
