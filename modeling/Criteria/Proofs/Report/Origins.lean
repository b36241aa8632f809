import Criteria.Proofs.Binding.Culprit
import Criteria.Proofs.Query.History
import Criteria.Proofs.Schema.Walk
import Criteria.Report

set_option autoImplicit false

namespace Criteria

def FilterError.origin (e : FilterError) : ErrorOrigin :=
  (ErrorReport.ofError e).origin

variable {e : FilterError}

namespace Schema

variable {s : Schema} {root : EntityType}

theorem origin_of_require {name : String} (failed : s.require name = .error e) :
    e.origin = .schema := by
  unfold require at failed
  split at failed
  · cases failed
  · cases failed
    rfl

theorem Breaks.origin {t : EntityType} {segments : List String} (breaks : s.Breaks t segments e) :
    e.origin = .schema := by
  induction breaks with
  | unknown _ => rfl
  | continued _ => rfl
  | undeclared _ _ _ => rfl
  | further _ _ _ _ ih => exact ih

theorem origin_of_resolve {joins : JoinSet} {path : String}
    (failed : s.resolve root joins path = .error e) : e.origin = .schema := by
  unfold resolve at failed
  split at failed
  · cases failed
  · next _ after stopped =>
    cases failed
    exact (resolveOver_eq_error_iff.1 stopped).1.origin

end Schema

namespace Catalog

variable {c : Catalog}

theorem origin_of_start {schema : Schema} {root : String} (failed : start schema root = .error e) :
    e.origin = .schema := by
  unfold start at failed
  split at failed
  · next missing =>
    cases failed
    exact Schema.origin_of_require missing
  · cases failed

theorem origin_of_register {name attributePath : String} {orderable : Bool}
    {parser : Option ValueParser}
    (failed : c.register name attributePath orderable parser = .error e) : e.origin = .schema := by
  unfold register at failed
  split at failed
  · cases failed
    rfl
  · split at failed
    · next unresolved =>
      cases failed
      exact Schema.origin_of_resolve unresolved
    · cases failed

theorem origin_of_addAll {specs : List FieldSpec} {after : Catalog}
    (failed : c.addAll specs = (after, some e)) : e.origin = .schema := by
  induction specs generalizing c with
  | nil => cases failed
  | cons spec specs ih =>
    rw [addAll] at failed
    split at failed
    · next refused =>
      cases failed
      exact origin_of_register refused
    · exact ih failed

end Catalog

theorem FilterModel.origin_of_bind {m : FilterModel} {name : String} {v : Value}
    (failed : m.bind name v = .error e) : e.origin = .query := by
  unfold FilterModel.bind Parameters.bind at failed
  cases taken : m.parameters.get? name with
  | some w =>
    simp only [taken] at failed
    cases failed
    rfl
  | none => simp [taken] at failed

namespace Query

variable {q after : Query}

theorem origin_of_bind {name : String} {v : Value} (failed : q.bind name v = (after, some e)) :
    e.origin = .query := by
  unfold bind at failed
  split at failed
  · next refused =>
    cases failed
    exact FilterModel.origin_of_bind refused
  · dsimp only at failed
    split at failed
    · next refused =>
      cases failed
      exact FilterModel.origin_of_bind refused
    · cases failed

theorem origin_of_bindAll {values : List (String × Value)}
    (failed : q.bindAll values = (after, some e)) : e.origin = .query := by
  induction values generalizing q with
  | nil => cases failed
  | cons entry values ih =>
    rw [bindAll] at failed
    split at failed
    · next refused =>
      cases failed
      exact origin_of_bind refused
    · exact ih failed

theorem origin_of_orderBy {field : String} {direction : OrderDirection}
    (failed : q.orderBy field direction = .error e) : e.origin = .query := by
  unfold orderBy at failed
  split at failed
  · cases failed
    rfl
  · split at failed
    · cases failed
    · cases failed
      rfl

theorem origin_of_orderByName {field direction : String}
    (failed : q.orderByName field direction = .error e) : e.origin = .query := by
  unfold orderByName at failed
  split at failed
  · cases failed
    rfl
  · exact origin_of_orderBy failed

theorem origin_of_paginate {limit offset : Int} (failed : q.paginate limit offset = .error e) :
    e.origin = .query := by
  unfold paginate at failed
  cases checked : Page.checked limit offset with
  | error cause =>
    simp only [checked] at failed
    cases failed
    unfold Page.checked at checked
    split at checked
    · cases checked
    · cases checked
      rfl
  | ok page => simp [checked] at failed

theorem eq_error_of_orUnchanged {changed : Except FilterError Query}
    (failed : q.orUnchanged changed = (after, some e)) : changed = .error e := by
  cases changed with
  | error cause =>
    cases failed
    rfl
  | ok next => cases failed

theorem origin_of_apply {step : QueryStep} (own : ∀ build, step ≠ .predefineWith build)
    (failed : q.apply step = (after, some e)) : e.origin = .query := by
  cases step with
  | bind name v => exact origin_of_bind failed
  | bindAll values => exact origin_of_bindAll failed
  | order field direction => exact origin_of_orderByName (eq_error_of_orUnchanged failed)
  | orderBy field direction => exact origin_of_orderBy (eq_error_of_orUnchanged failed)
  | paginate limit offset => exact origin_of_paginate (eq_error_of_orUnchanged failed)
  | setPage page => cases failed
  | setDistinct distinct => cases failed
  | predefine p => cases failed
  | predefineWith build => exact absurd rfl (own build)

end Query

theorem Environment.Culprit.origin {env : Environment} {limit : ExpressionLimit} {f : Filter}
    (culprit : env.Culprit limit f e) : e.origin = .binder := by
  cases culprit <;> rfl

namespace Query

variable {q : Query} {coercions : CoercionRegistry}

def Fails (q : Query) (coercions : CoercionRegistry) (e : FilterError) : Prop :=
  q.compile coercions = .error e ∨ ∃ distinct, q.compileCount coercions distinct = .error e

def environment (q : Query) (coercions : CoercionRegistry) : Environment :=
  ⟨q.catalog, q.rows.parameters, coercions⟩

def outcome (q : Query) (coercions : CoercionRegistry) : Except FilterError (Option Predicate) :=
  ((q.environment coercions).compileText q.limit q.rows.text).1

theorem compile_of_outcome_error (mirrored : q.Mirrored) (failed : q.outcome coercions = .error e) :
    q.compile coercions = .error e ∧ ∀ distinct, q.compileCount coercions distinct = .error e := by
  have count : q.count = q.rows := mirrored
  have rows : q.rows.compile q.catalog coercions q.limit = .error e := by
    simp only [outcome, environment] at failed
    simp only [FilterModel.compile, failed]
  refine ⟨?_, fun distinct => ?_⟩
  · rw [compile, rows]
  · rw [compileCount, count, rows]

theorem compile_of_outcome_ok {p? : Option Predicate} (mirrored : q.Mirrored)
    (made : q.outcome coercions = .ok p?) :
    (∃ compiled, q.compile coercions = .ok compiled) ∧
      ∀ distinct, ∃ compiled, q.compileCount coercions distinct = .ok compiled := by
  have count : q.count = q.rows := mirrored
  have rows :
      q.rows.compile q.catalog coercions q.limit = .ok ⟨p?.toList ++ q.rows.predefined⟩ := by
    simp only [outcome, environment] at made
    simp only [FilterModel.compile, made]
  simp [compile, compileCount, count, rows]

theorem outcome_of_fails (mirrored : q.Mirrored) (fails : q.Fails coercions e) :
    q.outcome coercions = .error e := by
  cases made : q.outcome coercions with
  | error cause =>
    obtain ⟨rows, count⟩ := compile_of_outcome_error mirrored made
    rcases fails with failed | ⟨distinct, failed⟩
    · cases rows.symm.trans failed
      rfl
    · cases (count distinct).symm.trans failed
      rfl
  | ok p? =>
    obtain ⟨⟨compiled, rows⟩, count⟩ := compile_of_outcome_ok mirrored made
    rcases fails with failed | ⟨distinct, failed⟩
    · cases rows.symm.trans failed
    · obtain ⟨compiled, count⟩ := count distinct
      cases count.symm.trans failed

theorem outcome_of_malformed {text : String} {fault : SyntaxError} (given : q.rows.text = some text)
    (malformed : Filter.parse text = .error fault) :
    q.outcome coercions = .error (.malformed fault) := by
  simp only [outcome, given, Environment.compileText, malformed]

theorem culprit_of_outcome {text : String} {f : Filter} (given : q.rows.text = some text)
    (parsed : Filter.parse text = .ok f) (failed : q.outcome coercions = .error e) :
    (q.environment coercions).Culprit q.limit f e := by
  simp only [outcome, given, Environment.compileText, parsed] at failed
  cases compiled : ((q.environment coercions).compile q.limit f).result with
  | error cause =>
    rw [compiled] at failed
    cases failed
    exact Environment.culprit_of_compile compiled
  | ok p =>
    rw [compiled] at failed
    cases failed

end Query

/-- The origin told of an error is the part that failed: the schema where fields are declared, the
query where values are bound or an order or a page is set, and where a query is compiled, the parser
for a text that is no filter and the binder for every other. What the binder's error names is at
fault. -/
theorem origin_of_failure :
    (∀ schema root e, Catalog.start schema root = .error e → e.origin = .schema) ∧
    (∀ (c : Catalog) name attributePath orderable parser e,
      c.register name attributePath orderable parser = .error e → e.origin = .schema) ∧
    (∀ (c : Catalog) spec e, c.add spec = .error e → e.origin = .schema) ∧
    (∀ (c : Catalog) specs after e, c.addAll specs = (after, some e) → e.origin = .schema) ∧
    (∀ (q : Query) step after e, (∀ build, step ≠ .predefineWith build) →
      q.apply step = (after, some e) → e.origin = .query) ∧
    ∀ (provider : Provider) text? steps coercions,
      let q := (provider.query text?).run steps
      (text? = none → (∃ compiled, q.compile coercions = .ok compiled) ∧
        ∀ distinct, ∃ compiled, q.compileCount coercions distinct = .ok compiled) ∧
      ∀ text, text? = some text →
        (∀ fault, Filter.parse text = .error fault →
          q.compile coercions = .error (.malformed fault) ∧
          (∀ distinct, q.compileCount coercions distinct = .error (.malformed fault)) ∧
          (FilterError.malformed fault).origin = .parser) ∧
        ∀ f, Filter.parse text = .ok f → ∀ e, q.Fails coercions e →
          e.origin = .binder ∧
            Environment.Culprit ⟨provider.catalog, q.rows.parameters, coercions⟩
              provider.config.maxExpressions f e := by
  refine ⟨fun _ _ _ => Catalog.origin_of_start, fun _ _ _ _ _ _ => Catalog.origin_of_register,
    fun _ _ _ => Catalog.origin_of_register, fun _ _ _ _ => Catalog.origin_of_addAll,
    fun _ _ _ _ => Query.origin_of_apply, fun provider text? steps coercions => ?_⟩
  intro q
  have recalls : q.Recalls provider text? steps := .run provider text? steps
  refine ⟨?_, fun text given => ⟨fun fault malformed => ?_, fun f parsed e fails => ?_⟩⟩
  · rintro rfl
    have made : q.outcome coercions = .ok none := by
      simp only [Query.outcome, recalls.text_eq, Environment.compileText]
    exact Query.compile_of_outcome_ok recalls.mirrored made
  · have failed : q.outcome coercions = .error (.malformed fault) :=
      Query.outcome_of_malformed (recalls.text_eq.trans given) malformed
    obtain ⟨rows, count⟩ := Query.compile_of_outcome_error recalls.mirrored failed
    exact ⟨rows, count, rfl⟩
  · have culprit := Query.culprit_of_outcome (recalls.text_eq.trans given) parsed
      (Query.outcome_of_fails recalls.mirrored fails)
    refine ⟨culprit.origin, ?_⟩
    rw [← recalls.catalog_eq, ← recalls.limit_eq]
    exact culprit

end Criteria
