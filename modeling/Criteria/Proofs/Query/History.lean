import Criteria.Proofs.Binding.Agreement
import Criteria.Proofs.Query.Mirroring
import Mathlib

set_option autoImplicit false

namespace Criteria

namespace QueryStep

@[simp]
def values : QueryStep → List (String × Value)
  | bind name v => [(name, v)]
  | bindAll values => values
  | _ => []

@[simp]
def predefined? (c : Catalog) : QueryStep → Option Predicate
  | predefine p => some p
  | predefineWith build => (build c).toOption
  | _ => none

def orderSpec? (c : Catalog) (field : String) (direction : OrderDirection) : Option OrderSpec := do
  let f ← c.field? field
  if f.orderable then some ⟨f.name, f.path, direction⟩ else none

@[simp]
def order? (c : Catalog) : QueryStep → Option OrderSpec
  | order field direction => (OrderDirection.ofName direction).toOption.bind (orderSpec? c field)
  | orderBy field direction => orderSpec? c field direction
  | _ => none

@[simp]
def page? : QueryStep → Option Page
  | paginate limit offset => (Page.checked limit offset).toOption
  | setPage page => some page
  | _ => none

@[simp]
def distinct? : QueryStep → Option Bool
  | setDistinct distinct => some distinct
  | _ => none

end QueryStep

def bindNew (bound : List (String × Value)) : List (String × Value) → List (String × Value)
  | [] => bound
  | (name, v) :: rest =>
    if (bound.lookup name).isSome then bound else bindNew (bound ++ [(name, v)]) rest

def bindings (steps : List QueryStep) : List (String × Value) :=
  steps.foldl (fun bound step => bindNew bound step.values) []

structure QueryFacts where
  value? : String → Option Value
  predefined : List Predicate
  order : Option OrderSpec
  page : Page
  distinct : Bool

def Provider.facts (provider : Provider) (steps : List QueryStep) : QueryFacts where
  value? name := (bindings steps).lookup name
  predefined := steps.filterMap (·.predefined? provider.catalog)
  order := (steps.filterMap (·.order? provider.catalog)).getLast?
  page := (steps.filterMap (·.page?)).getLast?.getD {}
  distinct := (steps.filterMap (·.distinct?)).getLast?.getD provider.config.distinct

theorem filterMap_concat {α β : Type} (f : α → Option β) (xs : List α) (x : α) :
    (xs ++ [x]).filterMap f = xs.filterMap f ++ (f x).toList := by
  cases made : f x <;> simp [made]

theorem getLast?_filterMap_concat {α β : Type} (f : α → Option β) (xs : List α) (x : α) :
    ((xs ++ [x]).filterMap f).getLast? = (f x).or (xs.filterMap f).getLast? := by
  rw [filterMap_concat, List.getLast?_append]
  cases f x <;> rfl

namespace Parameters

def Binds (ps : Parameters) (bound : List (String × Value)) : Prop :=
  ∀ name, ps.get? name = bound.lookup name

theorem Binds.insert {ps : Parameters} {bound : List (String × Value)} {name : String}
    (binds : ps.Binds bound) (free : ps.get? name = none) (v : Value) :
    Binds ⟨ps.values.insert name v⟩ (bound ++ [(name, v)]) := by
  intro other
  rw [List.lookup_append, ← binds other, List.lookup_cons]
  by_cases same : other = name
  · subst same
    rw [free]
    simp [get?]
  · have apart : (other == name) = false := beq_eq_false_iff_ne.2 same
    have apart' : name ≠ other := Ne.symm same
    simp [get?, Std.TreeMap.getElem?_insert, apart, apart']

end Parameters

namespace Query

variable {q after : Query} {name : String} {v : Value} {bound : List (String × Value)}
  {step : QueryStep} {e : FilterError}

def facts (q : Query) : QueryFacts :=
  ⟨q.rows.parameters.get?, q.rows.predefined, q.order, q.page, q.distinct⟩

def withParameters (q : Query) (ps : Parameters) : Query :=
  { q with
    rows := { q.rows with parameters := ps }
    count := { q.rows with parameters := ps } }

theorem Mirrored.withParameters (mirrored : q.Mirrored) :
    q.withParameters q.rows.parameters = q := by
  obtain ⟨catalog, limit, rows, count⟩ := q
  cases (mirrored : count = rows)
  rfl

theorem bind_taken (taken : (q.rows.parameters.get? name).isSome) (v : Value) :
    q.bind name v = (q, some (.duplicateParameter name)) := by
  obtain ⟨w, present⟩ := Option.isSome_iff_exists.1 taken
  simp [bind, FilterModel.bind, Parameters.bind, present]

theorem bind_free (mirrored : q.Mirrored) (free : q.rows.parameters.get? name = none) (v : Value) :
    q.bind name v = (q.withParameters ⟨q.rows.parameters.values.insert name v⟩, none) := by
  have count : q.count = q.rows := mirrored
  simp [bind, FilterModel.bind, Parameters.bind, count, free, withParameters]

theorem bind_eq_bindAll (q : Query) (name : String) (v : Value) :
    q.bind name v = q.bindAll [(name, v)] := by
  rw [bindAll]
  split
  · next stopped => exact stopped
  · next passed => exact passed

theorem bindAll_eq (mirrored : q.Mirrored) (binds : q.rows.parameters.Binds bound)
    (values : List (String × Value)) : ∃ ps : Parameters,
      (q.bindAll values).1 = q.withParameters ps ∧ ps.Binds (bindNew bound values) := by
  induction values generalizing q bound with
  | nil => exact ⟨_, mirrored.withParameters.symm, binds⟩
  | cons entry values ih =>
    obtain ⟨name, v⟩ := entry
    cases free : q.rows.parameters.get? name with
    | some w =>
      rw [bindAll, bind_taken (by simp [free]), bindNew, ← binds, free]
      exact ⟨_, mirrored.withParameters.symm, binds⟩
    | none =>
      rw [bindAll, bind_free mirrored free, bindNew, ← binds, free]
      exact ih rfl (binds.insert free v)

theorem bindAll_failed (mirrored : q.Mirrored) {values : List (String × Value)}
    (failed : q.bindAll values = (after, some e)) :
    ∃ before name v rest, values = before ++ (name, v) :: rest ∧
      q.bindAll before = (after, none) ∧ (after.rows.parameters.get? name).isSome ∧
      e = .duplicateParameter name := by
  induction values generalizing q with
  | nil => cases failed
  | cons entry values ih =>
    obtain ⟨name, v⟩ := entry
    cases free : q.rows.parameters.get? name with
    | some w =>
      rw [bindAll, bind_taken (by simp [free])] at failed
      cases failed
      exact ⟨[], name, v, values, rfl, rfl, by simp [free], rfl⟩
    | none =>
      have bound := bind_free mirrored free v
      rw [bindAll, bound] at failed
      obtain ⟨before, other, w, rest, split, kept, taken⟩ :=
        ih (q := q.withParameters _) rfl failed
      refine ⟨(name, v) :: before, other, w, rest, by rw [split, List.cons_append], ?_, taken⟩
      rw [bindAll, bound]
      exact kept

theorem orUnchanged_failed {changed : Except FilterError Query}
    (failed : q.orUnchanged changed = (after, some e)) : after = q := by
  cases changed with
  | error e' => cases failed; rfl
  | ok next => cases failed

theorem apply_failed (mirrored : q.Mirrored) (failed : q.apply step = (after, some e)) :
    ((∀ values, step ≠ .bindAll values) → after = q) ∧
    ∀ values, step = .bindAll values → ∃ before name v rest, values = before ++ (name, v) :: rest ∧
      q.bindAll before = (after, none) ∧ (after.rows.parameters.get? name).isSome ∧
      e = .duplicateParameter name := by
  refine ⟨fun single => ?_, fun values all => ?_⟩
  · cases step with
    | bind name v =>
      cases free : q.rows.parameters.get? name with
      | some w =>
        rw [apply, bind_taken (by simp [free])] at failed
        cases failed
        rfl
      | none =>
        rw [apply, bind_free mirrored free] at failed
        cases failed
    | bindAll values => exact absurd rfl (single values)
    | order field direction => exact orUnchanged_failed failed
    | orderBy field direction => exact orUnchanged_failed failed
    | paginate limit offset => exact orUnchanged_failed failed
    | setPage page => cases failed
    | setDistinct distinct => cases failed
    | predefine p => cases failed
    | predefineWith build => exact orUnchanged_failed failed
  · subst all
    exact bindAll_failed mirrored failed

def behind (q : Query) (step : QueryStep) (ps : Parameters) : Query :=
  let filter :=
    ⟨q.rows.text, ps, q.rows.predefined ++ (step.predefined? q.catalog).toList⟩
  { q with
    rows := filter
    count := filter
    order := (step.order? q.catalog).or q.order
    page := step.page?.getD q.page
    distinct := step.distinct?.getD q.distinct }

theorem orderBy_eq (q : Query) (field : String) (direction : OrderDirection) :
    (q.orUnchanged (q.orderBy field direction)).1 =
      { q with order := (QueryStep.orderSpec? q.catalog field direction).or q.order } := by
  unfold orderBy QueryStep.orderSpec?
  cases known : q.catalog.field? field with
  | none => rfl
  | some f => cases orderable : f.orderable <;> simp [orUnchanged, orderable]

theorem orderByName_eq (q : Query) (field direction : String) :
    (q.orUnchanged (q.orderByName field direction)).1 =
      { q with
        order := (QueryStep.order? q.catalog (.order field direction)).or q.order } := by
  unfold orderByName
  cases named : OrderDirection.ofName direction with
  | error e => simp [orUnchanged, named, Except.toOption]
  | ok direction => simp [orderBy_eq, named, Except.toOption]

theorem paginate_eq (q : Query) (limit offset : Int) :
    (q.orUnchanged (q.paginate limit offset)).1 =
      { q with page := (QueryStep.page? (.paginate limit offset)).getD q.page } := by
  unfold paginate
  cases checked : Page.checked limit offset <;>
    simp [orUnchanged, checked, Except.toOption]

theorem behind_of_bindAll (q : Query) (values : List (String × Value)) (ps : Parameters) :
    q.behind (.bindAll values) ps = q.withParameters ps := by
  simp [behind, withParameters]

theorem apply_unbound (mirrored : q.Mirrored) (unbound : step.values = []) :
    (q.apply step).1 = q.behind step q.rows.parameters := by
  obtain ⟨catalog, limit, rows, count⟩ := q
  cases (mirrored : count = rows)
  cases step with
  | bind name v => cases unbound
  | bindAll values =>
    cases unbound
    simp [apply, bindAll, behind]
  | order field direction => rw [apply, orderByName_eq]; simp [behind]
  | orderBy field direction => rw [apply, orderBy_eq]; simp [behind]
  | paginate limit offset => rw [apply, paginate_eq]; simp [behind]
  | setPage page => simp [apply, behind]
  | setDistinct distinct => simp [apply, behind]
  | predefine p => simp [apply, predefine, FilterModel.predefine, behind]
  | predefineWith build =>
    cases built : build catalog <;>
      simp [apply, orUnchanged, predefine, FilterModel.predefine, behind, built, Except.map,
        Except.toOption]

theorem apply_eq (mirrored : q.Mirrored) (binds : q.rows.parameters.Binds bound)
    (step : QueryStep) : ∃ ps : Parameters,
      (q.apply step).1 = q.behind step ps ∧ ps.Binds (bindNew bound step.values) := by
  have ofBindAll (values : List (String × Value)) : ∃ ps : Parameters,
      (q.bindAll values).1 = q.behind (.bindAll values) ps ∧ ps.Binds (bindNew bound values) := by
    obtain ⟨ps, same, binds⟩ := bindAll_eq mirrored binds values
    exact ⟨ps, same.trans (q.behind_of_bindAll values ps).symm, binds⟩
  cases step with
  | bind name v =>
    -- A single value is bound as a list of one.
    rw [apply, bind_eq_bindAll]
    exact ofBindAll [(name, v)]
  | bindAll values => exact ofBindAll values
  | _ => exact ⟨_, apply_unbound mirrored rfl, binds⟩

/-- What a run of steps on a new query left. -/
structure Recalls (provider : Provider) (text : Option String) (steps : List QueryStep)
    (q : Query) : Prop where
  mirrored : q.Mirrored
  catalog_eq : q.catalog = provider.catalog
  limit_eq : q.limit = provider.config.maxExpressions
  text_eq : q.rows.text = text
  binds : q.rows.parameters.Binds (bindings steps)
  predefined_eq : q.rows.predefined = steps.filterMap (·.predefined? provider.catalog)
  order_eq : q.order = (steps.filterMap (·.order? provider.catalog)).getLast?
  page_eq : q.page = (steps.filterMap (·.page?)).getLast?.getD {}
  distinct_eq : q.distinct = (steps.filterMap (·.distinct?)).getLast?.getD provider.config.distinct

namespace Recalls

variable {provider : Provider} {text : Option String} {steps steps' : List QueryStep} {q q' : Query}

theorem start (provider : Provider) (text : Option String) :
    (provider.query text).Recalls provider text [] where
  mirrored := rfl
  catalog_eq := rfl
  limit_eq := rfl
  text_eq := rfl
  binds _ := by simp [Provider.query, Query.start, Parameters.get?, bindings]
  predefined_eq := rfl
  order_eq := rfl
  page_eq := rfl
  distinct_eq := rfl

theorem apply (recalls : q.Recalls provider text steps) (step : QueryStep) :
    (q.apply step).1.Recalls provider text (steps ++ [step]) := by
  obtain ⟨ps, same, binds⟩ := apply_eq recalls.mirrored recalls.binds step
  rw [same]
  -- What the step sets is the last of the run; where it sets nothing, the last before it stays.
  exact {
    mirrored := rfl
    catalog_eq := recalls.catalog_eq
    limit_eq := recalls.limit_eq
    text_eq := recalls.text_eq
    binds := by simpa [behind, bindings] using binds
    predefined_eq := by
      rw [filterMap_concat, ← recalls.predefined_eq, ← recalls.catalog_eq]
      rfl
    order_eq := by
      rw [getLast?_filterMap_concat, ← recalls.order_eq, ← recalls.catalog_eq]
      rfl
    page_eq := by
      rw [getLast?_filterMap_concat, Option.getD_or, ← recalls.page_eq]
      rfl
    distinct_eq := by
      rw [getLast?_filterMap_concat, Option.getD_or, ← recalls.distinct_eq]
      rfl }

theorem run (provider : Provider) (text : Option String) (steps : List QueryStep) :
    ((provider.query text).run steps).Recalls provider text steps := by
  induction steps using List.reverseRecOn with
  | nil => exact start provider text
  | append_singleton steps step ih =>
    rw [Query.run, List.foldl_concat]
    exact ih.apply step

theorem facts (recalls : q.Recalls provider text steps) : q.facts = provider.facts steps := by
  rw [Query.facts, Provider.facts, recalls.predefined_eq, recalls.order_eq, recalls.page_eq,
    recalls.distinct_eq, funext recalls.binds]

theorem filter (recalls : q.Recalls provider text steps)
    (recalls' : q'.Recalls provider text steps') (same : q.facts = q'.facts)
    (coercions : CoercionRegistry) :
    q.rows.compile q.catalog coercions q.limit = q'.rows.compile q'.catalog coercions q'.limit := by
  injection same with values predefined
  have compiled :
      Environment.compileText ⟨provider.catalog, q.rows.parameters, coercions⟩
          provider.config.maxExpressions text =
        Environment.compileText ⟨provider.catalog, q'.rows.parameters, coercions⟩
          provider.config.maxExpressions text :=
    Environment.compileText_congr fun _ _ _ _ =>
      ⟨fun name _ => congrFun values name, fun _ _ => rfl, fun _ _ => rfl⟩
  simp only [FilterModel.compile, recalls.catalog_eq, recalls.limit_eq, recalls.text_eq,
    recalls'.catalog_eq, recalls'.limit_eq, recalls'.text_eq, compiled, predefined]

theorem compile (recalls : q.Recalls provider text steps)
    (recalls' : q'.Recalls provider text steps') (same : q.facts = q'.facts)
    (coercions : CoercionRegistry) : q.compile coercions = q'.compile coercions := by
  have filter := recalls.filter recalls' same coercions
  have catalog : q.catalog = q'.catalog := recalls.catalog_eq.trans recalls'.catalog_eq.symm
  injection same with values predefined order page distinct
  rw [Query.compile, Query.compile, filter, order, page, distinct, catalog]

theorem compileCount (recalls : q.Recalls provider text steps)
    (recalls' : q'.Recalls provider text steps') (same : q.facts = q'.facts)
    (coercions : CoercionRegistry) (distinct : Bool) :
    q.compileCount coercions distinct = q'.compileCount coercions distinct := by
  have filter := recalls.filter recalls' same coercions
  have catalog : q.catalog = q'.catalog := recalls.catalog_eq.trans recalls'.catalog_eq.symm
  have count : q.count = q.rows := recalls.mirrored
  have count' : q'.count = q'.rows := recalls'.mirrored
  rw [Query.compileCount, Query.compileCount, count, count', filter, catalog]

end Recalls

end Query

/-- A run of steps leaves the facts that are told of it, and a step that fails leaves nothing but
the values that were bound before the name it fails at. So runs of which the same is told compile
alike, however their steps are mixed and whatever failed among them. -/
theorem Provider.run_told (provider : Provider) (text : Option String) :
    (∀ steps, ((provider.query text).run steps).facts = provider.facts steps) ∧
    (∀ steps step after e,
      let q := (provider.query text).run steps
      q.apply step = (after, some e) →
        ((∀ values, step ≠ .bindAll values) → after = q) ∧
        ∀ values, step = .bindAll values →
          ∃ before name v rest, values = before ++ (name, v) :: rest ∧
            q.bindAll before = (after, none) ∧ (after.rows.parameters.get? name).isSome ∧
            e = .duplicateParameter name) ∧
    ∀ steps steps', provider.facts steps = provider.facts steps' →
      let q := (provider.query text).run steps
      let q' := (provider.query text).run steps'
      ∀ coercions distinct, q.compile coercions = q'.compile coercions ∧
        q.compileCount coercions distinct = q'.compileCount coercions distinct := by
  have recalls := Query.Recalls.run provider text
  refine ⟨fun steps => (recalls steps).facts, fun steps step after e failed => ?_,
    fun steps steps' told coercions distinct => ?_⟩
  · exact Query.apply_failed (recalls steps).mirrored failed
  · have same : ((provider.query text).run steps).facts = ((provider.query text).run steps').facts :=
      ((recalls steps).facts.trans told).trans (recalls steps').facts.symm
    exact ⟨(recalls steps).compile (recalls steps') same coercions,
      (recalls steps).compileCount (recalls steps') same coercions distinct⟩

namespace Query

def lectures : Provider where
  catalog := Environment.byNameAndMore.catalog
  coercions := .seeded

def hasCredits : Predicate :=
  .not (.leaf ⟨.root, ["credits"], some (.int .int)⟩ .null)

def straight : List QueryStep :=
  [.predefine hasCredits, .bind "n" (.text "Logic"), .order "credits" "desc", .setDistinct false,
    .paginate 10 20]

-- In another order, with steps that fail and steps that later ones overrule.
def roundabout : List QueryStep :=
  [.paginate 10 20, .setDistinct true, .order "credits" "asc",
    .bindAll [("n", .text "Logic"), ("n", .text "Sets"), ("low", .null)], .paginate 10 (-1),
    .order "credits" "desc", .order "name" "asc", .predefine hasCredits, .bind "n" .null,
    .order "credits" "up", .setDistinct false]

theorem roundabout_told :
    lectures.facts straight = lectures.facts roundabout ∧
      ((lectures.query (some "name = :n")).run straight).compile .seeded =
        ((lectures.query (some "name = :n")).run roundabout).compile .seeded ∧
      ((lectures.query (some "name = :n")).run straight).compileCount .seeded true =
        ((lectures.query (some "name = :n")).run roundabout).compileCount .seeded true := by
  have told : lectures.facts straight = lectures.facts roundabout := by cbv
  exact ⟨told, (Provider.run_told lectures (some "name = :n")).2.2 _ _ told .seeded true⟩

end Query

end Criteria
