import Criteria.Query.Provider

set_option autoImplicit false

namespace Criteria

namespace Query

def run (q : Query) (steps : List QueryStep) : Query :=
  steps.foldl (fun q step => (q.apply step).1) q

structure Kept (P : Query → Prop) : Prop where
  bind : ∀ {q}, P q → ∀ name v, P (q.bind name v).1
  order : ∀ {q}, P q → ∀ {name f}, q.catalog.field? name = some f → f.orderable →
    ∀ direction, P { q with order := some ⟨f.name, f.path, direction⟩ }
  page : ∀ {q}, P q → ∀ page, P { q with page }
  distinct : ∀ {q}, P q → ∀ distinct, P { q with distinct }
  predefine : ∀ {q}, P q → ∀ p, P (q.predefine p)

namespace Kept

variable {P : Query → Prop} {q : Query}

theorem bindAll (kept : Kept P) (holds : P q) (values : List (String × Value)) :
    P (q.bindAll values).1 := by
  induction values generalizing q with
  | nil => exact holds
  | cons entry values ih =>
    obtain ⟨name, v⟩ := entry
    have bound := kept.bind holds name v
    unfold Query.bindAll
    split
    · next stopped refused =>
      rw [refused] at bound
      exact bound
    · next next taken =>
      rw [taken] at bound
      exact ih bound

theorem orUnchanged (holds : P q) {changed : Except FilterError Query}
    (keeps : ∀ next, changed = .ok next → P next) : P (q.orUnchanged changed).1 := by
  cases changed with
  | error e => exact holds
  | ok next => exact keeps next rfl

theorem orderBy (kept : Kept P) (holds : P q) {field : String} {direction : OrderDirection}
    {next : Query} (ordered : q.orderBy field direction = .ok next) : P next := by
  unfold Query.orderBy at ordered
  split at ordered
  · cases ordered
  · next f present =>
    split at ordered
    · next orderable =>
      cases ordered
      exact kept.order holds present orderable direction
    · cases ordered

theorem orderByName (kept : Kept P) (holds : P q) {field direction : String} {next : Query}
    (ordered : q.orderByName field direction = .ok next) : P next := by
  unfold Query.orderByName at ordered
  split at ordered
  · cases ordered
  · exact kept.orderBy holds ordered

theorem paginate (kept : Kept P) (holds : P q) {limit offset : Int} {next : Query}
    (paginated : q.paginate limit offset = .ok next) : P next := by
  unfold Query.paginate at paginated
  split at paginated
  · cases paginated
  · cases paginated
    exact kept.page holds _

theorem predefineWith (kept : Kept P) (holds : P q) {built : Except FilterError Predicate}
    {next : Query} (added : built.map q.predefine = .ok next) : P next := by
  cases built with
  | error e => cases added
  | ok p =>
    cases added
    exact kept.predefine holds p

theorem apply (kept : Kept P) (holds : P q) (step : QueryStep) : P (q.apply step).1 := by
  cases step with
  | bind name v => exact kept.bind holds name v
  | bindAll values => exact kept.bindAll holds values
  | order field direction => exact orUnchanged holds fun _ => kept.orderByName holds
  | orderBy field direction => exact orUnchanged holds fun _ => kept.orderBy holds
  | paginate limit offset => exact orUnchanged holds fun _ => kept.paginate holds
  | setPage page => exact kept.page holds page
  | setDistinct distinct => exact kept.distinct holds distinct
  | predefine p => exact kept.predefine holds p
  | predefineWith build => exact orUnchanged holds fun _ => kept.predefineWith holds

theorem run (kept : Kept P) (holds : P q) (steps : List QueryStep) : P (q.run steps) := by
  induction steps generalizing q with
  | nil => exact holds
  | cons step steps ih => exact ih (kept.apply holds step)

end Kept

end Query

end Criteria
