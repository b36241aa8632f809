import Criteria.Proofs.Binding.Agreement
import Criteria.Proofs.Coercion.Handles
import Criteria.Proofs.Coercion.Typing

set_option autoImplicit false

namespace Criteria

namespace CoercionRegistry

inductive Step where
  | register (key : TypeKey) (b : ParserBinding)
  | copy (key source : TypeKey)
  | unregister (key : TypeKey)

def Step.key : Step → TypeKey
  | register key _ => key
  | copy key _ => key
  | unregister key => key

def perform (r : CoercionRegistry) : Step → CoercionRegistry
  | .register key b => (r.register key b).2
  | .copy key source => (r.copy key source).2
  | .unregister key => (r.unregister key).2

abbrev Writes := List (TypeKey × Option ParserBinding)

def held (start : CoercionRegistry) (writes : Writes) (key : TypeKey) : Option ParserBinding :=
  (writes.lookup key).getD (start.binding? key)

def record (start : CoercionRegistry) (writes : Writes) : Step → Writes
  | .register key b => (key, some b) :: writes
  | .copy key source =>
    match start.held writes source with
    | some b => (key, some b) :: writes
    -- There is nothing to copy.
    | none => writes
  | .unregister key => (key, none) :: writes

def writes (start : CoercionRegistry) (steps : List Step) : Writes :=
  steps.foldl start.record []

variable {start r : CoercionRegistry} {written : Writes} {key other : TypeKey} {v : Value}

theorem held_cons (start : CoercionRegistry) (key : TypeKey) (b : Option ParserBinding)
    (written : Writes) (other : TypeKey) :
    start.held ((key, b) :: written) other =
      if other = key then b else start.held written other := by
  by_cases same : other = key
  · simp [held, same]
  · have apart : (other == key) = false := beq_eq_false_iff_ne.2 same
    simp [held, List.lookup_cons, apart, same]

theorem binding?_bind (r : CoercionRegistry) (key : TypeKey) (b : ParserBinding) (other : TypeKey) :
    (r.bind key b).binding? other = if other = key then some b else r.binding? other := by
  simp [bind, binding?, Std.TreeMap.getElem?_insert, @eq_comm TypeKey]

theorem binding?_unregister (r : CoercionRegistry) (key other : TypeKey) :
    (r.unregister key).2.binding? other = if other = key then none else r.binding? other := by
  simp [unregister, binding?, Std.TreeMap.getElem?_erase, @eq_comm TypeKey]

theorem contains_eq (r : CoercionRegistry) (key : TypeKey) :
    r.contains key = (r.binding? key).isSome :=
  Std.TreeMap.contains_eq_isSome_getElem?

structure Holds (start : CoercionRegistry) (written : Writes) (r : CoercionRegistry) : Prop where
  bindings : ∀ key, r.binding? key = start.held written key
  dates : r.dates = start.dates

theorem Holds.nothing (start : CoercionRegistry) : Holds start [] start :=
  ⟨fun _ => rfl, rfl⟩

theorem Holds.bind (holds : Holds start written r) (key : TypeKey) (b : ParserBinding) :
    Holds start ((key, some b) :: written) (r.bind key b) where
  bindings other := by rw [binding?_bind, held_cons, holds.bindings]
  dates := holds.dates

theorem Holds.step (holds : Holds start written r) (step : Step) :
    Holds start (start.record written step) (r.perform step) := by
  cases step with
  | register key b => exact holds.bind key b
  | copy key source =>
    simp only [perform, copy, record, holds.bindings source]
    cases start.held written source with
    | none => exact holds
    | some b => exact holds.bind key b
  | unregister key =>
    refine ⟨fun other => ?_, holds.dates⟩
    rw [perform, record, binding?_unregister, held_cons, holds.bindings]

theorem Holds.run (start : CoercionRegistry) (steps : List Step) :
    Holds start (start.writes steps) (steps.foldl perform start) := by
  suffices run : ∀ {written r}, Holds start written r →
      Holds start (steps.foldl start.record written) (steps.foldl perform r) from
    run (.nothing start)
  induction steps with
  | nil => exact id
  | cons step steps ih => exact fun holds => ih (holds.step step)

theorem Holds.contains (holds : Holds start written r) (key : TypeKey) :
    r.contains key = (start.held written key).isSome := by
  rw [contains_eq, holds.bindings]

theorem Holds.copied (holds : Holds start written r) (key source : TypeKey) :
    (r.copy key source).1 =
      (start.held written source).map fun _ => (start.held written key).isSome := by
  simp only [copy, holds.bindings source]
  cases start.held written source with
  | none => rfl
  | some b => simp only [holds.contains, Option.map_some]

theorem Holds.run_eq (holds : Holds start written r) (b : ParserBinding) :
    r.run b = start.run b := by
  cases b with
  | parser p => rfl
  | registryDates => rw [CoercionRegistry.run, CoercionRegistry.run, holds.dates]

theorem mem_keys_iff : key ∈ r.keys ↔ (r.binding? key).isSome := by
  rw [← contains_eq, keys, Std.TreeMap.mem_keys, contains, Std.TreeMap.contains_iff_mem]

theorem coerce_of_differs (notNull : v ≠ .null) (differs : v.key? ≠ some key) :
    r.coerce (some key) v =
      match r.binding? key with
      | some b => r.run b v
      | none => .error (.noParser (some key)) := by
  have notNull : v.isNull = false := Environment.isNull_eq_false_iff.2 notNull
  have differs : v.satisfies key = false := by simpa [← Value.satisfies_iff] using differs
  simp only [coerce, notNull, differs, parser?]
  cases r.binding? key <;> rfl

theorem parser?_perform {step : Step} (elsewhere : step.key ≠ other) :
    (r.perform step).parser? other = r.parser? other := by
  have rebound : r.Rebound (· = step.key) (r.perform step) := by
    cases step with
    | register key b => exact .register b .unchanged rfl
    | copy key source => exact .copy source .unchanged rfl
    | unregister key => exact .unregister .unchanged rfl
  exact rebound.parser? (Ne.symm elsewhere)

theorem coerce_congr {r' : CoercionRegistry} (same : r'.parser? key = r.parser? key) (v : Value) :
    r'.coerce (some key) v = r.coerce (some key) v := by
  simp only [coerce, same]

theorem bound_of_coerce_custom {name : String} {w : Value}
    (coerced : r.coerce (some (.custom name)) v = .ok w) :
    ∃ b, r.binding? (.custom name) = some b := by
  have notNull : v ≠ .null := by
    rintro rfl
    cases coerced
  have differs : v.key? ≠ some (.custom name) := by cases v <;> simp [Value.key?]
  rw [coerce_of_differs notNull differs] at coerced
  cases bound : r.binding? (.custom name) with
  | none => simp [bound] at coerced
  | some b => exact ⟨b, rfl⟩

theorem isSome_binding?_seeded (key : TypeKey) :
    (seeded.binding? key).isSome = !key.isCustom := by
  rw [binding?_seeded]
  cases key <;> rfl

/-- A registry that is used through handles is one map, whichever handles the steps go through: each
key holds what was last written to it, or what it held at the start, and this tells what the steps
report, what keys are listed and what values are coerced to. -/
theorem shared_holds_last_writes (start : CoercionRegistry) (uses : List (Shared.Use Step)) :
    let shared := uses.foldl (Shared.use perform) { content := start }
    let held := start.held (start.writes (Shared.made 1 uses))
    (∀ key, (seeded.binding? key).isSome = !key.isCustom) ∧ (∀ key, empty.binding? key = none) ∧
    ∃ r, (∀ handle < shared.handles, shared.get? handle = some r) ∧
      (∀ key, r.contains key = (held key).isSome) ∧
      (∀ key b, (r.register key b).1 = (held key).isSome) ∧
      (∀ key source, (r.copy key source).1 = (held source).map fun _ => (held key).isSome) ∧
      (∀ key, (r.unregister key).1 = (held key).isSome) ∧
      r.keys.Pairwise (compare · · = .lt) ∧
      (∀ key, key ∈ r.keys ↔ (held key).isSome) ∧
      (∀ key v, v ≠ .null → v.key? ≠ some key →
        r.coerce (some key) v =
          match held key with
          | some b => start.run b v
          | none => .error (.noParser (some key))) ∧
      (∀ (step : Step) key, step.key ≠ key →
        ∀ v, (r.perform step).coerce (some key) v = r.coerce (some key) v) ∧
      ∀ name v w, r.coerce (some (.custom name)) v = .ok w → (held (.custom name)).isSome := by
  intro shared held
  have content : shared.content = (Shared.made 1 uses).foldl perform start :=
    Shared.content_foldl_use perform { content := start } uses
  have holds : Holds start (start.writes (Shared.made 1 uses)) shared.content := by
    rw [content]
    exact .run start _
  refine ⟨isSome_binding?_seeded, fun _ => rfl, shared.content, fun _ => shared.get?_issued,
    holds.contains, fun key _ => holds.contains key, holds.copied, holds.contains,
    Std.TreeMap.ordered_keys, fun key => ?_, fun key v notNull differs => ?_,
    fun step key elsewhere => coerce_congr (parser?_perform elsewhere), fun name v w coerced => ?_⟩
  · rw [mem_keys_iff, holds.bindings]
  · simp only [coerce_of_differs notNull differs, holds.bindings key, holds.run_eq]
    rfl
  · obtain ⟨b, bound⟩ := bound_of_coerce_custom coerced
    rw [holds.bindings] at bound
    exact Option.isSome_of_eq_some bound

end CoercionRegistry

end Criteria
