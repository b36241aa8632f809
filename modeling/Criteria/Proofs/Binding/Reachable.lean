import Criteria.Proofs.Binding.Agreement
import Criteria.Proofs.Filter.Names

set_option autoImplicit false

namespace Criteria

namespace Filter

mutual

theorem Writable.leaves {f : Filter} (writable : f.Writable) : ∀ leaf ∈ f.leaves,
    leaf.1.Writable ∧ ∀ param ∈ leaf.2.params, param.Writable := by
  match f with
  | .leaf field condition => exact List.forall_mem_singleton.2 writable
  | .group op fs => exact writable_operandLeaves writable.2

theorem writable_operandLeaves {fs : List Filter} (writable : WritableOperands fs) :
    ∀ leaf ∈ operandLeaves fs, leaf.1.Writable ∧ ∀ param ∈ leaf.2.params, param.Writable := by
  match fs with
  | [] => exact nofun
  | f :: fs =>
    exact List.forall_mem_append.2 ⟨Writable.leaves writable.1, writable_operandLeaves writable.2⟩

end

theorem isName_of_parse {text : String} {f : Filter} (parsed : parse text = .ok f)
    {name : String} (listed : name ∈ f.parameters) : IsName name := by
  rw [parameters_eq_flatMap] at listed
  obtain ⟨leaf, among, named⟩ := List.mem_flatMap.1 listed
  obtain ⟨param, own, rfl⟩ := List.mem_map.1 named
  exact ((writable_of_parse parsed).leaves leaf among).2 param own

theorem isFieldPath_of_parse {text : String} {f : Filter} (parsed : parse text = .ok f)
    {leaf : FieldRef × Condition} (listed : leaf ∈ f.leaves) : IsFieldPath leaf.1.name :=
  FieldRef.writable_iff.1 ((writable_of_parse parsed).leaves leaf listed).1

/-- Texts reach the fields that are named by words, no keywords, with dots between them, each with
its null check, and the parameters that are named by any characters of names. So environments that
agree on such names compile every text alike, and a field of another name is never looked up. -/
theorem reaches_names :
    (∀ path : String,
      ((∃ text f, parse text = .ok f ∧ ∃ leaf ∈ f.leaves, leaf.1.name = path) ↔
        IsFieldPath path) ∧
      (IsFieldPath path →
        parse (path ++ " IS NULL") = .ok (.leaf ⟨path, {}⟩ (.null false)))) ∧
    (∀ name : String, (∃ text f, parse text = .ok f ∧ name ∈ f.parameters) ↔ IsName name) ∧
    ∀ (env env' : Environment) (limit : ExpressionLimit) (text? : Option String),
      (∀ path, IsFieldPath path → env.catalog.field? path = env'.catalog.field? path) →
      (∀ name, IsName name → env.parameters.get? name = env'.parameters.get? name) →
      env.coercions = env'.coercions →
      env.compileText limit text? = env'.compileText limit text? := by
  refine ⟨fun path => ⟨⟨?_, fun reached => ?_⟩, parse_nullTest⟩, fun name => ⟨?_, exists_parameter⟩,
    fun env env' limit text? fields parameters coercions => ?_⟩
  · rintro ⟨text, f, parsed, leaf, listed, rfl⟩
    exact isFieldPath_of_parse parsed listed
  · exact ⟨_, _, parse_nullTest reached, _, List.mem_singleton_self _, rfl⟩
  · rintro ⟨text, f, parsed, listed⟩
    exact isName_of_parse parsed listed
  · refine Environment.compileText_congr fun text f _ parsed => ?_
    exact {
      parameters := fun name listed => parameters name (isName_of_parse parsed listed)
      fields := fun leaf listed => fields _ (isFieldPath_of_parse parsed listed)
      parsers := fun key _ => by rw [coercions] }

end Filter

namespace Environment

-- Registered like the others, but with a letter that no text can name.
def withUnreachable : Environment :=
  { byName with
    catalog :=
      { byName.catalog with
        fields := byName.catalog.fields.insert "nåme"
          ⟨"nåme", "name", ⟨.root, ["name"], some .text⟩, false, none⟩ } }

theorem not_isFieldPath_unreachable : ¬ IsFieldPath "nåme" := by
  intro reached
  have segments : Text.segments "nåme" = ["nåme"] := by decide
  have writable : FieldRef.Writable ⟨"nåme", {}⟩ := FieldRef.writable_iff.2 reached
  have named := writable "nåme" (by rw [segments]; exact List.mem_singleton_self _)
  exact absurd (named.isName.2 'å' (by decide)) (by decide)

theorem unreachable_unused :
    (withUnreachable.catalog.field? "nåme").isSome ∧
      byName.compileText (.atMost 1) (some "name = :n") =
        withUnreachable.compileText (.atMost 1) (some "name = :n") := by
  refine ⟨by cbv, Filter.reaches_names.2.2 byName withUnreachable _ _ (fun path reached => ?_)
    (fun name named => rfl) rfl⟩
  have other : "nåme" ≠ path := by
    rintro rfl
    exact not_isFieldPath_unreachable reached
  simp [Catalog.field?, withUnreachable, Std.TreeMap.getElem?_insert, other]

end Environment

end Criteria
