import Criteria.Proofs.Coercion.Typing

set_option autoImplicit false

namespace Criteria

namespace ValueParser

variable {p : ValueParser} {key : TypeKey} {v : Value}

structure Agrees (p : ValueParser) (key : TypeKey) : Prop where
  null : p .null = .error .nullValue
  own : ∀ v : Value, v.key? = some key → p v = .ok v

theorem agrees_reading (key : TypeKey) (target : String) (read? : List Char → Option Value) :
    (reading key target read?).Agrees key where
  null := by simp [reading, nonBlankText, Value.satisfies, Value.key?, Value.isNull]
  own v same := by simp [reading, Value.satisfies_iff.2 same]

theorem agrees_text : text.Agrees .text where
  null := rfl
  own v same := by
    cases v with
    | text s => simp [text, Value.isNull, Value.scalarText?]
    | _ => simp [Value.key?] at same

theorem agrees_builtin? {_ : Calendar.FormatReader} {formats : List String}
    (builtin : builtin? formats key = some p) : p.Agrees key := by
  cases key with
  | custom name => cases builtin
  | text => cases builtin; exact agrees_text
  | bool | int | float | decimal | char | date | uuid => cases builtin; exact agrees_reading ..

end ValueParser

namespace CoercionRegistry

variable {r : CoercionRegistry} {key : TypeKey} {p : ValueParser}

theorem coerce_own (r : CoercionRegistry) {v : Value} (own : v.key? = some key) :
    r.coerce (some key) v = .ok v := by
  have notNull : v.isNull = false := by
    cases v with
    | null => simp [Value.key?] at own
    | _ => rfl
  simp [coerce, notNull, Value.satisfies_iff.2 own]

theorem coerce_of_agrees (registered : r.parser? key = some p) (agrees : p.Agrees key)
    (v : Value) : r.coerce (some key) v = p v := by
  by_cases own : v.key? = some key
  · rw [coerce_own r own, agrees.own v own]
  · cases v with
    | null => exact agrees.null.symm
    | _ => simp [coerce, Value.isNull, Value.satisfies_iff, own, registered]

theorem exists_parser?_seeded (dates : DateFormats) (builtin : key ∈ TypeKey.builtin) :
    ∃ p, ({ seeded with dates } : CoercionRegistry).parser? key = some p ∧ p.Agrees key ∧
      p.Yields key := by
  rw [parser?_seeded]
  cases found : @ValueParser.builtin? dates.formats dates.reader key with
  | some p =>
    exact ⟨p, rfl, ValueParser.agrees_builtin? found, ValueParser.yields_builtin? found⟩
  | none =>
    cases key with
    | custom name => simp [TypeKey.builtin] at builtin
    | _ => cases found

/-- With any date formats, the seeded registry coerces every value to a built-in type as the parser
of the type alone does. What comes of it has the type and is coerced to itself, also when the parser
is taken away. -/
theorem coerce_seeded_agrees (dates : DateFormats) {key : TypeKey}
    (builtin : key ∈ TypeKey.builtin) :
    let registry : CoercionRegistry := { seeded with dates }
    ∃ p, registry.parser? key = some p ∧ ∀ v,
      registry.coerce (some key) v = p v ∧
      ∀ w, registry.coerce (some key) v = .ok w →
        w.key? = some key ∧ registry.coerce (some key) w = .ok w ∧
        (registry.unregister key).2.parser? key = none ∧
        (registry.unregister key).2.coerce (some key) w = .ok w := by
  intro registry
  obtain ⟨p, registered, agrees, yields⟩ := exists_parser?_seeded dates builtin
  refine ⟨p, registered, fun v => ?_⟩
  have parsed : registry.coerce (some key) v = p v := coerce_of_agrees registered agrees v
  refine ⟨parsed, fun w coerced => ?_⟩
  have own : w.key? = some key := yields v w (parsed.symm.trans coerced)
  refine ⟨own, coerce_own registry own, ?_, coerce_own _ own⟩
  simp [parser?, binding?, unregister]

def dayFirst : CoercionRegistry :=
  { seeded with dates := ⟨["%d.%m.%Y"]⟩ }

def fourthOfMarch : Calendar.DateTime :=
  ⟨⟨2019, 3, 4, by decide, by decide, by decide, by decide⟩, .midnight⟩

theorem fourthOfMarch_kept :
    TypeKey.date ∈ TypeKey.builtin ∧
      dayFirst.coerce (some .date) (.text "04.03.2019") = .ok (.date fourthOfMarch) ∧
      (dayFirst.unregister .date).2.parser? .date = none ∧
      (dayFirst.unregister .date).2.coerce (some .date) (.date fourthOfMarch) =
        .ok (.date fourthOfMarch) := by
  have builtin : TypeKey.date ∈ TypeKey.builtin := by decide
  have coerced : dayFirst.coerce (some .date) (.text "04.03.2019") =
      .ok (.date fourthOfMarch) := rfl
  obtain ⟨p, -, parsed⟩ := coerce_seeded_agrees ⟨["%d.%m.%Y"]⟩ builtin
  exact ⟨builtin, coerced, ((parsed _).2 _ coerced).2.2⟩

end CoercionRegistry

end Criteria
