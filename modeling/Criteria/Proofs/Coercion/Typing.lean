import Criteria.Coercion.Registry
import Std.Data.TreeMap.Lemmas

set_option autoImplicit false

namespace Criteria

theorem SizedInt.read?_eq_some_iff {w : IntWidth} {s : List Char} {n : SizedInt} :
    SizedInt.read? w s = some n ↔ n.width = w ∧ Numeral.readInt? s = some n.value := by
  constructor
  · intro read
    obtain ⟨i, number, sized⟩ := Option.bind_eq_some_iff.1 read
    unfold SizedInt.ofInt? at sized
    split at sized
    · cases sized
      exact ⟨rfl, number⟩
    · cases sized
  · rintro ⟨rfl, read⟩
    rw [SizedInt.read?, read, Option.bind_some, SizedInt.ofInt?_value]

theorem SizedInt.width_of_read? {w : IntWidth} {s : List Char} {n : SizedInt}
    (read : SizedInt.read? w s = some n) : n.width = w :=
  (SizedInt.read?_eq_some_iff.1 read).1

namespace Ieee

theorem precision_ofDecimal (p : Precision) (negative : Bool) (coefficient : Nat) (exponent : Int) :
    (ofDecimal p negative coefficient exponent).precision = p := by
  unfold ofDecimal
  dsimp only
  split
  · rfl
  · split <;> rfl

theorem precision_of_readUnsigned? {p : Precision} {negative : Bool} {s : List Char} {x : Ieee}
    (read : readUnsigned? p negative s = some x) : x.precision = p := by
  unfold readUnsigned? at read
  split at read
  · cases read
    rfl
  · split at read
    · cases read
      rfl
    · split at read
      · cases read
      · obtain ⟨exponent, _, rfl⟩ := Option.map_eq_some_iff.1 read
        exact precision_ofDecimal ..

theorem precision_of_read? {p : Precision} {s : List Char} {x : Ieee}
    (read : Ieee.read? p s = some x) : x.precision = p := by
  unfold read? at read
  split at read <;> exact precision_of_readUnsigned? read

end Ieee

namespace ValueParser

def Yields (p : ValueParser) (key : TypeKey) : Prop :=
  ∀ v w, p v = .ok w → w.key? = some key

variable {key : TypeKey}

theorem yields_reading {target : String} {read? : List Char → Option Value}
    (reads : ∀ s w, read? s = some w → w.key? = some key) :
    Yields (reading key target read?) key := by
  intro v w parsed
  unfold reading at parsed
  split at parsed
  · next kept =>
    cases parsed
    exact Value.satisfies_iff.1 kept
  · split at parsed
    · cases parsed
    · split at parsed
      · next read =>
        cases parsed
        exact reads _ _ read
      · cases parsed

theorem yields_reading_map {α : Type} {target : String} {read? : List Char → Option α}
    {value : α → Value} (reads : ∀ s a, read? s = some a → (value a).key? = some key) :
    Yields (reading key target fun s => (read? s).map value) key := by
  apply yields_reading
  intro s w read
  obtain ⟨a, parsed, rfl⟩ := Option.map_eq_some_iff.1 read
  exact reads s a parsed

theorem yields_bool : Yields bool .bool := by
  apply yields_reading
  intro s w read
  unfold readBool? at read
  split at read
  · cases read
    rfl
  · split at read
    · cases read
      rfl
    · cases read

theorem yields_int (w : IntWidth) : Yields (int w) (.int w) :=
  yields_reading_map fun _ _ read => by rw [Value.key?, SizedInt.width_of_read? read]

theorem yields_float (p : Precision) : Yields (float p) (.float p) :=
  yields_reading_map fun _ _ read => by rw [Value.key?, Ieee.precision_of_read? read]

theorem yields_text : Yields text .text := by
  intro v w parsed
  unfold text at parsed
  split at parsed
  · cases parsed
  · split at parsed
    · cases parsed
      rfl
    · cases parsed

theorem yields_builtin? {_ : Calendar.FormatReader} {formats : List String} {p : ValueParser}
    (builtin : builtin? formats key = some p) : p.Yields key := by
  cases key with
  | custom name => cases builtin
  | bool => cases builtin; exact yields_bool
  | int w => cases builtin; exact yields_int w
  | float q => cases builtin; exact yields_float q
  | text => cases builtin; exact yields_text
  | decimal | char | date | uuid => cases builtin; exact yields_reading_map fun _ _ _ => rfl

end ValueParser

namespace CoercionRegistry

/-- Every parser registered for a built-in type only returns values of the type. Nothing is asked of
the parsers of the application's own types. -/
def Typed (r : CoercionRegistry) : Prop :=
  ∀ key p, key.isCustom = false → r.parser? key = some p → p.Yields key

theorem binding?_seeded (key : TypeKey) : seeded.binding? key = seedBinding? key := by
  cases key with
  | int w => cases w <;> rfl
  | float p => cases p <;> rfl
  | _ => rfl

theorem parser?_seeded (dates : DateFormats) (key : TypeKey) :
    ({ seeded with dates } : CoercionRegistry).parser? key =
      @ValueParser.builtin? dates.formats dates.reader key := by
  have bound : ({ seeded with dates } : CoercionRegistry).binding? key = seedBinding? key :=
    binding?_seeded key
  rw [parser?, bound]
  cases key <;> rfl

theorem typed_seeded (dates : DateFormats) : ({ seeded with dates } : CoercionRegistry).Typed := by
  intro key p _ registered
  rw [parser?_seeded] at registered
  exact ValueParser.yields_builtin? registered

end CoercionRegistry

end Criteria
