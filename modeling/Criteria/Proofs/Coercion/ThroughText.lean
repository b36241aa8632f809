import Criteria.Proofs.Calendar.Written
import Criteria.Proofs.Coercion.Typing
import Criteria.Proofs.Number.DecimalText

set_option autoImplicit false

namespace Criteria

namespace Uuid

theorem hexDigit?_hexChar (d : Fin 16) : hexDigit? (hexChar d) = some d := by
  revert d
  decide

theorem hexChar_ne_hyphen (d : Fin 16) : hexChar d ≠ '-' := by
  revert d
  decide

theorem mapM_hexDigit? (digits : List (Fin 16)) :
    (digits.map hexChar).mapM hexDigit? = some digits := by
  induction digits with
  | nil => rfl
  | cons d digits ih => simp [List.mapM_cons, hexDigit?_hexChar, ih]

theorem take_four_append_drop (s : List Char) (n : Nat) :
    (s.drop n).take 4 ++ s.drop (n + 4) = s.drop n := by
  rw [← List.drop_drop, List.take_append_drop]

theorem filter_hyphenate {s : List Char} (plain : '-' ∉ s) :
    (hyphenate s).filter (· != '-') = s := by
  have kept {part : List Char} (within : part ⊆ s) : part.filter (· != '-') = part := by
    refine List.filter_eq_self.2 fun c listed => ?_
    simpa using fun same : c = '-' => plain (same ▸ within listed)
  have hyphen (rest : List Char) :
      ('-' :: rest).filter (· != '-') = rest.filter (· != '-') := rfl
  have inner (n : Nat) : (s.drop n).take 4 ⊆ s := fun _ listed =>
    List.drop_subset n s (List.take_subset 4 _ listed)
  simp only [hyphenate, List.filter_append, hyphen, kept (List.take_subset 8 s), kept (inner _),
    kept (List.drop_subset 20 s), List.append_assoc]
  rw [take_four_append_drop s 16, take_four_append_drop s 12, take_four_append_drop s 8,
    List.take_append_drop]

theorem length_hyphenate {s : List Char} (full : s.length = 32) : (hyphenate s).length = 36 := by
  simp [hyphenate, full]

theorem read?_text (u : Uuid) : Uuid.read? u.text = some u := by
  have plain : '-' ∉ u.digits.map hexChar := by
    intro listed
    obtain ⟨d, -, same⟩ := List.mem_map.1 listed
    exact hexChar_ne_hyphen d same
  have full : (u.digits.map hexChar).length = 32 := by rw [List.length_map, u.length_eq]
  have run : u.text.filter (· != '-') = u.digits.map hexChar := filter_hyphenate plain
  have simple : readSimple? (u.digits.map hexChar) = some u := by
    rw [readSimple?, mapM_hexDigit?, Option.bind_some]
    exact dif_pos u.length_eq
  have length : u.text.length = 36 := length_hyphenate full
  have same : hyphenate (u.digits.map hexChar) = u.text := rfl
  simp only [Uuid.read?, length, readHyphenated?, run, same, if_true, simple]
  rfl

theorem not_blank_text (u : Uuid) : Text.allBlank u.text = false :=
  Text.allBlank_eq_false (c := '-') (by simp [text, hyphenate]) (by decide)

end Uuid

theorem SizedInt.not_blank_text (n : SizedInt) : Text.allBlank n.text = false := by
  obtain ⟨c, rest, made⟩ := List.exists_cons_of_ne_nil (Numeral.digits_ne_nil n.value.natAbs)
  have digit : c.isDigit = true :=
    Numeral.isDigit_of_mem_digits (n := n.value.natAbs) (by simp [made])
  have listed : c ∈ n.text := by
    unfold SizedInt.text Numeral.ofInt
    split <;> simp [made]
  exact Text.allBlank_eq_false listed (Text.not_isBlank_of_isDigit digit)

namespace ValueParser

end ValueParser

namespace Value

end Value

namespace CoercionRegistry

theorem coerce_seeded {key : TypeKey} {v : Value} (notNull : v.isNull = false)
    (differs : v.satisfies key = false) {p : ValueParser}
    (parser : ValueParser.builtin? Calendar.defaultFormats key = some p) :
    seeded.coerce (some key) v = p v := by
  have seeded : seeded.parser? key = some p := (parser?_seeded {} key).trans parser
  simp only [coerce, notNull, differs, seeded]
  rfl

end CoercionRegistry

end Criteria
