import Criteria.Proofs.Coercion.Shortcut
import Criteria.Proofs.Coercion.ThroughText

set_option autoImplicit false

namespace Criteria

-- Powers are the core library's, whichever instances are in scope besides.
attribute [local instance (high)] instPowNat

theorem Numeral.ofInt_eq_toString (n : Int) : String.ofList (ofInt n) = toString n := by
  rw [Int.toString_eq_repr]
  cases n with
  | ofNat n =>
    have positive : ¬ Int.ofNat n < 0 := Int.not_lt.2 (Int.natCast_nonneg n)
    rw [ofInt, if_neg positive]
    rfl
  | negSucc n =>
    rw [ofInt, if_pos (Int.negSucc_lt_zero n), String.ofList_cons]
    rfl

namespace SizedInt

theorem natAbs_lt (n : SizedInt) : n.value.natAbs < 2 ^ (96 : Nat) := by
  obtain ⟨width, value, low, high⟩ := n
  cases width <;> simp only [IntWidth.bits] at low high ⊢ <;> omega

def toDecimal (n : SizedInt) : Decimal :=
  ⟨decide (n.value < 0), n.value.natAbs, 0, n.natAbs_lt, by decide⟩

theorem signed_toDecimal (n : SizedInt) : n.toDecimal.signed = n.value := by
  by_cases negative : n.value < 0 <;>
    simp only [toDecimal, Decimal.signed, negative, decide_true, decide_false, if_true,
      Bool.false_eq_true, if_false] <;>
    omega

theorem text_toDecimal (n : SizedInt) : n.toDecimal.text = n.text := by
  have unpadded : Numeral.padded 1 n.value.natAbs = Numeral.digits n.value.natAbs := by
    have long := List.length_pos_iff.2 (Numeral.digits_ne_nil n.value.natAbs)
    have noZeros : 1 - (Numeral.digits n.value.natAbs).length = 0 := by omega
    simp [Numeral.padded, noZeros]
  by_cases negative : n.value < 0 <;>
    simp [toDecimal, Decimal.text, text, Numeral.ofInt, unpadded, negative]

theorem unsignedZero_toDecimal (n : SizedInt) : n.toDecimal.unsignedZero = n.toDecimal := by
  by_cases negative : n.value < 0
  · have notZero : n.value ≠ 0 := by omega
    simp [toDecimal, Decimal.unsignedZero, negative, notZero]
  · simp [toDecimal, Decimal.unsignedZero, negative]

theorem readDecimal?_text (n : SizedInt) : Decimal.read? n.text = some n.toDecimal := by
  rw [← text_toDecimal, Decimal.read?_text, unsignedZero_toDecimal]

end SizedInt

namespace ValueParser

theorem reading_int {key : TypeKey} {target : String} {read? : List Char → Option Value}
    {n : SizedInt} (differs : key ≠ .int n.width) :
    reading key target read? (.int n) =
      match read? n.text with
      | some w => .ok w
      | none => .error (.invalid (toString n.value) target) := by
  have differs : (Value.int n).satisfies key = false := by
    simpa [Value.satisfies, Value.key?] using differs.symm
  have shown : nonBlankText (.int n) target = .ok n.text := by
    simp [nonBlankText, Value.isNull, Value.scalarText?, n.not_blank_text]
  have told : CoercionError.ofValue (.int n) target = .invalid (toString n.value) target := by
    rw [← Numeral.ofInt_eq_toString]
    rfl
  simp only [reading, differs, shown, told]
  rfl

end ValueParser

namespace CoercionRegistry

/-- An integer is coerced to the same number of any width that has it, and to a width that does not
have it never; to a decimal without places always. -/
theorem coerce_int (n : SizedInt) (w : IntWidth) :
    seeded.coerce (some (.int w)) (.int n) =
        (if holds : w.Holds n.value then .ok (.int ⟨w, n.value, holds⟩)
          else .error (.invalid (toString n.value) (ValueParser.intTarget w))) ∧
      ∃ d, seeded.coerce (some .decimal) (.int n) = .ok (.decimal d) ∧ d.signed = n.value ∧
        d.scale = 0 := by
  constructor
  · by_cases same : w = n.width
    · subst same
      rw [coerce_own seeded rfl, dif_pos n.holds]
    · have differs : TypeKey.int w ≠ .int n.width := by simpa using same
      rw [coerce_seeded rfl (by simpa [Value.satisfies, Value.key?] using Ne.symm same) rfl,
        ValueParser.int, ValueParser.reading_int differs, SizedInt.read?_text]
      by_cases holds : w.Holds n.value <;> simp [SizedInt.ofInt?, holds]
  · refine ⟨n.toDecimal, ?_, n.signed_toDecimal, rfl⟩
    rw [coerce_seeded rfl rfl rfl, ValueParser.decimal, ValueParser.reading_int (by simp),
      n.readDecimal?_text, Option.map_some]

example : seeded.coerce (some (.int .byte)) (.int ⟨.long, 128, by decide⟩) =
    .error (.invalid "128" "byte") := by
  cbv

end CoercionRegistry

end Criteria
