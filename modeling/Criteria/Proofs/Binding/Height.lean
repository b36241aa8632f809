import Criteria.Proofs.Binding.Leaves
import Criteria.Proofs.Filter.Height
import Mathlib

set_option autoImplicit false

namespace Criteria

namespace Predicate

mutual

def height : Predicate → Nat
  | leaf _ _ => 1
  | group _ operands => operandHeight operands + 1
  | not operand => operand.height + 1

def operandHeight : List Predicate → Nat
  | [] => 0
  | p :: rest => max p.height (operandHeight rest)

end

end Predicate

namespace Environment

variable {env : Environment}

mutual

theorem height_le_of_means (f : Filter) {p : Predicate} (means : env.Means f p) :
    p.height ≤ f.height + 1 := by
  match f with
  | .leaf name condition => cases means <;> simp [Predicate.height, Filter.height]
  | .group op fs =>
    cases means with
    | group op means => exact Nat.succ_le_succ (operandHeight_le_of_means fs means)

theorem operandHeight_le_of_means (fs : List Filter) {ps : List Predicate}
    (means : env.MeansOperands fs ps) :
    Predicate.operandHeight ps ≤ Filter.operandHeight fs + 1 := by
  match fs with
  | [] =>
    cases means
    exact Nat.zero_le _
  | f :: fs =>
    cases means with
    | cons first rest =>
      have one := height_le_of_means f first
      have others := operandHeight_le_of_means fs rest
      simp only [Predicate.operandHeight, Filter.operandHeight]
      omega

end

theorem height_le_of_compileText {limit : ExpressionLimit} {text : String} {p : Predicate}
    (compiled : (env.compileText limit (some text)).1 = .ok (some p)) :
    p.height ≤ 2 * maxNesting + 4 := by
  obtain ⟨f, parsed, means⟩ := compileText_eq_ok compiled
  exact (height_le_of_means f means).trans (Nat.succ_le_succ (Filter.height_le_of_parse parsed))

end Environment

/-- However long a text is, reading it never stands inside more than 64 parentheses, and its filter
has a height of at most 131, the predicate of 132. This height is met, and the operands of a group
may be as many as one likes. -/
theorem Filter.parse_height_bounded :
    (∀ text f, Filter.parse text = .ok f → f.height ≤ 131 ∧
      ∀ (env : Environment) limit p,
        (env.compileText limit (some text)).1 = .ok (some p) → p.height ≤ 132) ∧
    (∀ text s before behind r, tokenize text = .ok s → s.tokens = before ++ behind →
      ({} : Reading).steps? before = some r →
        Filter.parse text = r.finish s.stop behind ∧ r.outer.length ≤ 64 ∧
        r.outer.length + (Grammar.lexemes before).count .closeParen =
          (Grammar.lexemes before).count .openParen) ∧
    (∃ text f, Filter.parse text = .ok f ∧ f.height = 131) ∧
    ∀ n, ∃ text op fs, Filter.parse text = .ok (.group op fs) ∧ n ≤ fs.length ∧
      n ≤ Filter.size (.group op fs) := by
  refine ⟨fun text f parsed => ⟨height_le_of_parse parsed, fun _ _ _ =>
    Environment.height_le_of_compileText⟩, ?_, exists_deep, fun n => ?_⟩
  · intro text s before behind r tokens parts steps
    have room := Reading.room_steps? steps (Nat.zero_le _)
    have opened := Reading.opened_steps? steps
    refine ⟨?_, room, by simpa using opened⟩
    simp only [Filter.parse, tokens, ofTokens, parts]
    exact Reading.finish_append steps s.stop behind
  · obtain ⟨text, op, fs, parsed, length⟩ := exists_wide n
    have fewer := length_le_sizes fs
    exact ⟨text, op, fs, parsed, by omega, by rw [size]; omega⟩

namespace Environment

def marked : Environment where
  catalog :=
    { schema := {}, root := ⟨"Course", []⟩
      fields := (∅ : Std.TreeMap String Field).insert "a"
        ⟨"a", "a", ⟨.root, ["a"], some .text⟩, false, none⟩ }
  parameters := {}
  coercions := .seeded

theorem negated_higher :
    let text := "a IS NULL AND (a IS NULL OR a IS NOT NULL)"
    ∃ f p, Filter.parse text = .ok f ∧
      (marked.compileText .unbounded (some text)).1 = .ok (some p) ∧
      f.height = 3 ∧ p.height = 4 ∧ f.height ≤ 131 ∧ p.height ≤ 132 := by
  intro text
  let f : Filter := .group .and
    [.leaf ⟨"a", ⟨1, 0⟩⟩ (.null false),
      .group .or [.leaf ⟨"a", ⟨1, 15⟩⟩ (.null false), .leaf ⟨"a", ⟨1, 28⟩⟩ (.null true)]]
  let isNull : Predicate := .leaf ⟨.root, ["a"], some .text⟩ .null
  let p : Predicate := .group .and [isNull, .group .or [isNull, .not isNull]]
  have parsed : Filter.parse text = .ok f := by cbv
  have compiled : (marked.compileText .unbounded (some text)).1 = .ok (some p) := by cbv
  obtain ⟨low, compiledLow⟩ := Filter.parse_height_bounded.1 text f parsed
  exact ⟨f, p, parsed, compiled, rfl, rfl, low, compiledLow _ _ p compiled⟩

end Environment

end Criteria
