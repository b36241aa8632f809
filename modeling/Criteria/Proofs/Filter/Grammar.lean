import Criteria.Filter.Reading

set_option autoImplicit false

namespace Criteria.Grammar

inductive Field : List Token → FieldRef → Prop
  | name (name : String) (p : Position) : Field [⟨.name name, p⟩] ⟨name, p⟩
  | dotted {ts : List Token} {field : FieldRef} (name : String) (p q : Position) :
      Field ts field →
      Field (ts ++ [⟨.dot, p⟩, ⟨.name name, q⟩]) ⟨field.name ++ "." ++ name, field.position⟩

inductive Param : List Token → ParamRef → Prop
  | named (name : String) (p q : Position) : Param [⟨.colon, p⟩, ⟨.name name, q⟩] ⟨name, p⟩

inductive Negation : List Token → Bool → Prop
  | absent : Negation [] false
  | present (p : Position) : Negation [⟨.keyword .not, p⟩] true

inductive Comparand : List Token → Condition → Prop
  | compare {ts : List Token} {param : ParamRef} (op : Comparison) (p : Position) :
      Param ts param → Comparand (⟨.comparison op, p⟩ :: ts) (.compare op param)
  | between {ns ls hs : List Token} {negated : Bool} {low high : ParamRef} (p q : Position) :
      Negation ns negated → Param ls low → Param hs high →
      Comparand (ns ++ ⟨.keyword .between, p⟩ :: ls ++ ⟨.keyword .and, q⟩ :: hs)
        (.between negated low high)
  | oneOf {ns ts : List Token} {negated : Bool} {param : ParamRef} (p : Position) :
      Negation ns negated → Param ts param →
      Comparand (ns ++ ⟨.keyword .among, p⟩ :: ts) (.oneOf negated param)
  | null {ns : List Token} {negated : Bool} (p q : Position) :
      Negation ns negated →
      Comparand (⟨.keyword .is, p⟩ :: ns ++ [⟨.keyword .null, q⟩]) (.null negated)
  | like {ns ts : List Token} {negated : Bool} {param : ParamRef} (p : Position) :
      Negation ns negated → Param ts param →
      Comparand (ns ++ ⟨.keyword .like, p⟩ :: ts) (.like negated param)

inductive Grouped (op : Connective) : List Filter → Filter → Prop
  | lone (f : Filter) : Grouped op [f] f
  | group (fs : List Filter) : 2 ≤ fs.length → Grouped op fs (.group op fs)

mutual

inductive Term : List Token → Filter → Prop
  | leaf {ts us : List Token} {field : FieldRef} {condition : Condition} :
      Field ts field → Comparand us condition → Term (ts ++ us) (.leaf field condition)
  | parens {ts : List Token} {fs : List Filter} {f : Filter} (p q : Position) :
      Alternatives ts fs → Grouped .or fs f →
      Term (⟨.openParen, p⟩ :: ts ++ [⟨.closeParen, q⟩]) f

inductive Conjuncts : List Token → List Filter → Prop
  | term {ts : List Token} {f : Filter} : Term ts f → Conjuncts ts [f]
  | and {ts us : List Token} {fs : List Filter} {f : Filter} (p : Position) :
      Conjuncts ts fs → Term us f → Conjuncts (ts ++ ⟨.keyword .and, p⟩ :: us) (fs ++ [f])

inductive Alternatives : List Token → List Filter → Prop
  | conjuncts {ts : List Token} {fs : List Filter} {f : Filter} :
      Conjuncts ts fs → Grouped .and fs f → Alternatives ts [f]
  | or {ts us : List Token} {fs gs : List Filter} {f : Filter} (p : Position) :
      Alternatives ts fs → Conjuncts us gs → Grouped .and gs f →
      Alternatives (ts ++ ⟨.keyword .or, p⟩ :: us) (fs ++ [f])

end

inductive Sentence : List Token → Filter → Prop
  | mk {ts : List Token} {fs : List Filter} {f : Filter} :
      Alternatives ts fs → Grouped .or fs f → Sentence ts f

def lexemes (ts : List Token) : List Lexeme :=
  ts.map (·.lexeme)

@[simp] theorem lexemes_nil : lexemes [] = [] :=
  rfl

@[simp] theorem lexemes_cons (t : Token) (ts : List Token) :
    lexemes (t :: ts) = t.lexeme :: lexemes ts :=
  rfl

@[simp] theorem lexemes_append (ts us : List Token) :
    lexemes (ts ++ us) = lexemes ts ++ lexemes us :=
  List.map_append

/-- No point of a text lies inside more than so many parentheses that are open there. -/
def NestedWithin (limit : Nat) (xs : List Lexeme) : Prop :=
  ∀ before, before <+: xs → before.count .openParen ≤ before.count .closeParen + limit

def Balanced (xs : List Lexeme) : Prop :=
  xs.count .openParen = xs.count .closeParen

section Nesting

variable {limit : Nat} {xs ys : List Lexeme}

theorem nestedWithin_of_count (few : xs.count .openParen ≤ limit) : NestedWithin limit xs := by
  intro before h
  have less := h.sublist.count_le .openParen
  omega

theorem NestedWithin.left (nested : NestedWithin limit (xs ++ ys)) : NestedWithin limit xs :=
  fun before h => nested before (h.trans (List.prefix_append xs ys))

theorem NestedWithin.right (nested : NestedWithin limit (xs ++ ys)) (balanced : Balanced xs) :
    NestedWithin limit ys := by
  intro before h
  have bound := nested (xs ++ before) ((List.prefix_append_right_inj xs).2 h)
  simp only [List.count_append] at bound
  unfold Balanced at balanced
  omega

theorem NestedWithin.behind {x : Lexeme} (nested : NestedWithin limit (xs ++ x :: ys))
    (balanced : Balanced xs) (notOpen : x ≠ .openParen) (notClose : x ≠ .closeParen) :
    NestedWithin limit ys := by
  rw [List.append_cons] at nested
  refine nested.right ?_
  simpa [Balanced, notOpen, notClose] using balanced

theorem NestedWithin.inner (nested : NestedWithin limit (.openParen :: xs ++ ys)) :
    ∃ inner, limit = inner + 1 ∧ NestedWithin inner xs := by
  have opened := nested [.openParen] ((List.prefix_append [.openParen] xs).trans
    (List.prefix_append _ ys))
  refine ⟨limit - 1, by simp at opened; omega, ?_⟩
  intro before h
  -- The parenthesis stands before each prefix of what is inside it.
  have bound := nested.left (.openParen :: before) ((List.prefix_cons_inj _).2 h)
  simp only [List.count_cons_self, List.count_cons] at bound
  simp at bound
  omega

theorem NestedWithin.append (left : NestedWithin limit xs) (balanced : Balanced xs)
    (right : NestedWithin limit ys) : NestedWithin limit (xs ++ ys) := by
  rintro before ⟨rest, parts⟩
  rcases List.append_eq_append_iff.1 parts with ⟨more, parts, -⟩ | ⟨more, parts, behind⟩
  · exact left before ⟨more, parts.symm⟩
  -- What stands in the first text is balanced and leaves the depth as it is.
  · have bound := right more ⟨rest, behind.symm⟩
    unfold Balanced at balanced
    rw [parts, List.count_append, List.count_append]
    omega

theorem Balanced.enclosed (balanced : Balanced xs) :
    Balanced (.openParen :: xs ++ [.closeParen]) := by
  unfold Balanced at balanced ⊢
  simp [balanced]

theorem NestedWithin.enclosed (nested : NestedWithin limit xs) (balanced : Balanced xs) :
    NestedWithin (limit + 1) (.openParen :: xs ++ [.closeParen]) := by
  have opened : NestedWithin (limit + 1) (.openParen :: xs) := by
    intro before h
    rcases List.prefix_cons_iff.1 h with rfl | ⟨inner, rfl, inside⟩
    · simp
    · have bound := nested inner inside
      rw [List.count_cons_self, List.count_cons_of_ne (by decide)]
      omega
  intro before h
  rcases List.prefix_concat_iff.1 h with rfl | inside
  · exact Nat.le_add_right_of_le (Nat.le_of_eq balanced.enclosed)
  · exact opened before inside

end Nesting

theorem Field.balanced {ts : List Token} {field : FieldRef} (h : Field ts field) :
    Balanced (lexemes ts) := by
  induction h with
  | name => simp [Balanced]
  | dotted name p q h ih => simpa [Balanced] using ih

theorem Param.balanced {ts : List Token} {param : ParamRef} (h : Param ts param) :
    Balanced (lexemes ts) := by
  cases h
  simp [Balanced]

theorem Negation.balanced {ts : List Token} {negated : Bool} (h : Negation ts negated) :
    Balanced (lexemes ts) := by
  cases h <;> simp [Balanced]

theorem Comparand.balanced {ts : List Token} {condition : Condition} (h : Comparand ts condition) :
    Balanced (lexemes ts) := by
  cases h with
  | compare op p param => simpa [Balanced] using param.balanced
  | between p q negation low high =>
    have hn := negation.balanced
    have hl := low.balanced
    have hh := high.balanced
    simp_all [Balanced]
  | oneOf p negation param | like p negation param =>
    have hn := negation.balanced
    have hp := param.balanced
    simp_all [Balanced]
  | null p q negation => simpa [Balanced] using negation.balanced

mutual

theorem Term.balanced {ts : List Token} {f : Filter} : Term ts f → Balanced (lexemes ts)
  | .leaf field comparand => by
    have hf := field.balanced
    have hc := comparand.balanced
    simp_all [Balanced]
  | .parens p q inner _ => by
    have hi := Alternatives.balanced inner
    simp_all [Balanced]

theorem Conjuncts.balanced {ts : List Token} {fs : List Filter} :
    Conjuncts ts fs → Balanced (lexemes ts)
  | .term term => term.balanced
  | .and p first last => by
    have hf := Conjuncts.balanced first
    have hl := Term.balanced last
    simp_all [Balanced]

theorem Alternatives.balanced {ts : List Token} {fs : List Filter} :
    Alternatives ts fs → Balanced (lexemes ts)
  | .conjuncts conjuncts _ => conjuncts.balanced
  | .or p first last _ => by
    have hf := Alternatives.balanced first
    have hl := Conjuncts.balanced last
    simp_all [Balanced]

end

theorem Grouped.eq_join {op : Connective} {fs : List Filter} {f : Filter} (h : Grouped op fs f) :
    f = Filter.join op fs := by
  cases h with
  | lone f => rfl
  | group fs several =>
    match fs with
    | [] | [_] => simp at several
    | _ :: _ :: _ => rfl

theorem grouped_join (op : Connective) {fs : List Filter} (operands : fs ≠ []) :
    Grouped op fs (Filter.join op fs) := by
  match fs with
  | [] => exact absurd rfl operands
  | [f] => exact .lone f
  | f :: g :: rest => exact .group _ (by simp)

theorem Conjuncts.ne_nil {ts : List Token} {fs : List Filter} (h : Conjuncts ts fs) : fs ≠ [] := by
  cases h <;> simp

theorem Alternatives.ne_nil {ts : List Token} {fs : List Filter} (h : Alternatives ts fs) :
    fs ≠ [] := by
  cases h <;> simp

end Criteria.Grammar
