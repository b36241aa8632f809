import Criteria.Predicate.Display
import Criteria.Proofs.Value.Literals

set_option autoImplicit false

namespace Criteria

open Text (Unquoted Composed)

def Test.literals : Test → List (List Char)
  | compare _ v => v.literals
  | between low high => low.literals ++ high.literals
  | oneOf values => Value.itemLiterals values
  | null => []
  | like pattern => [pattern.toList]

def Test.chars : Test → List Char
  | compare _ v => v.chars
  | between low high => low.chars ++ high.chars
  | oneOf values => Value.itemChars values
  | null => []
  | like _ => []

theorem Comparison.unquoted_symbol (op : Comparison) : Unquoted op.symbol.toList := by
  cases op <;> decide

theorem Connective.unquoted_symbol (op : Connective) : Unquoted op.symbol.toList := by
  cases op <;> decide

theorem Test.composed_shown (t : Test) : Composed t.shown t.literals t.chars := by
  cases t with
  | compare op v =>
    have spaced := v.composed_shown.behind (show Unquoted [' '] by decide)
    exact spaced.behind op.unquoted_symbol
  | between low high =>
    have lower := low.composed_shown.behind (show Unquoted "BETWEEN ".toList by simp +decide)
    have upper := high.composed_shown.behind (show Unquoted " AND ".toList by simp +decide)
    have both := lower.append upper (by simp +decide)
    rwa [← List.append_assoc] at both
  | oneOf values =>
    exact (Value.list values).composed_shown.behind (show Unquoted "IN ".toList by simp +decide)
  | null => exact .plain (by decide)
  | like pattern =>
    exact (Composed.quoted pattern.toList).behind (show Unquoted "LIKE ".toList by simp +decide)

theorem PathSource.unquoted_shown (source : PathSource) : Unquoted source.shown := by
  cases source with
  | root => decide
  | join id => simp +decide [shown, (Numeral.bare_digits id).unquoted]

theorem AttributePath.unquoted_shown {path : AttributePath}
    (names : ∀ name ∈ path.attributes, Text.quoteMark ∉ name.toList) : Unquoted path.shown := by
  have steps : Unquoted (path.attributes.flatMap fun name => '.' :: name.toList) := by
    intro quote
    obtain ⟨name, listed, inside⟩ := List.mem_flatMap.1 quote
    have distinct : Text.quoteMark ≠ '.' := by decide
    exact names name listed (by simpa [distinct] using inside)
  exact Text.unquoted_append.2 ⟨path.source.unquoted_shown, steps⟩

namespace Predicate

def literalsOf (leaves : List (AttributePath × Test)) : List (List Char) :=
  leaves.flatMap fun leaf => leaf.2.literals

def charsOf (leaves : List (AttributePath × Test)) : List Char :=
  leaves.flatMap fun leaf => leaf.2.chars

def UnquotedNames (leaves : List (AttributePath × Test)) : Prop :=
  ∀ leaf ∈ leaves, ∀ name ∈ leaf.1.attributes, Text.quoteMark ∉ name.toList

instance (leaves : List (AttributePath × Test)) : Decidable (UnquotedNames leaves) :=
  inferInstanceAs
    (Decidable (∀ leaf ∈ leaves, ∀ name ∈ leaf.1.attributes, Text.quoteMark ∉ name.toList))

theorem unquotedNames_append {a b : List (AttributePath × Test)} :
    UnquotedNames (a ++ b) ↔ UnquotedNames a ∧ UnquotedNames b :=
  List.forall_mem_append

theorem literalsOf_append (a b : List (AttributePath × Test)) :
    literalsOf (a ++ b) = literalsOf a ++ literalsOf b :=
  List.flatMap_append

theorem charsOf_append (a b : List (AttributePath × Test)) :
    charsOf (a ++ b) = charsOf a ++ charsOf b :=
  List.flatMap_append

theorem head?_shownRest (op : Connective) (rest : List Predicate) :
    (shownRest op rest).head? ≠ some Text.quoteMark := by
  cases rest <;> simp +decide [shownRest]

mutual

theorem composed_shown : (p : Predicate) → UnquotedNames p.leaves →
    Composed p.shown (literalsOf p.leaves) (charsOf p.leaves)
  | leaf path test, names => by
    have spaced := test.composed_shown.behind (show Unquoted [' '] by decide)
    have start := AttributePath.unquoted_shown (names _ (List.mem_singleton_self _))
    simpa [shown, leaves, literalsOf, charsOf] using spaced.behind start
  | group op [], _ => .plain (by cases op <;> decide)
  | group op (p :: rest), names => by
    obtain ⟨first, others⟩ := unquotedNames_append.1 names
    have operands := (composed_shown p first).append (composed_shownRest op rest others)
      (head?_shownRest op rest)
    rw [← literalsOf_append, ← charsOf_append] at operands
    have opened := operands.behind (show Unquoted ['('] by decide)
    simpa [shown, leaves, operandLeaves] using opened.before (show Unquoted [')'] by decide)
  | not p, names => by
    have inner := composed_shown p names
    unfold shown
    split
    · exact inner.behind (show Unquoted "NOT ".toList by simp +decide)
    · have opened := inner.behind (show Unquoted "NOT (".toList by simp +decide)
      exact opened.before (show Unquoted [')'] by decide)

theorem composed_shownRest (op : Connective) : (rest : List Predicate) →
    UnquotedNames (operandLeaves rest) →
    Composed (shownRest op rest) (literalsOf (operandLeaves rest)) (charsOf (operandLeaves rest))
  | [], _ => .plain Text.unquoted_nil
  | p :: rest, names => by
    obtain ⟨first, others⟩ := unquotedNames_append.1 names
    have spaced := (composed_shown p first).behind (show Unquoted [' '] by decide)
    have operand := (spaced.behind op.unquoted_symbol).behind (show Unquoted [' '] by decide)
    have operands := operand.append (composed_shownRest op rest others) (head?_shownRest op rest)
    rw [← literalsOf_append, ← charsOf_append] at operands
    simpa [shownRest, operandLeaves] using operands

end

def literals (p : Predicate) : List (List Char) :=
  literalsOf p.leaves

def chars (p : Predicate) : List Char :=
  charsOf p.leaves

theorem display_reads_back_iff (p : Predicate) (names : UnquotedNames p.leaves) :
    Text.literals? .outside p.display.toList = some p.literals ↔ Text.quoteMark ∉ p.chars := by
  have composed := p.composed_shown names
  rw [display, String.toList_ofList]
  exact composed.literals?_eq_some_iff

def quotedEverywhere : Predicate :=
  group .and
    [leaf ⟨.root, ["name"], some .text⟩ (.compare .ne (.text "\x27O\x27\x27Brien\x27")),
      not (leaf ⟨.join 0, ["grade"], some .char⟩
        (.oneOf [.list [.char 'a', .null], .text "\x27, \x27"])),
      leaf ⟨.root, ["title"], some .text⟩ (.like "\x27%")]

theorem quotedEverywhere_reads_back :
    UnquotedNames quotedEverywhere.leaves ∧ Text.quoteMark ∉ quotedEverywhere.chars ∧
      Text.literals? .outside quotedEverywhere.display.toList = some quotedEverywhere.literals ∧
      quotedEverywhere.literals.map String.ofList =
        ["\x27O\x27\x27Brien\x27", "a", "\x27, \x27", "\x27%"] := by
  have names : UnquotedNames quotedEverywhere.leaves := by decide
  have plain : Text.quoteMark ∉ quotedEverywhere.chars := by decide
  exact ⟨names, plain, (display_reads_back_iff quotedEverywhere names).2 plain, by decide⟩

def gradeIsQuote : Predicate :=
  leaf ⟨.root, ["grade"], some .char⟩ (.compare .eq (.char Text.quoteMark))

theorem gradeIsQuote_stays_open :
    UnquotedNames gradeIsQuote.leaves ∧ gradeIsQuote.literals = [[Text.quoteMark]] ∧
      Text.literals? .outside gradeIsQuote.display.toList = none := by
  refine ⟨by decide, by decide, ?_⟩
  rw [display, String.toList_ofList]
  decide

end Predicate

end Criteria
