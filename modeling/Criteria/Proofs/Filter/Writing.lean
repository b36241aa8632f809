import Criteria.Proofs.Filter.Recognition
import Criteria.Proofs.Filter.Splitting
import Criteria.Text.Dotted

set_option autoImplicit false

namespace Criteria

open Grammar

def FieldRef.unplaced (field : FieldRef) : FieldRef :=
  ⟨field.name, {}⟩

def ParamRef.unplaced (param : ParamRef) : ParamRef :=
  ⟨param.name, {}⟩

def Condition.unplaced : Condition → Condition
  | compare op param => compare op param.unplaced
  | between negated low high => between negated low.unplaced high.unplaced
  | oneOf negated param => oneOf negated param.unplaced
  | null negated => null negated
  | like negated param => like negated param.unplaced

namespace Filter

mutual

def unplaced : Filter → Filter
  | leaf field condition => leaf field.unplaced condition.unplaced
  | group op operands => group op (unplacedOperands operands)

def unplacedOperands : List Filter → List Filter
  | [] => []
  | f :: rest => f.unplaced :: unplacedOperands rest

end

theorem unplacedOperands_eq_map (fs : List Filter) : unplacedOperands fs = fs.map unplaced := by
  induction fs with
  | nil => rfl
  | cons f fs ih => rw [unplacedOperands, ih, List.map_cons]

end Filter

def IsFieldName (name : String) : Prop :=
  (Piece.word name.toList).WellMade ∧
    ∀ k : Keyword, Text.sameLetters k.spelling.toList name.toList = false

def FieldRef.Writable (field : FieldRef) : Prop :=
  ∀ name ∈ Text.segments field.name, IsFieldName name

def ParamRef.Writable (param : ParamRef) : Prop :=
  param.name.toList ≠ [] ∧ ∀ c ∈ param.name.toList, isNameChar c = true

mutual

def Filter.Writable : Filter → Prop
  | .leaf field condition => field.Writable ∧ ∀ param ∈ condition.params, param.Writable
  | .group _ operands => 2 ≤ operands.length ∧ WritableOperands operands

def WritableOperands : List Filter → Prop
  | [] => True
  | f :: rest => f.Writable ∧ WritableOperands rest

end

theorem writableOperands_append (fs gs : List Filter) :
    WritableOperands (fs ++ gs) ↔ WritableOperands fs ∧ WritableOperands gs := by
  induction fs with
  | nil => simp [WritableOperands]
  | cons f fs ih => simp [WritableOperands, ih, and_assoc]

inductive Spelled (k : Keyword) : Piece → Prop
  | mk {word : List Char} :
      Text.sameLetters k.spelling.toList word = true → Spelled k (.word word)

def dottedPieces : List String → List Piece
  | [] => []
  | name :: names =>
    .word name.toList :: names.flatMap fun name => [.symbol .dot, .word name.toList]

def FieldRef.pieces (field : FieldRef) : List Piece :=
  dottedPieces (Text.segments field.name)

def ParamRef.piece (param : ParamRef) : Piece :=
  .colon param.name.toList

inductive WrittenNegation : Bool → List Piece → Prop
  | absent : WrittenNegation false []
  | present {word : Piece} : Spelled .not word → WrittenNegation true [word]

inductive WrittenCondition : Condition → List Piece → Prop
  | compare {op : Comparison} {x : FilterSymbol} (param : ParamRef) :
      x.lexeme = .comparison op → WrittenCondition (.compare op param) [.symbol x, param.piece]
  | between {negated : Bool} {ns : List Piece} {between and : Piece} (low high : ParamRef) :
      WrittenNegation negated ns → Spelled .between between → Spelled .and and →
      WrittenCondition (.between negated low high) (ns ++ [between, low.piece, and, high.piece])
  | oneOf {negated : Bool} {ns : List Piece} {among : Piece} (param : ParamRef) :
      WrittenNegation negated ns → Spelled .among among →
      WrittenCondition (.oneOf negated param) (ns ++ [among, param.piece])
  | null {negated : Bool} {ns : List Piece} {is null : Piece} :
      Spelled .is is → WrittenNegation negated ns → Spelled .null null →
      WrittenCondition (.null negated) (is :: ns ++ [null])
  | like {negated : Bool} {ns : List Piece} {like : Piece} (param : ParamRef) :
      WrittenNegation negated ns → Spelled .like like →
      WrittenCondition (.like negated param) (ns ++ [like, param.piece])

def Connective.keyword : Connective → Keyword
  | and => .and
  | or => .or

def standsBare : Option Connective → Connective → Bool
  | none, _ => true
  | some .or, .and => true
  | _, _ => false

mutual

inductive Written : Option Connective → Filter → List Piece → Prop
  | leaf {under : Option Connective} {condition : Condition} {ps : List Piece}
      (field : FieldRef) :
      WrittenCondition condition ps → Written under (.leaf field condition) (field.pieces ++ ps)
  | group {under : Option Connective} {op : Connective} {operands : List Filter}
      {ps : List Piece} :
      standsBare under op = true → WrittenOperands op operands ps →
      Written under (.group op operands) ps
  | parens {under : Option Connective} {f : Filter} {ps : List Piece} :
      Written none f ps → Written under f (.symbol .openParen :: ps ++ [.symbol .closeParen])

inductive WrittenOperands : Connective → List Filter → List Piece → Prop
  | first {op : Connective} {f : Filter} {ps : List Piece} :
      Written (some op) f ps → WrittenOperands op [f] ps
  | more {op : Connective} {fs : List Filter} {f : Filter} {ps qs : List Piece} {word : Piece} :
      WrittenOperands op fs ps → Spelled op.keyword word → Written (some op) f qs →
      WrittenOperands op (fs ++ [f]) (ps ++ word :: qs)

end

namespace Piece

def isSeparator : Piece → Bool
  | blank _ => true
  | comment _ => true
  | _ => false

def isWord : Piece → Bool
  | word _ => true
  | _ => false

def endsInWord : Piece → Bool
  | word _ => true
  | colon _ => true
  | _ => false

end Piece

inductive Filter.WrittenAs (f : Filter) : String → Prop
  | mk (pieces : List Piece) :
      Written none f (pieces.filter (!·.isSeparator)) →
      (∀ p ∈ pieces, p.isSeparator = true → p.WellMade) →
      (pieces.IsChain fun p q => ¬ (p.endsInWord = true ∧ q.isWord = true)) →
      NestedWithin 64 (pieces.flatMap Piece.lexemes) →
      WrittenAs f (String.ofList (pieces.flatMap Piece.text))

def nestedText : String :=
  "(a .b<>:and aNd(k nOt IN:1 Or n is/**/null))OR z BETWEEN:p and :q"

def nestedFilter : Filter :=
  .group .or
    [.group .and
      [.leaf ⟨"a.b", {}⟩ (.compare .ne ⟨"and", {}⟩),
        .group .or
          [.leaf ⟨"k", {}⟩ (.oneOf true ⟨"1", {}⟩), .leaf ⟨"n", {}⟩ (.null false)]],
      .leaf ⟨"z", {}⟩ (.between false ⟨"p", {}⟩ ⟨"q", {}⟩)]

def nestedPieces : List Piece :=
  [.symbol .openParen, .word ['a'], .blank ' ', .symbol .dot, .word ['b'], .symbol .lessGreater,
    .colon ['a', 'n', 'd'], .blank ' ', .word ['a', 'N', 'd'], .symbol .openParen, .word ['k'],
    .blank ' ', .word ['n', 'O', 't'], .blank ' ', .word ['I', 'N'], .colon ['1'], .blank ' ',
    .word ['O', 'r'], .blank ' ', .word ['n'], .blank ' ', .word ['i', 's'], .comment [],
    .word ['n', 'u', 'l', 'l'], .symbol .closeParen, .symbol .closeParen, .word ['O', 'R'],
    .blank ' ', .word ['z'], .blank ' ', .word ['B', 'E', 'T', 'W', 'E', 'E', 'N'], .colon ['p'],
    .blank ' ', .word ['a', 'n', 'd'], .blank ' ', .colon ['q']]

theorem isFieldName_of_toList {name : String} {c : Char} {rest : List Char}
    (text : name.toList = c :: rest) (start : isNameStart c = true)
    (chars : rest.all isNameChar = true)
    (word : ∀ k ∈ Keyword.all, Text.sameLetters k.spelling.toList name.toList = false) :
    IsFieldName name :=
  ⟨⟨c, rest, text, start, List.all_eq_true.1 chars⟩, fun k => word k (by cases k <;> decide)⟩

theorem nestedFilter_writable : nestedFilter.Writable := by
  have path : Text.segments "a.b" = ["a", "b"] := by decide
  have k : Text.segments "k" = ["k"] := by decide
  have n : Text.segments "n" = ["n"] := by decide
  have z : Text.segments "z" = ["z"] := by decide
  have names : ∀ name ∈ ["a", "b", "k", "n", "z"], IsFieldName name := by
    simp only [List.forall_mem_cons]
    refine ⟨?_, ?_, ?_, ?_, ?_, by simp⟩ <;>
      exact isFieldName_of_toList rfl (by decide) (by decide) (by decide)
  have params : ∀ name ∈ ["and", "1", "p", "q"], ParamRef.Writable ⟨name, {}⟩ := by
    simp only [ParamRef.Writable, ← List.all_eq_true]
    decide
  simp only [nestedFilter, Filter.Writable, WritableOperands, FieldRef.Writable, path, k, n, z,
    Condition.params]
  simp_all

theorem nestedFilter_written :
    Written none nestedFilter (nestedPieces.filter (!·.isSeparator)) := by
  have first : Written (some .and) (.leaf ⟨"a.b", {}⟩ (.compare .ne ⟨"and", {}⟩))
      [.word ['a'], .symbol .dot, .word ['b'], .symbol .lessGreater, .colon ['a', 'n', 'd']] :=
    .leaf ⟨"a.b", {}⟩ (.compare ⟨"and", {}⟩ rfl)
  have oneOf : Written (some .or) (.leaf ⟨"k", {}⟩ (.oneOf true ⟨"1", {}⟩))
      [.word ['k'], .word ['n', 'O', 't'], .word ['I', 'N'], .colon ['1']] :=
    .leaf ⟨"k", {}⟩ (.oneOf ⟨"1", {}⟩ (.present ⟨by decide⟩) ⟨by decide⟩)
  have null : Written (some .or) (.leaf ⟨"n", {}⟩ (.null false))
      [.word ['n'], .word ['i', 's'], .word ['n', 'u', 'l', 'l']] :=
    .leaf ⟨"n", {}⟩ (.null ⟨by decide⟩ .absent ⟨by decide⟩)
  have last : Written (some .or) (.leaf ⟨"z", {}⟩ (.between false ⟨"p", {}⟩ ⟨"q", {}⟩))
      [.word ['z'], .word ['B', 'E', 'T', 'W', 'E', 'E', 'N'], .colon ['p'],
        .word ['a', 'n', 'd'], .colon ['q']] :=
    .leaf ⟨"z", {}⟩ (.between ⟨"p", {}⟩ ⟨"q", {}⟩ .absent ⟨by decide⟩ ⟨by decide⟩)
  have inner : WrittenOperands .or _ _ :=
    .more (.first oneOf) (.mk (show Text.sameLetters _ ['O', 'r'] = true by decide)) null
  have left : WrittenOperands .and _ _ :=
    .more (.first first) (.mk (show Text.sameLetters _ ['a', 'N', 'd'] = true by decide))
      (.parens (.group rfl inner))
  have outer : WrittenOperands .or _ _ :=
    .more (.first (.parens (.group rfl left)))
      (.mk (show Text.sameLetters _ ['O', 'R'] = true by decide)) last
  exact .group rfl outer

theorem nestedFilter_writtenAs : nestedFilter.WrittenAs nestedText := by
  have text : String.ofList (nestedPieces.flatMap Piece.text) = nestedText := by decide
  rw [← text]
  refine .mk nestedPieces nestedFilter_written ?_ (by decide) (nestedWithin_of_count (by decide))
  have separators : ∀ p ∈ nestedPieces, p.isSeparator = true → p = .blank ' ' ∨ p = .comment [] := by
    decide
  intro p member separator
  rcases separators p member separator with rfl | rfl
  · show Text.isBlank ' ' = true
    decide
  · show ¬ ['*', '/'] <:+: []
    decide

def Settled : List Piece → Prop
  | [] => True
  | p :: rest =>
    (p = .symbol .lt ∨ p = .symbol .gt → ∃ name after, rest = .colon name :: after) ∧ Settled rest

theorem Settled.append {ps qs : List Piece} (left : Settled ps) (right : Settled qs) :
    Settled (ps ++ qs) := by
  induction ps with
  | nil => exact right
  | cons p ps ih =>
    obtain ⟨head, tail⟩ := left
    refine ⟨fun short => ?_, ih tail⟩
    obtain ⟨name, after, rfl⟩ := head short
    exact ⟨name, after ++ qs, rfl⟩

structure Legible (ps : List Piece) : Prop where
  made : ∀ p ∈ ps, p.WellMade
  settled : Settled ps

theorem legible_nil : Legible [] :=
  ⟨by simp, trivial⟩

theorem Legible.append {ps qs : List Piece} (left : Legible ps) (right : Legible qs) :
    Legible (ps ++ qs) where
  made p member := (List.mem_append.1 member).elim (left.made p) (right.made p)
  settled := left.settled.append right.settled

theorem Legible.cons {p : Piece} {ps : List Piece} (made : p.WellMade) (notLt : p ≠ .symbol .lt)
    (notGt : p ≠ .symbol .gt) (rest : Legible ps) : Legible (p :: ps) where
  made := List.forall_mem_cons.2 ⟨made, rest.made⟩
  settled := ⟨fun short => (short.elim notLt notGt).elim, rest.settled⟩

theorem isAlpha_of_toLower {c : Char} (h : c.toLower.isAlpha = true) : c.isAlpha = true := by
  unfold Char.toLower at h
  split at h
  · next between =>
    have upper : c.isUpper = true := decide_eq_true between
    exact Bool.or_eq_true_iff.2 (.inl upper)
  · exact h

theorem isAlpha_of_mem_spelling (k : Keyword) :
    ∀ c ∈ Text.lower k.spelling.toList, c.isAlpha = true := by
  rw [← List.all_eq_true]
  cases k <;> decide

theorem Spelled.wellMade {k : Keyword} {p : Piece} (spelled : Spelled k p) : p.WellMade := by
  obtain @⟨word, letters⟩ := spelled
  rw [Text.sameLetters_eq_true_iff] at letters
  -- Letter case aside the word is the spelling, and the spellings are made of letters.
  have alpha : ∀ c ∈ word, c.isAlpha = true := by
    intro c member
    apply isAlpha_of_toLower
    apply isAlpha_of_mem_spelling k
    rw [letters]
    exact List.mem_map_of_mem member
  cases word with
  | nil => cases k <;> exact absurd letters (by decide)
  | cons c rest =>
    refine ⟨c, rest, rfl, by simp [isNameStart, alpha c], ?_⟩
    intro d member
    exact isNameChar_of_isNameStart (by simp [isNameStart, alpha d, member])

theorem Spelled.legible {k : Keyword} {p : Piece} {ps : List Piece} (spelled : Spelled k p)
    (rest : Legible ps) : Legible (p :: ps) := by
  have made := spelled.wellMade
  obtain ⟨letters⟩ := spelled
  exact .cons made (by simp) (by simp) rest

theorem ParamRef.Writable.legible {param : ParamRef} {ps : List Piece} (writable : param.Writable)
    (rest : Legible ps) : Legible (param.piece :: ps) :=
  .cons writable.2 (by simp [piece]) (by simp [piece]) rest

theorem legible_dottedPieces {names : List String} (named : ∀ name ∈ names, IsFieldName name) :
    Legible (dottedPieces names) := by
  cases names with
  | nil => exact legible_nil
  | cons name names =>
    refine .cons (named name (by simp)).1 (by simp) (by simp) ?_
    replace named := fun later member => named later (List.mem_cons_of_mem name member)
    induction names with
    | nil => exact legible_nil
    | cons next names ih =>
      have word := (named next (by simp)).1
      have rest := ih fun later member => named later (List.mem_cons_of_mem next member)
      exact .cons trivial (by simp) (by simp) (.cons word (by simp) (by simp) rest)

theorem WrittenNegation.legible {negated : Bool} {ps : List Piece}
    (written : WrittenNegation negated ps) : Legible ps := by
  cases written with
  | absent => exact legible_nil
  | present spelled => exact spelled.legible legible_nil

theorem WrittenCondition.legible {condition : Condition} {ps : List Piece}
    (written : WrittenCondition condition ps)
    (writable : ∀ param ∈ condition.params, param.Writable) : Legible ps := by
  cases written with
  | @compare op x param symbol =>
    have named := writable param (by simp [Condition.params])
    refine ⟨?_, fun _ => ⟨_, _, rfl⟩, (named.legible legible_nil).settled⟩
    exact List.forall_mem_cons.2 ⟨trivial, (named.legible legible_nil).made⟩
  | between low high negation between and =>
    have lowNamed := writable low (by simp [Condition.params])
    have highNamed := writable high (by simp [Condition.params])
    exact negation.legible.append (between.legible (lowNamed.legible
      (and.legible (highNamed.legible legible_nil))))
  | oneOf param negation keyword | like param negation keyword =>
    have named := writable param (by simp [Condition.params])
    exact negation.legible.append (keyword.legible (named.legible legible_nil))
  | null is negation null =>
    exact is.legible (negation.legible.append (null.legible legible_nil))

mutual

theorem Written.legible {under : Option Connective} {f : Filter} {ps : List Piece} :
    Written under f ps → f.Writable → Legible ps
  | .leaf field condition, writable =>
    (legible_dottedPieces writable.1).append (condition.legible writable.2)
  | .group _ operands, writable => WrittenOperands.legible operands writable.2
  | .parens inner, writable => by
    have closing : Legible [Piece.symbol .closeParen] :=
      .cons trivial (by simp) (by simp) legible_nil
    exact .cons trivial (by simp) (by simp) ((Written.legible inner writable).append closing)

theorem WrittenOperands.legible {op : Connective} {fs : List Filter} {ps : List Piece} :
    WrittenOperands op fs ps → WritableOperands fs → Legible ps
  | .first written, writable => Written.legible written writable.1
  | .more first word last, writable => by
    rw [writableOperands_append] at writable
    have before := WrittenOperands.legible first writable.1
    exact before.append (word.legible (Written.legible last writable.2.1))

end

end Criteria
