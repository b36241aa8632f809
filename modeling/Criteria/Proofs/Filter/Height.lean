import Criteria.Proofs.Filter.RoundTrip

set_option autoImplicit false

namespace Criteria

open Grammar

namespace Filter

mutual

def height : Filter → Nat
  | leaf _ _ => 1
  | group _ operands => operandHeight operands + 1

def operandHeight : List Filter → Nat
  | [] => 0
  | f :: rest => max f.height (operandHeight rest)

end

theorem operandHeight_le_iff {fs : List Filter} {n : Nat} :
    operandHeight fs ≤ n ↔ ∀ f ∈ fs, f.height ≤ n := by
  induction fs with
  | nil => simp [operandHeight]
  | cons f fs ih => rw [operandHeight, Nat.max_le, ih, List.forall_mem_cons]

mutual

theorem height_unplaced (f : Filter) : f.unplaced.height = f.height := by
  match f with
  | .leaf field condition => rfl
  | .group op fs => rw [unplaced, height, height, operandHeight_unplaced fs]

theorem operandHeight_unplaced (fs : List Filter) :
    operandHeight (unplacedOperands fs) = operandHeight fs := by
  match fs with
  | [] => rfl
  | f :: fs =>
    rw [unplacedOperands, operandHeight, operandHeight, height_unplaced f,
      operandHeight_unplaced fs]

end

theorem length_le_sizes (fs : List Filter) : fs.length ≤ sizes fs := by
  induction fs with
  | nil => simp
  | cons f fs ih =>
    have positive : 1 ≤ f.size := by cases f <;> simp [size]
    rw [List.length_cons, sizes]
    omega

end Filter

namespace Grammar

-- The height by the depth of parentheses that a text may come to.

theorem Grouped.height_le {op : Connective} {fs : List Filter} {f : Filter} {n : Nat}
    (grouped : Grouped op fs f) (operands : ∀ g ∈ fs, g.height ≤ n) : f.height ≤ n + 1 := by
  cases grouped with
  | lone f => exact Nat.le_succ_of_le (operands f List.mem_cons_self)
  | group fs several => exact Nat.succ_le_succ (Filter.operandHeight_le_iff.2 operands)

mutual

theorem Term.height_le {ts : List Token} {f : Filter} {limit : Nat} :
    Term ts f → NestedWithin limit (lexemes ts) → f.height ≤ 2 * limit + 1
  | .leaf _ _, _ => by simp [Filter.height]
  | .parens p q inner grouped, nested => by
    -- Behind the parenthesis there is room for one level less.
    simp only [lexemes_append, lexemes_cons] at nested
    obtain ⟨depth, rfl, innerNested⟩ := nested.inner
    exact grouped.height_le (inner.height_le innerNested)

theorem Conjuncts.height_le {ts : List Token} {fs : List Filter} {limit : Nat} :
    Conjuncts ts fs → NestedWithin limit (lexemes ts) → ∀ f ∈ fs, f.height ≤ 2 * limit + 1
  | .term term, nested => List.forall_mem_singleton.2 (term.height_le nested)
  | .and p first last, nested => by
    simp only [lexemes_append, lexemes_cons] at nested
    have behind := nested.behind first.balanced (by simp) (by simp)
    exact List.forall_mem_append.2
      ⟨first.height_le nested.left, List.forall_mem_singleton.2 (last.height_le behind)⟩

theorem Alternatives.height_le {ts : List Token} {fs : List Filter} {limit : Nat} :
    Alternatives ts fs → NestedWithin limit (lexemes ts) → ∀ f ∈ fs, f.height ≤ 2 * limit + 2
  | .conjuncts conjuncts grouped, nested =>
    List.forall_mem_singleton.2 (grouped.height_le (conjuncts.height_le nested))
  | .or p first last grouped, nested => by
    simp only [lexemes_append, lexemes_cons] at nested
    have behind := nested.behind first.balanced (by simp) (by simp)
    exact List.forall_mem_append.2 ⟨first.height_le nested.left,
      List.forall_mem_singleton.2 (grouped.height_le (last.height_le behind))⟩

end

theorem Sentence.height_le {ts : List Token} {f : Filter} {limit : Nat} (sentence : Sentence ts f)
    (nested : NestedWithin limit (lexemes ts)) : f.height ≤ 2 * limit + 3 := by
  obtain ⟨alternatives, grouped⟩ := sentence
  exact grouped.height_le (alternatives.height_le nested)

end Grammar

theorem Filter.height_le_of_parse {text : String} {f : Filter} (parsed : Filter.parse text = .ok f) :
    f.height ≤ 2 * maxNesting + 3 := by
  obtain ⟨s, -, sentence, nested⟩ := Filter.sentence_of_parse parsed
  exact sentence.height_le nested

theorem Reading.finish_append {r next : Reading} {ts : List Token} (steps : r.steps? ts = some next)
    (stop : Position) (us : List Token) : r.finish stop (ts ++ us) = next.finish stop us := by
  induction ts generalizing r with
  | nil =>
    cases steps
    rfl
  | cons t ts ih =>
    obtain ⟨middle, first, rest⟩ := Option.bind_eq_some_iff.1 steps
    rw [List.cons_append, finish, first]
    exact ih rest

-- Texts for filters, with a blank behind each piece.

namespace Piece

def spaced (ps : List Piece) : List Piece :=
  ps.flatMap fun p => [p, .blank ' ']

theorem blank_wellMade : (blank ' ').WellMade := by
  show Text.isBlank ' ' = true
  decide

theorem ends_blank (p : Piece) : p.Ends (text (.blank ' ')) :=
  ends_text blank_wellMade (by simp [isWord]) fun _ => .inl rfl

theorem wellMade_spaced {ps : List Piece} (made : ∀ p ∈ ps, p.WellMade) :
    ∀ p ∈ spaced ps, p.WellMade := by
  intro p member
  obtain ⟨q, listed, found⟩ := List.mem_flatMap.1 member
  simp only [List.mem_cons, List.not_mem_nil, or_false] at found
  rcases found with rfl | rfl
  · exact made p listed
  · exact blank_wellMade

theorem isChain_spaced (ps : List Piece) : (spaced ps).IsChain fun p q => p.Ends q.text := by
  induction ps with
  | nil => exact .nil
  | cons p ps ih =>
    exact List.isChain_cons_cons.2 ⟨p.ends_blank, List.isChain_cons.2 ⟨fun _ _ => trivial, ih⟩⟩

theorem lexemes_spaced (ps : List Piece) :
    (spaced ps).flatMap lexemes = ps.flatMap lexemes := by
  have unread : lexemes (.blank ' ') = [] := rfl
  simp [spaced, List.flatMap_assoc, unread]

end Piece

theorem Written.exists_text {f : Filter} {ps : List Piece} (written : Written none f ps)
    (writable : f.Writable)
    (few : (ps.flatMap Piece.lexemes).count .openParen ≤ maxNesting) :
    ∃ text g, Filter.parse text = .ok g ∧ g.unplaced = f.unplaced := by
  have read := tokenize_flatMap_text
    (Piece.wellMade_spaced (written.legible writable).made) (Piece.isChain_spaced ps)
  have tokens := (Piece.map_lexeme_tokensFrom {} (Piece.spaced ps)).trans (Piece.lexemes_spaced ps)
  obtain ⟨g, derived, same⟩ := written.derived writable tokens
  refine ⟨String.ofList ((Piece.spaced ps).flatMap Piece.text), g, ?_, same⟩
  rw [Filter.parse, read]
  exact Filter.ofTokens_of_sentence derived
    (nestedWithin_of_count (by rw [lexemes, tokens]; exact few))

namespace Filter

def mark : Filter :=
  .leaf ⟨"a", {}⟩ (.null false)

def markPieces : List Piece :=
  [.word ['a'], .word ['I', 'S'], .word ['N', 'U', 'L', 'L']]

theorem mark_writable : mark.Writable := by
  have path : Text.segments "a" = ["a"] := by decide
  have named : IsFieldName "a" := isFieldName_of_toList rfl (by decide) (by decide) (by decide)
  simpa [mark, Writable, FieldRef.Writable, path, Condition.params] using named

theorem mark_written (under : Option Connective) : Written under mark markPieces :=
  .leaf ⟨"a", {}⟩ (.null ⟨by decide⟩ .absent ⟨by decide⟩)

theorem and_spelled : Spelled Connective.and.keyword (.word ['A', 'N', 'D']) :=
  ⟨by decide⟩

theorem or_spelled : Spelled Connective.or.keyword (.word ['O', 'R']) :=
  ⟨by decide⟩

-- Groups of any number of operands.

def wide (n : Nat) : Filter :=
  .group .or (List.replicate (n + 2) mark)

def widePieces : Nat → List Piece
  | 0 => markPieces
  | n + 1 => widePieces n ++ .word ['O', 'R'] :: markPieces

theorem wide_written (n : Nat) :
    WrittenOperands .or (List.replicate (n + 1) mark) (widePieces n) := by
  induction n with
  | zero => exact .first (mark_written _)
  | succ n ih =>
    rw [List.replicate_succ']
    exact .more ih or_spelled (mark_written _)

theorem wide_writable (n : Nat) : (wide n).Writable := by
  refine ⟨by simp, ?_⟩
  induction n + 2 with
  | zero => trivial
  | succ n ih => exact ⟨mark_writable, ih⟩

theorem count_widePieces (n : Nat) :
    ((widePieces n).flatMap Piece.lexemes).count .openParen = 0 := by
  induction n with
  | zero => decide
  | succ n ih =>
    have last : ((.word ['O', 'R'] :: markPieces).flatMap Piece.lexemes).count .openParen = 0 := by
      decide
    rw [widePieces, List.flatMap_append, List.count_append, ih, last]

theorem exists_wide (n : Nat) :
    ∃ text op fs, Filter.parse text = .ok (.group op fs) ∧ fs.length = n + 2 := by
  obtain ⟨text, g, parsed, same⟩ := Written.exists_text (.group rfl (wide_written (n + 1)))
    (wide_writable n) (by rw [count_widePieces]; exact Nat.zero_le _)
  cases g with
  | leaf field condition => cases same
  | group op fs =>
    injection same with _ operands
    have length := congrArg List.length operands
    exact ⟨text, op, fs, parsed, by simpa [unplacedOperands_eq_map] using length⟩

-- Groups inside so many parentheses, as high as can be.

def nest (inner : Filter) : Filter :=
  .group .or [.group .and [inner, mark], mark]

def nestPieces (ps : List Piece) : List Piece :=
  ps ++ .word ['A', 'N', 'D'] :: markPieces ++ .word ['O', 'R'] :: markPieces

def deep : Nat → Filter
  | 0 => nest mark
  | depth + 1 => nest (deep depth)

def deepPieces : Nat → List Piece
  | 0 => nestPieces markPieces
  | depth + 1 => nestPieces (.symbol .openParen :: deepPieces depth ++ [.symbol .closeParen])

theorem nest_written {inner : Filter} {ps : List Piece} (written : Written (some .and) inner ps) :
    Written none (nest inner) (nestPieces ps) := by
  have conjuncts := WrittenOperands.more (.first written) and_spelled (mark_written _)
  exact .group rfl (.more (.first (.group rfl conjuncts)) or_spelled (mark_written _))

theorem deep_written (depth : Nat) : Written none (deep depth) (deepPieces depth) := by
  induction depth with
  | zero => exact nest_written (mark_written _)
  | succ depth ih => exact nest_written (.parens ih)

theorem nest_writable {inner : Filter} (writable : inner.Writable) : (nest inner).Writable :=
  ⟨by simp, ⟨by simp, writable, mark_writable, trivial⟩, mark_writable, trivial⟩

theorem deep_writable (depth : Nat) : (deep depth).Writable := by
  induction depth with
  | zero => exact nest_writable mark_writable
  | succ depth ih => exact nest_writable ih

theorem height_nest {inner : Filter} (nonempty : 1 ≤ inner.height) :
    (nest inner).height = inner.height + 2 := by
  simp only [nest, mark, height, operandHeight]
  omega

theorem height_deep (depth : Nat) : (deep depth).height = 2 * depth + 3 := by
  induction depth with
  | zero => rfl
  | succ depth ih => rw [deep, height_nest (by omega), ih]; omega

theorem count_nestPieces (ps : List Piece) :
    ((nestPieces ps).flatMap Piece.lexemes).count .openParen =
      (ps.flatMap Piece.lexemes).count .openParen := by
  have behind : ((.word ['A', 'N', 'D'] :: markPieces ++ .word ['O', 'R'] :: markPieces).flatMap
      Piece.lexemes).count .openParen = 0 := by
    decide
  rw [nestPieces, List.append_assoc, List.flatMap_append, List.count_append, behind, Nat.add_zero]

theorem count_deepPieces (depth : Nat) :
    ((deepPieces depth).flatMap Piece.lexemes).count .openParen = depth := by
  induction depth with
  | zero => decide
  | succ depth ih =>
    rw [deepPieces, count_nestPieces]
    simp [Piece.lexemes, FilterSymbol.lexeme, ih]

theorem exists_deep : ∃ text f, Filter.parse text = .ok f ∧ f.height = 2 * maxNesting + 3 := by
  obtain ⟨text, g, parsed, same⟩ := (deep_written maxNesting).exists_text
    (deep_writable maxNesting) (count_deepPieces maxNesting).le
  refine ⟨text, g, parsed, ?_⟩
  rw [← height_unplaced, same, height_unplaced, height_deep]

end Filter

end Criteria
