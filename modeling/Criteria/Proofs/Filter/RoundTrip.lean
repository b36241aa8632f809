import Criteria.Proofs.Filter.Writing

set_option autoImplicit false

namespace Criteria

open Grammar

namespace Piece

theorem not_isNameChar_of_not_isWord {q : Piece} (made : q.WellMade) (notWord : q.isWord = false) :
    ∀ c ∈ q.text.head?, isNameChar c = false := by
  intro c head
  cases q with
  | blank d =>
    have blank : Text.isBlank d = true := made
    cases head
    rw [Bool.eq_false_iff]
    intro name
    rw [not_isBlank_of_isNameChar name] at blank
    exact absurd blank (by simp)
  | comment body =>
    cases head
    decide
  | symbol x =>
    obtain ⟨d, s, text, _, _, notName⟩ := text_symbol x
    rw [Piece.text, text] at head
    cases head
    exact notName
  | word text => simp [isWord] at notWord
  | colon name =>
    cases head
    decide

theorem separator_head {q : Piece} {c : Char} (made : q.WellMade) (separator : q.isSeparator = true)
    (head : c ∈ q.text.head?) : c ≠ '=' ∧ c ≠ '>' := by
  cases q with
  | blank d =>
    have blank : Text.isBlank d = true := made
    cases head
    constructor <;>
      · rintro rfl
        exact absurd blank (by decide)
  | comment body =>
    cases head
    decide
  | symbol x | word text | colon name => simp [isSeparator] at separator

theorem ends_text {p q : Piece} (made : q.WellMade)
    (apart : ¬ (p.endsInWord = true ∧ q.isWord = true))
    (settled : p = .symbol .lt ∨ p = .symbol .gt → q.isSeparator = true ∨ ∃ name, q = .colon name) :
    p.Ends q.text := by
  cases p with
  | word text | colon name =>
    refine not_isNameChar_of_not_isWord made ?_
    simpa [endsInWord] using apart
  | symbol x =>
    have notSymbol : x = .lt ∨ x = .gt → ∀ c ∈ q.text.head?, c ≠ '=' ∧ c ≠ '>' := by
      intro short c head
      rcases settled (by simpa using short) with separator | ⟨name, rfl⟩
      · exact separator_head made separator head
      · cases head
        decide
    cases x
    case lt => exact notSymbol (.inl rfl)
    case gt => exact fun c head => (notSymbol (.inr rfl) c head).1
    all_goals trivial
  | blank c => trivial
  | comment body => trivial

theorem isChain_ends {pieces : List Piece} (made : ∀ p ∈ pieces, p.WellMade)
    (apart : pieces.IsChain fun p q => ¬ (p.endsInWord = true ∧ q.isWord = true))
    (settled : Settled (pieces.filter (!·.isSeparator))) :
    pieces.IsChain fun p q => p.Ends q.text := by
  induction pieces with
  | nil => exact .nil
  | cons p pieces ih =>
    replace ih := ih (fun q member => made q (List.mem_cons_of_mem p member)) apart.tail
    cases pieces with
    | nil => exact .singleton p
    | cons q pieces =>
      by_cases visible : p.isSeparator = true
      -- Blanks and comments are prolonged by nothing, and are no part of what is written.
      · have tail : Settled ((q :: pieces).filter (!·.isSeparator)) := by
          rwa [List.filter_cons_of_neg (by simp [visible])] at settled
        refine List.isChain_cons_cons.2 ⟨?_, ih tail⟩
        cases p <;> simp_all [isSeparator, Ends]
      · rw [List.filter_cons_of_pos (by simpa using visible)] at settled
        refine List.isChain_cons_cons.2 ⟨?_, ih settled.2⟩
        refine ends_text (made q (by simp)) (List.isChain_cons_cons.1 apart).1 fun short => ?_
        obtain ⟨name, after, next⟩ := settled.1 short
        by_cases separator : q.isSeparator = true
        · exact .inl separator
        · rw [List.filter_cons_of_pos (by simpa using separator)] at next
          cases next
          exact .inr ⟨name, rfl⟩

theorem lexemes_of_isSeparator {p : Piece} (separator : p.isSeparator = true) :
    p.lexemes = [] := by
  cases p <;> simp_all [isSeparator, lexemes]

theorem lexemes_filter (pieces : List Piece) :
    (pieces.filter (!·.isSeparator)).flatMap lexemes = pieces.flatMap lexemes := by
  induction pieces with
  | nil => rfl
  | cons p pieces ih =>
    by_cases separator : p.isSeparator = true
    · rw [List.filter_cons_of_neg (by simp [separator]), List.flatMap_cons, ih,
        lexemes_of_isSeparator separator, List.nil_append]
    · rw [List.filter_cons_of_pos (by simpa using separator), List.flatMap_cons, List.flatMap_cons,
        ih]

end Piece

-- Dotted names from left to right, as they are read.

namespace Text

theorem dotted_cons_cons (name next : String) (names : List String) :
    dotted (name :: next :: names) = dotted ((name ++ "." ++ next) :: names) := by
  cases names <;> simp [dotted, List.intercalate_cons_cons]

theorem dotted_cons (name : String) (names : List String) :
    dotted (name :: names) = names.foldl (fun path name => path ++ "." ++ name) name := by
  induction names generalizing name with
  | nil => simp [dotted]
  | cons next names ih => rw [dotted_cons_cons, ih, List.foldl_cons]

end Text

-- The lexemes of words.

theorem Keyword.eq_of_sameLetters {k l : Keyword} {word : List Char}
    (first : Text.sameLetters k.spelling.toList word = true)
    (second : Text.sameLetters l.spelling.toList word = true) : k = l := by
  rw [Text.sameLetters_eq_true_iff] at first second
  have same : Text.lower k.spelling.toList = Text.lower l.spelling.toList := first.trans second.symm
  revert same
  cases k <;> cases l <;> decide

theorem Keyword.ofWord?_eq_some {k : Keyword} {word : List Char}
    (letters : Text.sameLetters k.spelling.toList word = true) : ofWord? word = some k := by
  have member : k ∈ all := by cases k <;> decide
  cases found : ofWord? word with
  | none => exact absurd letters (List.find?_eq_none.1 found k member)
  | some l =>
    have spelled : Text.sameLetters l.spelling.toList word = true := by
      simpa using List.find?_some found
    rw [eq_of_sameLetters spelled letters]

theorem Spelled.lexemes_eq {k : Keyword} {p : Piece} (spelled : Spelled k p) :
    p.lexemes = [.keyword k] := by
  obtain ⟨letters⟩ := spelled
  simp [Piece.lexemes, Lexeme.ofWord, Keyword.ofWord?_eq_some letters]

theorem IsFieldName.lexemes_eq {name : String} (named : IsFieldName name) :
    Piece.lexemes (.word name.toList) = [.name name] := by
  have word : Keyword.ofWord? name.toList = none :=
    List.find?_eq_none.2 fun k _ => by simp [named.2 k]
  simp [Piece.lexemes, Lexeme.ofWord, word]

theorem ParamRef.Writable.lexemes_eq {param : ParamRef} (writable : param.Writable) :
    param.piece.lexemes = [.colon, .name param.name] := by
  obtain ⟨nonempty, -⟩ := writable
  rw [ParamRef.piece]
  cases h : param.name.toList with
  | nil => exact absurd h nonempty
  | cons c rest =>
    rw [Piece.lexemes, ← h, String.ofList_toList]

-- Tokens with the lexemes of what is written are derived in the grammar.

namespace Grammar

theorem lexemes_eq_cons_iff {ts : List Token} {x : Lexeme} {xs : List Lexeme} :
    lexemes ts = x :: xs ↔ ∃ p us, ts = ⟨x, p⟩ :: us ∧ lexemes us = xs := by
  rw [lexemes, List.map_eq_cons_iff]
  constructor
  · intro given
    obtain ⟨⟨_, p⟩, us, rfl, rfl, rest⟩ := given
    exact ⟨p, us, rfl, rest⟩
  · intro given
    obtain ⟨p, us, rfl, rest⟩ := given
    exact ⟨_, us, rfl, rfl, rest⟩

theorem lexemes_eq_append_iff {ts : List Token} {xs ys : List Lexeme} :
    lexemes ts = xs ++ ys ↔ ∃ us vs, ts = us ++ vs ∧ lexemes us = xs ∧ lexemes vs = ys :=
  List.map_eq_append_iff

theorem lexemes_eq_nil_iff {ts : List Token} : lexemes ts = [] ↔ ts = [] :=
  List.map_eq_nil_iff

theorem lexemes_eq_singleton {ts : List Token} {x : Lexeme} (tokens : lexemes ts = [x]) :
    ∃ p, ts = [⟨x, p⟩] := by
  obtain ⟨p, us, rfl, none⟩ := lexemes_eq_cons_iff.1 tokens
  exact ⟨p, by rw [lexemes_eq_nil_iff.1 none]⟩

theorem lexemes_eq_around {ts : List Token} {x : Lexeme} {xs ys : List Lexeme}
    (tokens : lexemes ts = xs ++ x :: ys) :
    ∃ p us vs, ts = us ++ ⟨x, p⟩ :: vs ∧ lexemes us = xs ∧ lexemes vs = ys := by
  obtain ⟨us, rest, rfl, before, tokens⟩ := lexemes_eq_append_iff.1 tokens
  obtain ⟨p, vs, rfl, behind⟩ := lexemes_eq_cons_iff.1 tokens
  exact ⟨p, us, vs, rfl, before, behind⟩

end Grammar

section Derivations

variable {ts : List Token}

theorem ParamRef.Writable.derived {param : ParamRef} (writable : param.Writable)
    (tokens : lexemes ts = param.piece.lexemes) :
    ∃ g, Param ts g ∧ g.unplaced = param.unplaced := by
  rw [writable.lexemes_eq] at tokens
  obtain ⟨p, us, rfl, behind⟩ := lexemes_eq_cons_iff.1 tokens
  obtain ⟨q, rfl⟩ := lexemes_eq_singleton behind
  exact ⟨_, .named param.name p q, rfl⟩

theorem WrittenNegation.derived {negated : Bool} {ps : List Piece}
    (written : WrittenNegation negated ps) (tokens : lexemes ts = ps.flatMap Piece.lexemes) :
    Negation ts negated := by
  cases written with
  | absent =>
    rw [lexemes_eq_nil_iff.1 tokens]
    exact .absent
  | present spelled =>
    rw [List.flatMap_singleton, spelled.lexemes_eq] at tokens
    obtain ⟨p, rfl⟩ := lexemes_eq_singleton tokens
    exact .present p

theorem Spelled.tokens {k : Keyword} {word : Piece} (spelled : Spelled k word)
    (ps : List Piece) {qs : List Piece}
    (tokens : lexemes ts = (ps ++ word :: qs).flatMap Piece.lexemes) :
    ∃ p us vs, ts = us ++ ⟨.keyword k, p⟩ :: vs ∧ lexemes us = ps.flatMap Piece.lexemes ∧
      lexemes vs = qs.flatMap Piece.lexemes := by
  rw [List.flatMap_append, List.flatMap_cons, spelled.lexemes_eq] at tokens
  exact lexemes_eq_around tokens

theorem WrittenCondition.derived {condition : Condition} {ps : List Piece}
    (written : WrittenCondition condition ps)
    (writable : ∀ param ∈ condition.params, param.Writable)
    (tokens : lexemes ts = ps.flatMap Piece.lexemes) :
    ∃ g, Comparand ts g ∧ g.unplaced = condition.unplaced := by
  cases written with
  | @compare op x param symbol =>
    rw [List.flatMap_cons, List.flatMap_singleton, Piece.lexemes, symbol] at tokens
    obtain ⟨p, us, rfl, behind⟩ := lexemes_eq_cons_iff.1 tokens
    obtain ⟨g, derived, same⟩ := (writable param (by simp [Condition.params])).derived behind
    exact ⟨.compare op g, .compare op p derived, by simp [Condition.unplaced, same]⟩
  | @between negated ns _ _ low high negation between and =>
    obtain ⟨p, us, vs, rfl, before, behind⟩ := between.tokens ns tokens
    obtain ⟨q, ls, hs, rfl, lowTokens, highTokens⟩ := and.tokens [low.piece] behind
    rw [List.flatMap_singleton] at lowTokens highTokens
    obtain ⟨g, lowDerived, lowSame⟩ :=
      (writable low (by simp [Condition.params])).derived lowTokens
    obtain ⟨h, highDerived, highSame⟩ :=
      (writable high (by simp [Condition.params])).derived highTokens
    refine ⟨.between negated g h, ?_, by simp [Condition.unplaced, lowSame, highSame]⟩
    simpa using Comparand.between p q (negation.derived before) lowDerived highDerived
  | @oneOf negated ns _ param negation keyword =>
    obtain ⟨p, us, vs, rfl, before, behind⟩ := keyword.tokens ns tokens
    rw [List.flatMap_singleton] at behind
    obtain ⟨g, derived, same⟩ := (writable param (by simp [Condition.params])).derived behind
    refine ⟨.oneOf negated g, .oneOf p (negation.derived before) derived, ?_⟩
    simp [Condition.unplaced, same]
  | @like negated ns _ param negation keyword =>
    obtain ⟨p, us, vs, rfl, before, behind⟩ := keyword.tokens ns tokens
    rw [List.flatMap_singleton] at behind
    obtain ⟨g, derived, same⟩ := (writable param (by simp [Condition.params])).derived behind
    refine ⟨.like negated g, .like p (negation.derived before) derived, ?_⟩
    simp [Condition.unplaced, same]
  | @null negated ns is null isSpelled negation nullSpelled =>
    obtain ⟨p, us, vs, rfl, before, behind⟩ := isSpelled.tokens [] tokens
    obtain ⟨q, us, vs, rfl, between, none⟩ := nullSpelled.tokens ns behind
    rw [lexemes_eq_nil_iff.1 before, lexemes_eq_nil_iff.1 none]
    exact ⟨_, .null p q (negation.derived between), rfl⟩

theorem field_derived {us : List Token} {names : List String} {field : FieldRef}
    (first : Field ts field) (named : ∀ name ∈ names, IsFieldName name)
    (tokens : lexemes us =
      (names.flatMap fun name => [.symbol .dot, .word name.toList]).flatMap Piece.lexemes) :
    ∃ g, Field (ts ++ us) g ∧
      g.name = names.foldl (fun path name => path ++ "." ++ name) field.name := by
  induction names generalizing ts us field with
  | nil =>
    rw [lexemes_eq_nil_iff.1 tokens, List.append_nil]
    exact ⟨field, first, rfl⟩
  | cons name names ih =>
    have word := (named name List.mem_cons_self).lexemes_eq
    rw [List.flatMap_cons, List.flatMap_append, List.flatMap_cons, List.flatMap_singleton,
      word] at tokens
    obtain ⟨p, vs, rfl, behind⟩ := lexemes_eq_cons_iff.1 tokens
    obtain ⟨q, vs, rfl, rest⟩ := lexemes_eq_cons_iff.1 behind
    obtain ⟨g, derived, same⟩ := ih (.dotted name p q first)
      (fun later member => named later (List.mem_cons_of_mem name member)) rest
    rw [List.append_assoc] at derived
    exact ⟨g, derived, same⟩

theorem FieldRef.Writable.derived {field : FieldRef} (writable : field.Writable)
    (tokens : lexemes ts = field.pieces.flatMap Piece.lexemes) :
    ∃ g, Field ts g ∧ g.unplaced = field.unplaced := by
  unfold FieldRef.pieces at tokens
  unfold FieldRef.Writable at writable
  have path := Text.dotted_segments field.name
  cases segments : Text.segments field.name with
  | nil => exact absurd segments (by simp [Text.segments])
  | cons name names =>
    rw [segments] at tokens writable path
    have word := (writable name List.mem_cons_self).lexemes_eq
    rw [dottedPieces, List.flatMap_cons, word] at tokens
    obtain ⟨p, us, rfl, rest⟩ := lexemes_eq_cons_iff.1 tokens
    obtain ⟨g, derived, same⟩ := field_derived (.name name p)
      (fun later member => writable later (List.mem_cons_of_mem name member)) rest
    rw [← Text.dotted_cons, path] at same
    exact ⟨g, derived, by simp [FieldRef.unplaced, same]⟩

end Derivations

def Derives : Option Connective → List Token → Filter → Prop
  | none, ts, f => Sentence ts f
  | some .or, ts, f => ∃ fs, Conjuncts ts fs ∧ Grouped .and fs f
  | some .and, ts, f => Term ts f

def DerivesOperands : Connective → List Token → List Filter → Prop
  | .and => Conjuncts
  | .or => Alternatives

theorem derives_of_term (under : Option Connective) {ts : List Token} {f : Filter}
    (term : Term ts f) : Derives under ts f := by
  match under with
  | none => exact .mk (.conjuncts (.term term) (.lone f)) (.lone f)
  | some .or => exact ⟨[f], .term term, .lone f⟩
  | some .and => exact term

theorem derives_group {under : Option Connective} {op : Connective} {ts : List Token}
    {fs : List Filter} (operands : DerivesOperands op ts fs) (several : 2 ≤ fs.length)
    (bare : standsBare under op = true) : Derives under ts (.group op fs) := by
  match under, op with
  | none, .or => exact .mk operands (.group fs several)
  | none, .and => exact .mk (.conjuncts operands (.group fs several)) (.lone _)
  | some .or, .and => exact ⟨fs, operands, .group fs several⟩

theorem derivesOperands_first {op : Connective} {ts : List Token} {f : Filter}
    (first : Derives (some op) ts f) : DerivesOperands op ts [f] := by
  cases op with
  | and => exact .term first
  | or =>
    obtain ⟨fs, conjuncts, grouped⟩ := first
    exact .conjuncts conjuncts grouped

theorem derivesOperands_more {op : Connective} {ts us : List Token} {fs : List Filter} {f : Filter}
    (p : Position) (before : DerivesOperands op ts fs) (last : Derives (some op) us f) :
    DerivesOperands op (ts ++ ⟨.keyword op.keyword, p⟩ :: us) (fs ++ [f]) := by
  cases op with
  | and => exact .and p before last
  | or =>
    obtain ⟨gs, conjuncts, grouped⟩ := last
    exact .or p before conjuncts grouped

mutual

theorem Written.derived {under : Option Connective} {f : Filter} {ps : List Piece}
    {ts : List Token} : Written under f ps → f.Writable →
    lexemes ts = ps.flatMap Piece.lexemes → ∃ g, Derives under ts g ∧ g.unplaced = f.unplaced
  | .leaf field condition, writable, tokens => by
    rw [List.flatMap_append] at tokens
    obtain ⟨us, vs, rfl, fieldTokens, behind⟩ := lexemes_eq_append_iff.1 tokens
    obtain ⟨g, fieldDerived, sameField⟩ := writable.1.derived fieldTokens
    obtain ⟨d, conditionDerived, sameCondition⟩ := condition.derived writable.2 behind
    refine ⟨.leaf g d, derives_of_term _ (.leaf fieldDerived conditionDerived), ?_⟩
    simp [Filter.unplaced, sameField, sameCondition]
  | .group bare operands, writable, tokens => by
    obtain ⟨gs, derived, same⟩ := WrittenOperands.derived operands writable.2 tokens
    -- The operands read are as many as those written, so they make a group again.
    have length := congrArg List.length same
    simp only [List.length_map] at length
    refine ⟨_, derives_group derived (by have several := writable.1; omega) bare, ?_⟩
    simp [Filter.unplaced, Filter.unplacedOperands_eq_map, same]
  | .parens inner, writable, tokens => by
    rw [List.cons_append, List.flatMap_cons, List.flatMap_append, Piece.lexemes,
      List.singleton_append] at tokens
    obtain ⟨p, us, rfl, behind⟩ := lexemes_eq_cons_iff.1 tokens
    obtain ⟨q, us, vs, rfl, innerTokens, none⟩ := lexemes_eq_around behind
    -- Inside, the filter stands under no connective, and what is read there is a sentence.
    obtain ⟨g, ⟨alternatives, grouped⟩, same⟩ := Written.derived inner writable innerTokens
    rw [lexemes_eq_nil_iff.1 none]
    exact ⟨g, derives_of_term _ (.parens p q alternatives grouped), same⟩

theorem WrittenOperands.derived {op : Connective} {fs : List Filter} {ps : List Piece}
    {ts : List Token} : WrittenOperands op fs ps → WritableOperands fs →
    lexemes ts = ps.flatMap Piece.lexemes →
    ∃ gs, DerivesOperands op ts gs ∧ gs.map Filter.unplaced = fs.map Filter.unplaced
  | .first written, writable, tokens => by
    obtain ⟨g, derived, same⟩ := Written.derived written writable.1 tokens
    exact ⟨[g], derivesOperands_first derived, by simp [same]⟩
  | @WrittenOperands.more _ _ _ ps _ _ first word last, writable, tokens => by
    rw [writableOperands_append] at writable
    obtain ⟨p, us, vs, rfl, before, behind⟩ := word.tokens ps tokens
    obtain ⟨gs, derived, same⟩ := WrittenOperands.derived first writable.1 before
    obtain ⟨g, lastDerived, sameLast⟩ := Written.derived last writable.2.1 behind
    exact ⟨gs ++ [g], derivesOperands_more p derived lastDerived, by simp [same, sameLast]⟩

end

/-- A text that writes a filter is parsed as this filter, but for the places of its names. -/
theorem Filter.parse_writtenAs {f : Filter} {text : String} (writable : f.Writable)
    (written : f.WrittenAs text) : ∃ g, Filter.parse text = .ok g ∧ g.unplaced = f.unplaced := by
  obtain ⟨pieces, written, separators, apart, nested⟩ := written
  have legible := written.legible writable
  -- The text splits into the pieces it was put together from, and these have the tokens written.
  have made : ∀ p ∈ pieces, p.WellMade := by
    intro p member
    by_cases separator : p.isSeparator = true
    · exact separators p member separator
    · exact legible.made p (List.mem_filter.2 ⟨member, by simpa using separator⟩)
  have read := tokenize_flatMap_text made (Piece.isChain_ends made apart legible.settled)
  have tokens := Piece.map_lexeme_tokensFrom {} pieces
  obtain ⟨g, derived, same⟩ :=
    written.derived writable (tokens.trans (Piece.lexemes_filter pieces).symm)
  refine ⟨g, ?_, same⟩
  rw [Filter.parse, read]
  exact ofTokens_of_sentence derived (by rw [lexemes, tokens]; exact nested)

theorem parse_nestedText :
    nestedFilter.Writable ∧ nestedFilter.WrittenAs nestedText ∧
      ∃ g, Filter.parse nestedText = .ok g ∧ g.unplaced = nestedFilter.unplaced :=
  ⟨nestedFilter_writable, nestedFilter_writtenAs,
    Filter.parse_writtenAs nestedFilter_writable nestedFilter_writtenAs⟩

end Criteria
