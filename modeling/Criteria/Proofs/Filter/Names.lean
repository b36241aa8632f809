import Criteria.Proofs.Filter.Height
import Criteria.Proofs.Filter.Tokenizing
import Criteria.Proofs.Text.Dotted

set_option autoImplicit false

namespace Criteria

theorem IsFieldName.isName {name : String} (named : IsFieldName name) : IsName name := by
  obtain ⟨⟨c, rest, text, start, chars⟩, -⟩ := named
  refine ⟨by simp [text], ?_⟩
  rw [text]
  exact List.forall_mem_cons.2 ⟨isNameChar_of_isNameStart start, chars⟩

theorem IsFieldName.dot_not_mem {name : String} (named : IsFieldName name) : '.' ∉ name.toList :=
  fun dot => absurd (named.isName.2 '.' dot) (by decide)

namespace Grammar

def Named : List Lexeme → Prop
  | [] => True
  | .colon :: .name name :: rest => IsName name ∧ Named rest
  | .name name :: rest => IsFieldName name ∧ Named rest
  | _ :: rest => Named rest

variable {ts : List Token} {xs : List Lexeme}

@[simp] theorem named_keyword {k : Keyword} : Named (.keyword k :: xs) ↔ Named xs :=
  Iff.rfl

@[simp] theorem named_openParen : Named (.openParen :: xs) ↔ Named xs :=
  Iff.rfl

@[simp] theorem named_closeParen : Named (.closeParen :: xs) ↔ Named xs :=
  Iff.rfl

theorem named_colon (named : Named xs) : Named (.colon :: xs) := by
  cases xs with
  | nil => trivial
  | cons x xs =>
    cases x with
    | name name => exact ⟨named.1.isName, named.2⟩
    | _ => exact named

theorem Field.writable {field : FieldRef} (h : Field ts field) :
    Named (lexemes ts ++ xs) → field.Writable ∧ Named xs := by
  induction h generalizing xs with
  | name name p =>
    rintro ⟨named, rest⟩
    have alone : Text.segments name = [name] := Text.segments_of_not_mem named.dot_not_mem
    exact ⟨by simpa [FieldRef.Writable, alone] using named, rest⟩
  | @dotted ts field name p q h ih =>
    intro named
    rw [lexemes_append, List.append_assoc] at named
    obtain ⟨writable, last, rest⟩ := ih named
    refine ⟨?_, rest⟩
    have split := Text.segments_append_dot field.name last.dot_not_mem
    simp only [FieldRef.Writable, split, List.forall_mem_append, List.forall_mem_singleton]
    exact ⟨writable, last⟩

theorem Param.writable {param : ParamRef} (h : Param ts param) (named : Named (lexemes ts ++ xs)) :
    param.Writable ∧ Named xs := by
  cases h
  exact named

theorem Negation.named {negated : Bool} (h : Negation ts negated)
    (named : Named (lexemes ts ++ xs)) : Named xs := by
  cases h <;> exact named

theorem Comparand.writable {condition : Condition} (h : Comparand ts condition)
    (named : Named (lexemes ts ++ xs)) :
    (∀ param ∈ condition.params, param.Writable) ∧ Named xs := by
  cases h with
  | compare op p param =>
    obtain ⟨writable, rest⟩ := param.writable named
    exact ⟨by simpa [Condition.params] using writable, rest⟩
  | between p q negation low high =>
    simp only [lexemes_append, lexemes_cons, List.append_assoc, List.cons_append] at named
    obtain ⟨lowWritable, behind⟩ := low.writable (named_keyword.1 (negation.named named))
    obtain ⟨highWritable, rest⟩ := high.writable (named_keyword.1 behind)
    exact ⟨by simp [Condition.params, lowWritable, highWritable], rest⟩
  | oneOf p negation param | like p negation param =>
    simp only [lexemes_append, lexemes_cons, List.append_assoc, List.cons_append] at named
    obtain ⟨writable, rest⟩ := param.writable (named_keyword.1 (negation.named named))
    exact ⟨by simpa [Condition.params] using writable, rest⟩
  | null p q negation =>
    simp only [lexemes_append, lexemes_cons, lexemes_nil, List.append_assoc, List.cons_append,
      named_keyword] at named
    exact ⟨by simp [Condition.params], named_keyword.1 (negation.named named)⟩

theorem Grouped.writable {op : Connective} {fs : List Filter} {f : Filter} (h : Grouped op fs f)
    (operands : WritableOperands fs) : f.Writable := by
  cases h with
  | lone f => exact operands.1
  | group fs several => exact ⟨several, operands⟩

mutual

theorem Term.writable {ts : List Token} {f : Filter} {xs : List Lexeme} : Term ts f →
    Named (lexemes ts ++ xs) → f.Writable ∧ Named xs
  | .leaf field comparand, named => by
    rw [lexemes_append, List.append_assoc] at named
    obtain ⟨fieldWritable, behind⟩ := field.writable named
    obtain ⟨writable, rest⟩ := comparand.writable behind
    exact ⟨⟨fieldWritable, writable⟩, rest⟩
  | .parens p q inner grouped, named => by
    simp only [lexemes_append, lexemes_cons, lexemes_nil, List.append_assoc, List.cons_append,
      named_openParen] at named
    obtain ⟨writable, behind⟩ := inner.writable named
    exact ⟨grouped.writable writable, named_closeParen.1 behind⟩

theorem Conjuncts.writable {ts : List Token} {fs : List Filter} {xs : List Lexeme} :
    Conjuncts ts fs → Named (lexemes ts ++ xs) → WritableOperands fs ∧ Named xs
  | .term term, named => by
    obtain ⟨writable, rest⟩ := term.writable named
    exact ⟨⟨writable, trivial⟩, rest⟩
  | .and p first last, named => by
    simp only [lexemes_append, lexemes_cons, List.append_assoc, List.cons_append] at named
    obtain ⟨before, behind⟩ := first.writable named
    obtain ⟨writable, rest⟩ := last.writable (named_keyword.1 behind)
    exact ⟨(writableOperands_append _ _).2 ⟨before, writable, trivial⟩, rest⟩

theorem Alternatives.writable {ts : List Token} {fs : List Filter} {xs : List Lexeme} :
    Alternatives ts fs → Named (lexemes ts ++ xs) → WritableOperands fs ∧ Named xs
  | .conjuncts conjuncts grouped, named => by
    obtain ⟨writable, rest⟩ := conjuncts.writable named
    exact ⟨⟨grouped.writable writable, trivial⟩, rest⟩
  | .or p first last grouped, named => by
    simp only [lexemes_append, lexemes_cons, List.append_assoc, List.cons_append] at named
    obtain ⟨before, behind⟩ := first.writable named
    obtain ⟨writable, rest⟩ := last.writable (named_keyword.1 behind)
    exact ⟨(writableOperands_append _ _).2 ⟨before, grouped.writable writable, trivial⟩, rest⟩

end

theorem Sentence.writable {f : Filter} (sentence : Sentence ts f) (named : Named (lexemes ts)) :
    f.Writable := by
  obtain ⟨alternatives, grouped⟩ := sentence
  rw [← List.append_nil (lexemes ts)] at named
  exact grouped.writable (alternatives.writable named).1

end Grammar

open Grammar

theorem Lexeme.isFieldName_of_ofWord {word : List Char} {name : String}
    (made : (Piece.word word).WellMade) (found : ofWord word = .name name) : IsFieldName name := by
  unfold ofWord at found
  split at found
  · cases found
  · next unspelled =>
    cases found
    refine ⟨by rwa [String.toList_ofList], fun k => ?_⟩
    have member : k ∈ Keyword.all := by cases k <;> decide
    simpa [String.toList_ofList] using List.find?_eq_none.1 unspelled k member

theorem Piece.named {p : Piece} {xs : List Lexeme} (made : p.WellMade) (named : Named xs) :
    Named (p.lexemes ++ xs) := by
  cases p with
  | blank c | comment body => exact named
  | symbol x => cases x <;> exact named
  | word text =>
    rw [lexemes, List.singleton_append]
    cases found : Lexeme.ofWord text with
    | name name => exact ⟨Lexeme.isFieldName_of_ofWord made found, named⟩
    | keyword k => exact named
    | _ =>
      unfold Lexeme.ofWord at found
      split at found <;> cases found
  | colon name =>
    cases name with
    | nil => exact named_colon named
    | cons c name =>
      refine ⟨⟨by simp, ?_⟩, named⟩
      rw [String.toList_ofList]
      exact made

theorem Piece.named_flatMap {ps : List Piece} (made : ∀ p ∈ ps, p.WellMade) :
    Named (ps.flatMap lexemes) := by
  induction ps with
  | nil => trivial
  | cons p ps ih =>
    obtain ⟨first, later⟩ := List.forall_mem_cons.1 made
    exact Piece.named first (ih later)

theorem named_tokenize {text : String} {s : TokenStream} (tokens : tokenize text = .ok s) :
    Named (Grammar.lexemes s.tokens) := by
  obtain ⟨ps, splits, rfl⟩ := tokenize_eq_ok_iff.1 tokens
  have same := Piece.map_lexeme_tokensFrom {} ps
  rw [tokensFrom_start] at same
  rw [Grammar.lexemes, same]
  exact Piece.named_flatMap splits.made

theorem Filter.writable_of_parse {text : String} {f : Filter} (parsed : parse text = .ok f) :
    f.Writable := by
  obtain ⟨s, tokens, sentence, -⟩ := sentence_of_parse parsed
  exact sentence.writable (named_tokenize tokens)

def IsFieldPath (path : String) : Prop :=
  ∃ names, names ≠ [] ∧ (∀ name ∈ names, IsFieldName name) ∧ path = Text.dotted names

theorem FieldRef.writable_iff {field : FieldRef} : field.Writable ↔ IsFieldPath field.name := by
  constructor
  · intro writable
    exact ⟨_, Text.segments_ne_nil _, writable, (Text.dotted_segments _).symm⟩
  · rintro ⟨names, nonempty, named, path⟩
    have split := Text.segments_dotted (fun name listed => (named name listed).dot_not_mem) nonempty
    rwa [FieldRef.Writable, path, split]

theorem text_dottedPieces (names : List String) :
    (dottedPieces names).flatMap Piece.text = (Text.dotted names).toList := by
  cases names with
  | nil => rfl
  | cons name names =>
    simp only [dottedPieces, Text.dotted, String.toList_ofList, List.flatMap_cons, Piece.text]
    induction names generalizing name with
    | nil => simp
    | cons next names ih =>
      have later := ih next
      simp only [List.map_cons, List.intercalate_cons_cons] at later ⊢
      simp [Piece.text, FilterSymbol.text, later]

theorem isChain_dottedPieces (names : List String) :
    (dottedPieces names).IsChain fun p q => p.Ends q.text := by
  cases names with
  | nil => exact .nil
  | cons name names =>
    rw [dottedPieces]
    induction names generalizing name with
    | nil => exact .singleton _
    | cons next names ih =>
      have dot : (Piece.word name.toList).Ends (Piece.text (.symbol .dot)) := by
        simp [Piece.Ends, Piece.text, FilterSymbol.text]
        decide
      exact List.isChain_cons_cons.2 ⟨dot, List.isChain_cons_cons.2 ⟨trivial, ih next⟩⟩

theorem Grammar.Field.head {ts : List Token} {field : FieldRef} (h : Field ts field) :
    ∃ x us, ts = ⟨x, field.position⟩ :: us := by
  induction h with
  | name name p => exact ⟨_, _, rfl⟩
  | dotted name p q h ih =>
    obtain ⟨x, us, rfl⟩ := ih
    exact ⟨x, _, rfl⟩

theorem Grammar.Field.count_openParen {ts : List Token} {field : FieldRef} (h : Field ts field) :
    (lexemes ts).count .openParen = 0 := by
  induction h with
  | name name p => simp
  | dotted name p q h ih => simp [ih]

def nullTest : List Piece :=
  [.blank ' ', .word ['I', 'S'], .blank ' ', .word ['N', 'U', 'L', 'L']]

theorem nullTest_made : ∀ p ∈ nullTest, p.WellMade := by
  have is : Spelled .is (.word ['I', 'S']) := ⟨by decide⟩
  have null : Spelled .null (.word ['N', 'U', 'L', 'L']) := ⟨by decide⟩
  simp [nullTest, Piece.blank_wellMade, is.wellMade, null.wellMade]

theorem tokenize_nullTest {names : List String} (named : ∀ name ∈ names, IsFieldName name) :
    tokenize (Text.dotted names ++ " IS NULL") =
      .ok (Piece.tokensFrom {} (dottedPieces names ++ nullTest)) := by
  have text : String.ofList ((dottedPieces names ++ nullTest).flatMap Piece.text) =
      Text.dotted names ++ " IS NULL" := by
    rw [List.flatMap_append, text_dottedPieces, String.ofList_append, String.ofList_toList]
    rfl
  rw [← text]
  refine tokenize_flatMap_text (List.forall_mem_append.2 ⟨(legible_dottedPieces named).made,
    nullTest_made⟩) (List.isChain_append.2 ⟨isChain_dottedPieces names, ?_, ?_⟩)
  · exact List.isChain_cons_cons.2 ⟨trivial, List.isChain_cons_cons.2
      ⟨Piece.ends_blank _, List.isChain_cons_cons.2 ⟨trivial, .singleton _⟩⟩⟩
  · intro p _ q first
    cases first
    exact p.ends_blank

theorem Filter.parse_nullTest {path : String} (reached : IsFieldPath path) :
    parse (path ++ " IS NULL") = .ok (.leaf ⟨path, {}⟩ (.null false)) := by
  obtain ⟨names, nonempty, named, rfl⟩ := reached
  obtain ⟨name, names, rfl⟩ := List.exists_cons_of_ne_nil nonempty
  have writable : FieldRef.Writable ⟨Text.dotted (name :: names), {}⟩ :=
    FieldRef.writable_iff.2 ⟨_, nonempty, named, rfl⟩
  have segments : Text.segments (Text.dotted (name :: names)) = name :: names :=
    Text.segments_dotted (fun name listed => (named name listed).dot_not_mem) nonempty
  have read := Piece.map_lexeme_tokensFrom {} (dottedPieces (name :: names) ++ nullTest)
  have isNull : nullTest.flatMap Piece.lexemes = [.keyword .is, .keyword .null] := by decide
  rw [List.flatMap_append, isNull] at read
  obtain ⟨us, vs, tokens, fieldTokens, behind⟩ := lexemes_eq_append_iff.1 read
  obtain ⟨p, vs, rfl, last⟩ := lexemes_eq_cons_iff.1 behind
  obtain ⟨q, rfl⟩ := lexemes_eq_singleton last
  obtain ⟨g, derived, same⟩ := writable.derived (by rwa [FieldRef.pieces, segments])
  have sentence := derives_of_term none (.leaf derived (.null p q .absent))
  have flat : NestedWithin maxNesting (lexemes (us ++
      [⟨.keyword .is, p⟩, ⟨.keyword .null, q⟩])) :=
    nestedWithin_of_count (by simp [derived.count_openParen])
  -- The first token of the text is the first token of the field.
  have start : g.position = {} := by
    obtain ⟨x, us', rfl⟩ := derived.head
    rw [dottedPieces] at tokens
    injection tokens with first
    injection first with _ place
    exact place.symm
  have whole : g = ⟨Text.dotted (name :: names), {}⟩ :=
    congrArg₂ FieldRef.mk (congrArg FieldRef.name same) start
  rw [parse, tokenize_nullTest named, ← whole]
  exact ofTokens_of_sentence (by rw [tokens]; exact sentence) (by rw [tokens]; exact flat)

theorem Condition.params_unplaced (condition : Condition) :
    condition.unplaced.params.map (·.name) = condition.params.map (·.name) := by
  cases condition <;> rfl

theorem Filter.exists_parameter {name : String} (named : IsName name) :
    ∃ text f, parse text = .ok f ∧ name ∈ f.parameters := by
  have param : ParamRef.Writable ⟨name, {}⟩ := named
  have written : Written none (.leaf ⟨"a", {}⟩ (.compare .eq ⟨name, {}⟩))
      (FieldRef.pieces ⟨"a", {}⟩ ++ [.symbol .eq, ParamRef.piece ⟨name, {}⟩]) :=
    .leaf _ (.compare _ rfl)
  have few : ((FieldRef.pieces ⟨"a", {}⟩ ++ [.symbol .eq, ParamRef.piece ⟨name, {}⟩]).flatMap
      Piece.lexemes).count .openParen = 0 := by
    have field : (FieldRef.pieces ⟨"a", {}⟩).flatMap Piece.lexemes = [.name "a"] := by decide
    have eq : Piece.lexemes (.symbol .eq) = [.comparison .eq] := rfl
    simp [field, eq, param.lexemes_eq]
  obtain ⟨text, g, parsed, same⟩ := written.exists_text
    ⟨mark_writable.1, by simpa [Condition.params] using param⟩ (by rw [few]; exact Nat.zero_le _)
  refine ⟨text, g, parsed, ?_⟩
  cases g with
  | group op fs => cases same
  | leaf field condition =>
    injection same with _ compared
    rw [parameters, ← condition.params_unplaced, compared]
    exact List.mem_cons_self

end Criteria
