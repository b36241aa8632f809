import Criteria.Proofs.Filter.Relocation
import Criteria.Proofs.Filter.Tokenizing
import Mathlib

set_option autoImplicit false

namespace Criteria

open Grammar

namespace Piece

variable {p : Piece} {ps qs : List Piece} {s t rest : List Char}

theorem ends_cons {c : Char} (notName : isNameChar c = false) (notEq : c ≠ '=') (notGt : c ≠ '>')
    (p : Piece) (s : List Char) : p.Ends (c :: s) := by
  cases p with
  | symbol x => cases x <;> simp [Ends, notEq, notGt]
  | _ => simp [Ends, notName]

theorem ends_openParen (s : List Char) (p : Piece) : p.Ends ('(' :: s) :=
  ends_cons (by decide) (by decide) (by decide) p s

theorem ends_closeParen (s : List Char) (p : Piece) : p.Ends (')' :: s) :=
  ends_cons (by decide) (by decide) (by decide) p s

theorem Longest.append (longest : p.Longest (p.text ++ s)) (ends : p.Ends t) :
    p.Longest (p.text ++ (s ++ t)) := by
  refine longest_of_ends longest.begins.made ?_
  cases s with
  | nil => exact ends
  | cons c s => exact longest.ends.append (List.cons_ne_nil c s) t

theorem Splits.append (splits : Splits s ps []) (apart : ∀ p : Piece, p.Ends t)
    (behind : Splits t qs rest) : Splits (s ++ t) (ps ++ qs) rest := by
  generalize none : ([] : List Char) = after at splits
  induction splits with
  | done s =>
    subst none
    exact behind
  | piece longest splits ih =>
    rw [List.append_assoc]
    exact .piece (longest.append (apart _)) (ih none)

theorem lexemes_placed (ps : List Piece) : Grammar.lexemes (placed [] ps) = ps.flatMap lexemes := by
  have tokens := map_lexeme_tokensFrom {} ps
  rw [tokensFrom_start] at tokens
  exact tokens

end Piece

def HasLexemes (s : List Char) (xs : List Lexeme) : Prop :=
  ∃ ps, Piece.Splits s ps [] ∧ ps.flatMap Piece.lexemes = xs

section HasLexemes

variable {s t : List Char} {xs ys : List Lexeme}

theorem hasLexemes_nil : HasLexemes [] [] :=
  ⟨[], .done [], rfl⟩

theorem HasLexemes.symbol (x : FilterSymbol) (ends : (Piece.symbol x).Ends s)
    (behind : HasLexemes s xs) : HasLexemes (x.text ++ s) (x.lexeme :: xs) := by
  obtain ⟨ps, splits, rfl⟩ := behind
  have longest := Piece.longest_of_ends (p := .symbol x) trivial ends
  exact ⟨.symbol x :: ps, .piece longest splits, rfl⟩

theorem HasLexemes.append (before : HasLexemes s xs) (apart : ∀ p : Piece, p.Ends t)
    (behind : HasLexemes t ys) : HasLexemes (s ++ t) (xs ++ ys) := by
  obtain ⟨ps, splits, rfl⟩ := before
  obtain ⟨qs, splitsBehind, rfl⟩ := behind
  exact ⟨ps ++ qs, splits.append apart splitsBehind, List.flatMap_append⟩

theorem HasLexemes.enclosed (inner : HasLexemes s xs) (behind : HasLexemes t ys) :
    HasLexemes ('(' :: (s ++ ')' :: t)) (.openParen :: (xs ++ .closeParen :: ys)) := by
  have closed := behind.symbol .closeParen trivial
  exact (inner.append (Piece.ends_closeParen t) closed).symbol .openParen trivial

theorem hasLexemes_iff {text : String} :
    HasLexemes text.toList xs ↔ ∃ s, tokenize text = .ok s ∧ lexemes s.tokens = xs := by
  constructor
  · intro given
    obtain ⟨ps, splits, rfl⟩ := given
    exact ⟨_, tokenize_of_splits splits, Piece.lexemes_placed ps⟩
  · intro given
    obtain ⟨s, tokens, rfl⟩ := given
    obtain ⟨ps, splits, rfl⟩ := tokenize_eq_ok_iff.1 tokens
    exact ⟨ps, splits, (Piece.lexemes_placed ps).symm⟩

end HasLexemes

def Connective.Joins (op : Connective) (joiner : String) : Prop :=
  ∃ s, tokenize joiner = .ok s ∧ lexemes s.tokens = [.keyword op.keyword]

theorem Connective.joins_symbol (op : Connective) : op.Joins (" " ++ op.symbol ++ " ") := by
  cases op
  · exact ⟨⟨[⟨.keyword .and, ⟨1, 1⟩⟩], ⟨1, 5⟩⟩, by cbv, rfl⟩
  · exact ⟨⟨[⟨.keyword .or, ⟨1, 1⟩⟩], ⟨1, 4⟩⟩, by cbv, rfl⟩

namespace Filter

def enclosed (text : String) : String :=
  "(" ++ text ++ ")"

def joined (joiner : String) (texts : List String) : String :=
  joiner.intercalate (texts.map enclosed)

structure ParsedWithin (limit : Nat) (text : String) (f : Filter) : Prop where
  parsed : parse text = .ok f
  nested : ∃ s, tokenize text = .ok s ∧ NestedWithin limit (lexemes s.tokens)

theorem toList_enclosed (text : String) :
    (enclosed text).toList = '(' :: (text.toList ++ [')']) := by
  simp [enclosed]

theorem toList_joined (joiner text : String) (texts : List String) :
    (joined joiner (text :: texts)).toList = (enclosed text).toList ++
      texts.flatMap fun text => joiner.toList ++ (enclosed text).toList := by
  induction texts generalizing text with
  | nil => simp [joined]
  | cons next texts ih =>
    have parts : joined joiner (text :: next :: texts) =
        enclosed text ++ joiner ++ joined joiner (next :: texts) := String.intercalate_cons_cons
    simp [parts, ih]

section

variable {op : Connective} {joiner text : String} {texts : List String} {f : Filter}
  {fs : List Filter} {t : List Char} {ts : List Token} {ys : List Lexeme}

theorem parse_of_sentence (read : HasLexemes text.toList (lexemes ts))
    (nested : NestedWithin maxNesting (lexemes ts)) (sentence : Sentence ts f) :
    ∃ g, parse text = .ok g ∧ g.unplaced = f.unplaced := by
  obtain ⟨s, tokens, same⟩ := hasLexemes_iff.1 read
  obtain ⟨g, relocated, unplaced⟩ := sentence.relocated same
  refine ⟨g, ?_, unplaced⟩
  rw [parse, tokens]
  exact ofTokens_of_sentence relocated (same ▸ nested)

theorem ParsedWithin.term (parsed : ParsedWithin 63 text f) (behind : HasLexemes t ys)
    (nestedBehind : NestedWithin maxNesting ys) :
    ∃ ts, Term ts f ∧ HasLexemes ((enclosed text).toList ++ t) (lexemes ts ++ ys) ∧
      NestedWithin maxNesting (lexemes ts ++ ys) := by
  obtain ⟨parsed, s, tokens, nested⟩ := parsed
  obtain ⟨s', tokens', ⟨alternatives, grouped⟩, -⟩ := sentence_of_parse parsed
  cases tokens.symm.trans tokens'
  have balanced := alternatives.balanced
  -- Any places will do: the derivation is relocated when the whole text is known.
  refine ⟨_, .parens {} {} alternatives grouped, ?_, ?_⟩
  · have read := (hasLexemes_iff.2 ⟨s, tokens, rfl⟩).enclosed behind
    simpa [toList_enclosed] using read
  · have around : NestedWithin maxNesting _ :=
      (nested.enclosed balanced).append balanced.enclosed nestedBehind
    simpa using around

def AddsOperands (op : Connective) (s : List Char) (fs : List Filter) : Prop :=
  ∃ us, HasLexemes s (lexemes us) ∧ NestedWithin maxNesting (lexemes us) ∧
    -- Texts are joined from the first on, but a run is derived up to its last operand.
    ∀ {ts : List Token} {before : List Filter}, DerivesOperands op ts before →
      DerivesOperands op (ts ++ us) (before ++ fs)

theorem addsOperands_nil (op : Connective) : AddsOperands op [] [] :=
  ⟨[], hasLexemes_nil, nestedWithin_of_count (by simp), fun derived => by simpa using derived⟩

theorem AddsOperands.cons (joins : op.Joins joiner) (parsed : ParsedWithin 63 text f)
    (rest : AddsOperands op t fs) :
    AddsOperands op (joiner.toList ++ (enclosed text).toList ++ t) (f :: fs) := by
  obtain ⟨us, readRest, nestedRest, adds⟩ := rest
  obtain ⟨ts, term, read, nested⟩ := parsed.term readRest nestedRest
  refine ⟨⟨.keyword op.keyword, {}⟩ :: (ts ++ us), ?_, ?_, fun derived => ?_⟩
  · have apart : ∀ p : Piece, p.Ends ((enclosed text).toList ++ t) := by
      rw [toList_enclosed]
      exact Piece.ends_openParen _
    have joinedRest := (hasLexemes_iff.2 joins).append apart read
    simpa using joinedRest
  · have word : NestedWithin maxNesting [.keyword op.keyword] := nestedWithin_of_count (by simp)
    have joinedRest := word.append (by simp [Grammar.Balanced]) nested
    simpa using joinedRest
  · have more := adds (derivesOperands_more {} derived (derives_of_term (some op) term))
    simpa using more

theorem addsOperands_joined (joins : op.Joins joiner)
    (parsed : List.Forall₂ (ParsedWithin 63) texts fs) :
    AddsOperands op (texts.flatMap fun text => joiner.toList ++ (enclosed text).toList) fs := by
  induction parsed with
  | nil => exact addsOperands_nil op
  | cons first rest ih => exact .cons joins first ih

end

/-- Texts that are parsed alone compose: enclosed and joined they are the operands of one group, and
a single one enclosed is what it is alone, but for the places of its names. -/
theorem parse_joined :
    (∀ (op : Connective) (joiner : String) (texts : List String) (fs : List Filter),
      op.Joins joiner → List.Forall₂ (ParsedWithin 63) texts fs → 2 ≤ texts.length →
      ∃ g, parse (joined joiner texts) = .ok g ∧ g.unplaced = (group op fs).unplaced) ∧
    ∀ (text : String) (f : Filter), ParsedWithin 63 text f →
      ∃ g, parse (enclosed text) = .ok g ∧ g.unplaced = f.unplaced := by
  constructor
  · intro op joiner texts fs joins parsed several
    rw [parsed.length_eq] at several
    cases parsed with
    | nil => simp at several
    | @cons text f texts fs first rest =>
      obtain ⟨us, readRest, nestedRest, adds⟩ := addsOperands_joined joins rest
      obtain ⟨ts, term, read, nested⟩ := first.term readRest nestedRest
      rw [← toList_joined, ← lexemes_append] at read
      rw [← lexemes_append] at nested
      have operands := adds (derivesOperands_first (derives_of_term (some op) term))
      have sentence : Derives none _ _ := derives_group operands several rfl
      exact parse_of_sentence read nested sentence
  · intro text f parsed
    obtain ⟨ts, term, read, nested⟩ :=
      parsed.term hasLexemes_nil (nestedWithin_of_count (by simp))
    rw [List.append_nil, List.append_nil] at read
    rw [List.append_nil] at nested
    exact parse_of_sentence read nested (derives_of_term none term)

def nullableText : String :=
  "a=:p or/*)*/b\nis null"

def nullableFilter : Filter :=
  .group .or
    [.leaf ⟨"a", ⟨1, 0⟩⟩ (.compare .eq ⟨"p", ⟨1, 2⟩⟩), .leaf ⟨"b", ⟨1, 12⟩⟩ (.null false)]

def similarText : String :=
  "(c LIKE:q)/* AND */and d<:r"

def similarFilter : Filter :=
  .group .and
    [.leaf ⟨"c", ⟨1, 1⟩⟩ (.like false ⟨"q", ⟨1, 7⟩⟩),
      .leaf ⟨"d", ⟨1, 23⟩⟩ (.compare .lt ⟨"r", ⟨1, 25⟩⟩)]

theorem parsedWithin_of_count {limit count : Nat} {text : String} {f : Filter}
    (parsed : parse text = .ok f)
    (opened : (tokenize text).map (fun s => (lexemes s.tokens).count .openParen) = .ok count)
    (few : count ≤ limit) : ParsedWithin limit text f := by
  obtain ⟨s, tokens, -⟩ := sentence_of_parse parsed
  rw [tokens] at opened
  cases opened
  exact ⟨parsed, s, tokens, nestedWithin_of_count few⟩

theorem parse_nullableText_similarText :
    ParsedWithin 63 nullableText nullableFilter ∧ ParsedWithin 63 similarText similarFilter ∧
    (∀ op : Connective, ∃ g,
      parse ("(" ++ nullableText ++ ") " ++ op.symbol ++ " (" ++ similarText ++ ")") = .ok g ∧
        g.unplaced = (group op [nullableFilter, similarFilter]).unplaced) ∧
      ∃ g, parse ("(" ++ nullableText ++ ")") = .ok g ∧ g.unplaced = nullableFilter.unplaced := by
  have nullable : ParsedWithin 63 nullableText nullableFilter :=
    parsedWithin_of_count (by cbv) (by cbv) (Nat.zero_le _)
  have similar : ParsedWithin 63 similarText similarFilter :=
    parsedWithin_of_count (by cbv) (by cbv) (show 1 ≤ 63 by decide)
  obtain ⟨several, single⟩ := parse_joined
  refine ⟨nullable, similar, fun op => ?_, single _ _ nullable⟩
  have text : joined (" " ++ op.symbol ++ " ") [nullableText, similarText] =
      "(" ++ nullableText ++ ") " ++ op.symbol ++ " (" ++ similarText ++ ")" := by
    cases op <;> decide
  rw [← text]
  exact several op _ _ _ op.joins_symbol (.cons nullable (.cons similar .nil)) (by decide)

end Filter

end Criteria
