import Criteria.Proofs.Filter.LongestPiece
import Criteria.Proofs.Filter.Places

set_option autoImplicit false

namespace Criteria

namespace Piece

variable {p : Piece} {ps : List Piece} {c : Char} {s rest after : List Char} {fault : SyntaxFault}

inductive Splits : List Char → List Piece → List Char → Prop
  | done (s : List Char) : Splits s [] s
  | piece {p : Piece} {ps : List Piece} {s rest : List Char} :
      p.Longest (p.text ++ s) → Splits s ps rest → Splits (p.text ++ s) (p :: ps) rest

theorem Splits.parts (splits : Splits s ps rest) : s = ps.flatMap text ++ rest := by
  induction splits with
  | done s => rfl
  | piece longest splits ih => rw [List.flatMap_cons, List.append_assoc, ← ih]

theorem Splits.made (splits : Splits s ps rest) : ∀ p ∈ ps, p.WellMade := by
  induction splits with
  | done s => exact nofun
  | piece longest splits ih => exact List.forall_mem_cons.2 ⟨longest.begins.made, ih⟩

theorem Longest.of_append (longest : p.Longest (p.text ++ s ++ rest)) :
    p.Longest (p.text ++ s) where
  begins := ⟨longest.begins.made, List.prefix_append _ _⟩
  longest q begins := longest.longest q ⟨begins.made, begins.opens.trans (List.prefix_append _ _)⟩

theorem Splits.alone (splits : Splits s ps rest) : Splits (ps.flatMap text) ps [] := by
  induction splits with
  | done s => exact .done []
  | piece longest splits ih =>
    rw [splits.parts, ← List.append_assoc] at longest
    exact .piece longest.of_append ih

theorem split_nil : split [] = ([], none) := by
  rw [split]

theorem split_of_next (read : next c s = .ok (p, after)) :
    split (c :: s) = (p :: (split after).1, (split after).2) := by
  rw [split]
  split
  · next h => simp [read] at h
  · next h =>
    rw [read] at h
    cases h
    rfl

theorem split_of_blocked (blocked : Blocked s fault) : split s = ([], some fault) := by
  cases s with
  | nil => cases blocked
  | cons c s =>
    have read := next_eq_error_iff.2 blocked
    rw [split]
    split
    · next h =>
      rw [read] at h
      cases h
      rfl
    · next h => simp [read] at h

theorem exists_splits (s : List Char) :
    ∃ ps rest, Splits s ps rest ∧ (rest = [] ∨ ∃ fault, Blocked rest fault) := by
  induction s using split.induct with
  | case1 => exact ⟨[], [], .done [], .inl rfl⟩
  | case2 c s fault read => exact ⟨[], c :: s, .done _, .inr ⟨fault, next_eq_error_iff.1 read⟩⟩
  | case3 c s p after read _ _ _ ih =>
    obtain ⟨ps, rest, splits, stopped⟩ := ih
    obtain ⟨parts, longest⟩ := next_eq_ok_iff.1 read
    rw [parts] at longest ⊢
    exact ⟨p :: ps, rest, .piece longest splits, stopped⟩

theorem Splits.split (splits : Splits s ps rest) :
    split s = (ps ++ (split rest).1, (split rest).2) := by
  induction splits with
  | done s => rfl
  | @piece p ps s rest longest splits ih =>
    obtain ⟨c, t, text⟩ := List.exists_cons_of_ne_nil (text_ne_nil longest.begins.made)
    have read : next c (t ++ s) = .ok (p, s) := by
      rw [next_eq_ok_iff, ← List.cons_append, ← text]
      exact ⟨rfl, longest⟩
    rw [text, List.cons_append, split_of_next read, ih, List.cons_append]

theorem Splits.whole (splits : Splits s ps []) : Piece.split s = (ps, none) := by
  rw [splits.split, split_nil, List.append_nil]

theorem Splits.cut (splits : Splits s ps rest) (blocked : Blocked rest fault) :
    Piece.split s = (ps, some fault) := by
  rw [splits.split, split_of_blocked blocked, List.append_nil]

-- The tokens of pieces, placed by the text before them.

def parts : Piece → List (Nat × Lexeme)
  | blank _ => []
  | comment _ => []
  | symbol x => [(0, x.lexeme)]
  | word text => [(0, .ofWord text)]
  | colon [] => [(0, .colon)]
  | colon name => [(0, .colon), (1, .name (String.ofList name))]

def placed (before : List Char) : List Piece → List Token
  | [] => []
  | p :: ps =>
    p.parts.map (fun part => ⟨part.2, .behind (before ++ p.text.take part.1)⟩) ++
      placed (before ++ p.text) ps

theorem tokensAt_behind (before : List Char) (p : Piece) :
    p.tokensAt (.behind before) =
      p.parts.map fun part => ⟨part.2, .behind (before ++ p.text.take part.1)⟩ := by
  cases p with
  | colon name =>
    cases name with
    | nil => simp [tokensAt, parts]
    | cons c name => simp [tokensAt, parts, text, ← Position.behind_concat]
  | _ => simp [tokensAt, parts]

theorem tokensFrom_behind (before : List Char) (ps : List Piece) :
    tokensFrom (.behind before) ps = ⟨placed before ps, .behind (before ++ ps.flatMap text)⟩ := by
  induction ps generalizing before with
  | nil => simp [tokensFrom, placed]
  | cons p ps ih =>
    simp only [tokensFrom, placed, Position.advance_behind, tokensAt_behind, ih,
      List.flatMap_cons, List.append_assoc]

-- Tokens stand in the order of the text, and before its end.

theorem before_text (made : p.WellMade) (place : Position) :
    place.Before (place.advance p.text) := by
  obtain ⟨c, s, text⟩ := List.exists_cons_of_ne_nil (text_ne_nil made)
  rw [text]
  exact Position.before_advance_cons place c s

theorem tokensAt_within {place : Position} {t : Token} (made : p.WellMade)
    (listed : t ∈ p.tokensAt place) :
    (t.position = place ∨ place.Before t.position) ∧
      t.position.Before (place.advance p.text) := by
  have ahead := before_text made place
  cases p with
  | blank c | comment body => cases listed
  | symbol x | word text =>
    cases List.mem_singleton.1 listed
    exact ⟨.inl rfl, ahead⟩
  | colon name =>
    cases name with
    | nil =>
      cases List.mem_singleton.1 listed
      exact ⟨.inl rfl, ahead⟩
    | cons c name =>
      simp only [tokensAt, List.mem_cons, List.not_mem_nil, or_false] at listed
      rcases listed with rfl | rfl
      · exact ⟨.inl rfl, ahead⟩
      · exact ⟨.inr (Position.before_step place ':'), Position.before_advance_cons _ c name⟩

theorem pairwise_tokensAt (p : Piece) (place : Position) :
    ((p.tokensAt place).map (·.position)).Pairwise Position.Before := by
  cases p with
  | colon name =>
    cases name with
    | nil => simp [tokensAt]
    | cons c name => simpa [tokensAt] using Position.before_step place ':'
  | _ => simp [tokensAt]

end Piece

def TokenStream.places (s : TokenStream) : List Position :=
  s.tokens.map (·.position) ++ [s.stop]

theorem Piece.ordered_tokensFrom {ps : List Piece} (made : ∀ p ∈ ps, p.WellMade)
    (place : Position) :
    (tokensFrom place ps).places.Pairwise Position.Before ∧
      ∀ q ∈ (tokensFrom place ps).places, q = place ∨ place.Before q := by
  induction ps generalizing place with
  | nil => simp [tokensFrom, TokenStream.places]
  | cons p ps ih =>
    obtain ⟨first, later⟩ := List.forall_mem_cons.1 made
    obtain ⟨pairwise, behind⟩ := ih later (place.advance p.text)
    have places : (tokensFrom place (p :: ps)).places =
        (p.tokensAt place).map (·.position) ++ (tokensFrom (place.advance p.text) ps).places := by
      simp [tokensFrom, TokenStream.places]
    have within : ∀ q ∈ (p.tokensAt place).map (·.position),
        (q = place ∨ place.Before q) ∧ q.Before (place.advance p.text) :=
      List.forall_mem_map.2 fun t listed => tokensAt_within first listed
    have ahead := before_text first place
    rw [places]
    constructor
    · refine List.pairwise_append.2 ⟨pairwise_tokensAt p place, pairwise, fun q own r other => ?_⟩
      rcases behind r other with rfl | further
      · exact (within q own).2
      · exact (within q own).2.trans further
    · intro q listed
      rcases List.mem_append.1 listed with own | other
      · exact (within q own).1
      · rcases behind q other with rfl | further
        · exact .inr ahead
        · exact .inr (ahead.trans further)

open Piece (Splits Blocked placed)

variable {text : String} {s : TokenStream} {e : SyntaxError}

theorem tokensFrom_start (ps : List Piece) :
    Piece.tokensFrom {} ps = ⟨placed [] ps, .behind (ps.flatMap Piece.text)⟩ :=
  Piece.tokensFrom_behind [] ps

theorem tokenize_of_splits {ps : List Piece} (splits : Splits text.toList ps []) :
    tokenize text = .ok ⟨placed [] ps, .behind text.toList⟩ := by
  have parts := splits.parts
  rw [List.append_nil] at parts
  simp only [tokenize, splits.whole, tokensFrom_start, ← parts]

theorem tokenize_of_blocked {ps : List Piece} {rest : List Char} {fault : SyntaxFault}
    (splits : Splits text.toList ps rest) (blocked : Blocked rest fault) :
    tokenize text = .error ⟨.behind (ps.flatMap Piece.text), fault⟩ := by
  simp only [tokenize, splits.cut blocked, tokensFrom_start]

theorem tokenize_eq_ok_iff :
    tokenize text = .ok s ↔
      ∃ ps, Splits text.toList ps [] ∧ s = ⟨placed [] ps, .behind text.toList⟩ := by
  constructor
  · intro tokens
    obtain ⟨ps, rest, splits, rfl | ⟨fault, blocked⟩⟩ := Piece.exists_splits text.toList
    · rw [tokenize_of_splits splits] at tokens
      cases tokens
      exact ⟨ps, splits, rfl⟩
    · rw [tokenize_of_blocked splits blocked] at tokens
      cases tokens
  · intro given
    obtain ⟨ps, splits, rfl⟩ := given
    exact tokenize_of_splits splits

theorem tokenize_eq_error_iff :
    tokenize text = .error e ↔ ∃ ps before rest, text.toList = before ++ rest ∧
      Splits before ps [] ∧ Splits text.toList ps rest ∧ e.position = .behind before ∧
      Blocked rest e.fault := by
  constructor
  · intro failed
    obtain ⟨ps, rest, splits, rfl | ⟨fault, blocked⟩⟩ := Piece.exists_splits text.toList
    · rw [tokenize_of_splits splits] at failed
      cases failed
    · rw [tokenize_of_blocked splits blocked] at failed
      cases failed
      exact ⟨ps, _, rest, splits.parts, splits.alone, splits, rfl, blocked⟩
  · intro given
    obtain ⟨ps, before, rest, parts, -, splits, place, blocked⟩ := given
    have same : ps.flatMap Piece.text = before :=
      List.append_cancel_right (splits.parts.symm.trans parts)
    rw [tokenize_of_blocked splits blocked, same, ← place]

/-- A text has tokens exactly if it splits into pieces that are each the longest at their place: the
lexemes of the pieces, each at the place of its first character, and the end of the text, so that
every token stands before the next. If it has none, it splits up to the place of the error, where no
piece begins or a comment is opened that is never closed. -/
theorem tokenize_lossless (text : String) :
    (∀ s, tokenize text = .ok s ↔
      ∃ ps, Splits text.toList ps [] ∧ s = ⟨placed [] ps, .behind text.toList⟩) ∧
    (∀ s, tokenize text = .ok s → s.places.Pairwise Position.Before) ∧
    ∀ e, tokenize text = .error e ↔ ∃ ps before rest, text.toList = before ++ rest ∧
      Splits before ps [] ∧ Splits text.toList ps rest ∧ e.position = .behind before ∧
      Blocked rest e.fault := by
  refine ⟨fun s => tokenize_eq_ok_iff, fun s tokens => ?_, fun e => tokenize_eq_error_iff⟩
  obtain ⟨ps, splits, rfl⟩ := tokenize_eq_ok_iff.1 tokens
  have ordered := (Piece.ordered_tokensFrom splits.made {}).1
  rw [tokensFrom_start] at ordered
  rw [splits.parts, List.append_nil]
  exact ordered

-- The star that opens a comment does not end it.
example : tokenize "a\n/*/" = .error ⟨⟨2, 0⟩, .unterminatedComment⟩ := by cbv

end Criteria
