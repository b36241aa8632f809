import Criteria.Filter.Piece
import Mathlib.Data.List.Chain

set_option autoImplicit false

namespace Criteria

theorem isNameChar_of_isNameStart {c : Char} (h : isNameStart c = true) : isNameChar c = true := by
  simp only [isNameStart, isNameChar, Char.isAlphanum, Bool.or_eq_true] at h ⊢
  rcases h with letter | underscore
  · exact .inl (.inl letter)
  · exact .inr underscore

theorem isNameChar_iff {c : Char} : isNameChar c = true ↔
    48 ≤ c.toNat ∧ c.toNat ≤ 57 ∨ 65 ≤ c.toNat ∧ c.toNat ≤ 90 ∨
      97 ≤ c.toNat ∧ c.toNat ≤ 122 ∨ c.toNat = 95 := by
  have underscore : c = '_' ↔ c.toNat = 95 := by
    rw [← Char.toNat_inj]
    rfl
  have upper : c.isUpper = decide (65 ≤ c.val ∧ c.val ≤ 90) := rfl
  have lower : c.isLower = (decide (97 ≤ c.val) && decide (c.val ≤ 122)) := rfl
  have alpha : c.isAlpha = (c.isUpper || c.isLower) := rfl
  simp only [isNameChar, Char.isAlphanum, alpha, upper, lower, Char.isDigit, Bool.or_eq_true,
    Bool.and_eq_true, decide_eq_true_eq, beq_iff_eq, underscore, UInt32.le_iff_toNat_le, ge_iff_le]
  change ((65 ≤ c.toNat ∧ c.toNat ≤ 90 ∨ 97 ≤ c.toNat ∧ c.toNat ≤ 122) ∨
    48 ≤ c.toNat ∧ c.toNat ≤ 57) ∨ c.toNat = 95 ↔ _
  omega

def IsName (name : String) : Prop :=
  name.toList ≠ [] ∧ ∀ c ∈ name.toList, isNameChar c = true

theorem not_isBlank_of_isNameChar {c : Char} (h : isNameChar c = true) : Text.isBlank c = false := by
  rw [Bool.eq_false_iff]
  intro blank
  obtain ⟨range, listed, low, high⟩ := Text.inRanges_eq_true_iff.1 blank
  rw [isNameChar_iff] at h
  simp only [Text.blankRanges, List.mem_cons, List.not_mem_nil, or_false] at listed
  rcases listed with rfl | rfl | rfl | rfl | rfl | rfl | rfl | rfl | rfl | rfl <;>
    simp only at low high <;> omega

namespace Piece

def WellMade : Piece → Prop
  | blank c => Text.isBlank c = true
  | comment body => ¬ ['*', '/'] <:+: body
  | symbol _ => True
  | word text => ∃ c rest, text = c :: rest ∧ isNameStart c = true ∧ ∀ d ∈ rest, isNameChar d = true
  | colon name => ∀ c ∈ name, isNameChar c = true

def Ends : Piece → List Char → Prop
  | word _, rest => ∀ c ∈ rest.head?, isNameChar c = false
  | colon _, rest => ∀ c ∈ rest.head?, isNameChar c = false
  | symbol .lt, rest => ∀ c ∈ rest.head?, c ≠ '=' ∧ c ≠ '>'
  | symbol .gt, rest => ∀ c ∈ rest.head?, c ≠ '='
  | _, _ => True

section

variable {name rest : List Char}

theorem takeWhile_name (made : ∀ c ∈ name, isNameChar c = true)
    (ends : ∀ c ∈ rest.head?, isNameChar c = false) :
    (name ++ rest).takeWhile isNameChar = name := by
  rw [List.takeWhile_append_of_pos made]
  cases rest with
  | nil => simp
  | cons c rest => simp [ends c rfl]

theorem dropWhile_name (made : ∀ c ∈ name, isNameChar c = true)
    (ends : ∀ c ∈ rest.head?, isNameChar c = false) :
    (name ++ rest).dropWhile isNameChar = rest := by
  rw [List.dropWhile_append_of_pos made]
  cases rest with
  | nil => simp
  | cons c rest => simp [ends c rfl]

theorem splitComment?_append {body : List Char} (closed : ¬ ['*', '/'] <:+: body)
    (rest : List Char) : splitComment? (body ++ '*' :: '/' :: rest) = some (body, rest) := by
  induction body with
  | nil => rfl
  | cons c body ih =>
    have shorter : ¬ ['*', '/'] <:+: body := fun inside =>
      closed (inside.trans (List.suffix_cons c body).isInfix)
    -- An end mark at the first place would be one inside the body: the body is not empty then,
    -- as the mark behind it begins with a star.
    have notMark : ∀ after, c :: (body ++ '*' :: '/' :: rest) ≠ '*' :: '/' :: after := by
      intro after mark
      cases body with
      | nil => simp at mark
      | cons d body =>
        simp only [List.cons_append, List.cons.injEq] at mark
        obtain ⟨rfl, rfl, -⟩ := mark
        exact closed ⟨[], body, rfl⟩
    rw [List.cons_append, splitComment?, ih shorter]
    · rfl
    · intro after star tail
      exact notMark after (by rw [star, tail])

end

theorem text_symbol (x : FilterSymbol) :
    ∃ c s, x.text = c :: s ∧ Text.isBlank c = false ∧ c ≠ ':' ∧ isNameChar c = false := by
  cases x <;> exact ⟨_, _, rfl, by decide, by decide, by decide⟩

theorem read?_text {x : FilterSymbol} {c : Char} {s rest : List Char} (text : x.text = c :: s)
    (ends : (symbol x).Ends rest) : FilterSymbol.read? c (s ++ rest) = some (x, rest) := by
  cases x
  case lt | gt =>
    cases text
    unfold FilterSymbol.read?
    split <;> simp_all [Ends]
  all_goals
    cases text
    rfl

theorem next_text {p : Piece} {rest : List Char} (made : p.WellMade) (ends : p.Ends rest) :
    ∃ c s, p.text ++ rest = c :: s ∧ next c s = .ok (p, rest) := by
  cases p with
  | blank c =>
    have blank : Text.isBlank c = true := made
    exact ⟨c, rest, rfl, by simp [next, blank]⟩
  | comment body =>
    have notBlank : Text.isBlank '/' = false := by decide
    refine ⟨'/', _, rfl, ?_⟩
    simp [next, notBlank, isNameStart, FilterSymbol.read?, splitComment?_append made]
  | symbol x =>
    obtain ⟨c, s, text, notBlank, notColon, notName⟩ := text_symbol x
    have notStart : isNameStart c = false := by
      rw [Bool.eq_false_iff] at notName ⊢
      exact fun start => notName (isNameChar_of_isNameStart start)
    refine ⟨c, s ++ rest, by simp [Piece.text, text], ?_⟩
    simp [next, notBlank, notColon, notStart, read?_text text ends]
  | word text =>
    obtain ⟨c, tail, rfl, start, chars⟩ := made
    have notBlank := not_isBlank_of_isNameChar (isNameChar_of_isNameStart start)
    have notColon : c ≠ ':' := by
      rintro rfl
      exact absurd start (by decide)
    refine ⟨c, tail ++ rest, rfl, ?_⟩
    simp [next, notBlank, notColon, start, takeWhile_name chars ends, dropWhile_name chars ends]
  | colon name =>
    have notBlank : Text.isBlank ':' = false := by decide
    refine ⟨':', name ++ rest, rfl, ?_⟩
    simp [next, notBlank, takeWhile_name made ends, dropWhile_name made ends]

theorem split_text {p : Piece} {rest : List Char} (made : p.WellMade) (ends : p.Ends rest) :
    split (p.text ++ rest) = (p :: (split rest).1, (split rest).2) := by
  obtain ⟨c, s, text, read⟩ := next_text made ends
  rw [text, split]
  split
  · next fault h => simp [read] at h
  · next q after h =>
    rw [read] at h
    cases h
    rfl

theorem text_ne_nil {p : Piece} (made : p.WellMade) : p.text ≠ [] := by
  cases p with
  | word text =>
    obtain ⟨c, rest, rfl, -⟩ := made
    simp [text]
  | symbol x => cases x <;> simp [text, FilterSymbol.text]
  | _ => simp [text]

theorem ends_nil (p : Piece) : p.Ends [] := by
  cases p with
  | symbol x => cases x <;> simp [Ends]
  | _ => simp [Ends]

theorem Ends.append {p : Piece} {s : List Char} (ends : p.Ends s) (some : s ≠ [])
    (rest : List Char) : p.Ends (s ++ rest) := by
  have head : (s ++ rest).head? = s.head? := List.head?_append_of_ne_nil s some
  cases p with
  | symbol x => cases x <;> simp_all [Ends]
  | _ => simp_all [Ends]

theorem split_flatMap_text {pieces : List Piece} (made : ∀ p ∈ pieces, p.WellMade)
    (apart : pieces.IsChain fun p q => p.Ends q.text) :
    split (pieces.flatMap text) = (pieces, none) := by
  induction pieces with
  | nil => rw [List.flatMap_nil, split]
  | cons p pieces ih =>
    -- Whether a piece ends is told by the next piece alone, which is never empty.
    have ends : p.Ends (pieces.flatMap text) := by
      cases pieces with
      | nil => exact p.ends_nil
      | cons q pieces =>
        have nonempty := text_ne_nil (made q (by simp))
        exact (List.isChain_cons_cons.1 apart).1.append nonempty _
    rw [List.flatMap_cons, split_text (made p List.mem_cons_self) ends,
      ih (fun q member => made q (List.mem_cons_of_mem p member)) apart.tail]

def lexemes : Piece → List Lexeme
  | blank _ => []
  | comment _ => []
  | symbol x => [x.lexeme]
  | word text => [Lexeme.ofWord text]
  | colon [] => [.colon]
  | colon (c :: name) => [.colon, .name (String.ofList (c :: name))]

theorem map_lexeme_tokensAt (p : Position) (piece : Piece) :
    (piece.tokensAt p).map (·.lexeme) = piece.lexemes := by
  cases piece with
  | colon name => cases name <;> rfl
  | _ => rfl

theorem map_lexeme_tokensFrom (p : Position) (pieces : List Piece) :
    (tokensFrom p pieces).tokens.map (·.lexeme) = pieces.flatMap lexemes := by
  induction pieces generalizing p with
  | nil => rfl
  | cons piece pieces ih =>
    simp only [tokensFrom, List.map_append, map_lexeme_tokensAt, ih, List.flatMap_cons]

end Piece

theorem tokenize_flatMap_text {pieces : List Piece} (made : ∀ p ∈ pieces, p.WellMade)
    (apart : pieces.IsChain fun p q => p.Ends q.text) :
    tokenize (String.ofList (pieces.flatMap Piece.text)) = .ok (Piece.tokensFrom {} pieces) := by
  simp [tokenize, String.toList_ofList, Piece.split_flatMap_text made apart]

end Criteria
