import Criteria.Proofs.Filter.Splitting
import Mathlib.Data.List.TakeWhile

set_option autoImplicit false

namespace Criteria.Piece

variable {p : Piece} {c : Char} {s rest : List Char} {fault : SyntaxFault}

structure Begins (p : Piece) (s : List Char) : Prop where
  made : p.WellMade
  opens : p.text <+: s

structure Longest (p : Piece) (s : List Char) : Prop where
  begins : p.Begins s
  longest : ∀ q : Piece, q.Begins s → q.text.length ≤ p.text.length

inductive Blocked : List Char → SyntaxFault → Prop
  | comment {body : List Char} :
      ¬ ['*', '/'] <:+: body → Blocked ('/' :: '*' :: body) .unterminatedComment
  | character {c : Char} {rest : List Char} :
      ¬ ['/', '*'] <+: c :: rest → (∀ p : Piece, ¬ p.Begins (c :: rest)) →
      Blocked (c :: rest) (.unexpectedCharacter c)

-- Comments end at the first end mark.

theorem isInfix_mark_cons (notMark : ∀ rest, c = '*' → s = '/' :: rest → False) :
    ['*', '/'] <:+: c :: s ↔ ['*', '/'] <:+: s := by
  rw [List.infix_cons_iff, or_iff_right]
  intro first
  obtain ⟨rest, parts⟩ := first
  simp only [List.cons_append, List.nil_append, List.cons.injEq] at parts
  exact notMark rest parts.1.symm parts.2.symm

theorem closed_of_splitComment? {body : List Char} (h : splitComment? s = some (body, rest)) :
    ¬ ['*', '/'] <:+: body := by
  induction s using splitComment?.induct generalizing body rest with
  | case1 => simp [splitComment?] at h
  | case2 tail =>
    simp only [splitComment?, Option.some.injEq, Prod.mk.injEq] at h
    simp [← h.1]
  | case3 c tail notMark ih =>
    rw [splitComment?] at h
    · simp only [Option.map_eq_some_iff, Prod.mk.injEq] at h
      obtain ⟨⟨inner, after⟩, split, rfl, rfl⟩ := h
      rw [isInfix_mark_cons]
      · exact ih split
      · intro behind star slash
        -- A slash at the head of the body is one at the head of the text.
        have slash : inner = '/' :: behind := slash
        exact notMark _ star (by rw [splitComment?_eq_some split, slash, List.cons_append])
    · exact notMark

theorem splitComment?_eq_none_iff : splitComment? s = none ↔ ¬ ['*', '/'] <:+: s := by
  induction s using splitComment?.induct with
  | case1 => simp [splitComment?]
  | case2 tail =>
    have mark : ['*', '/'] <:+: '*' :: '/' :: tail := ⟨[], tail, rfl⟩
    simp [splitComment?, mark]
  | case3 c tail notMark ih =>
    rw [isInfix_mark_cons notMark, ← ih, splitComment?]
    · simp
    · exact notMark

-- Every piece grows to one that nothing prolongs.

theorem ends_dropWhile (s : List Char) :
    ∀ c ∈ (s.dropWhile isNameChar).head?, isNameChar c = false := by
  intro c head
  have stopped := List.head?_dropWhile_not isNameChar s
  rw [Option.mem_def.1 head] at stopped
  exact stopped

theorem exists_longer_symbol {x : FilterSymbol} (prolonged : ¬ (symbol x).Ends rest) :
    ∃ y after, x.text ++ rest = y.text ++ after ∧ (symbol y).Ends after ∧
      x.text.length ≤ y.text.length := by
  -- Only two symbols are part of longer ones.
  cases x with
  | lt =>
    simp only [Ends, not_forall] at prolonged
    obtain ⟨c, head, prolongs⟩ := prolonged
    obtain ⟨after, rfl⟩ := List.head?_eq_some_iff.1 head
    by_cases equals : c = '='
    · exact ⟨.le, after, by simp [FilterSymbol.text, equals], trivial, by simp [FilterSymbol.text]⟩
    · have greater : c = '>' := by_contra fun other => prolongs ⟨equals, other⟩
      exact ⟨.lessGreater, after, by simp [FilterSymbol.text, greater], trivial,
        by simp [FilterSymbol.text]⟩
  | gt =>
    simp only [Ends, not_forall, not_not] at prolonged
    obtain ⟨c, head, equals⟩ := prolonged
    obtain ⟨after, rfl⟩ := List.head?_eq_some_iff.1 head
    exact ⟨.ge, after, by simp [FilterSymbol.text, equals], trivial, by simp [FilterSymbol.text]⟩
  | _ => exact absurd trivial prolonged

theorem Begins.exists_ends (begins : p.Begins s) :
    ∃ (q : Piece) (rest : List Char), q.WellMade ∧ s = q.text ++ rest ∧ q.Ends rest ∧
      p.text.length ≤ q.text.length := by
  obtain ⟨made, rest, rfl⟩ := begins
  have names : ∀ c ∈ rest.takeWhile isNameChar, isNameChar c = true :=
    fun c member => List.mem_takeWhile_imp member
  cases p with
  | blank c => exact ⟨_, _, made, rfl, trivial, Nat.le_refl _⟩
  | comment body => exact ⟨_, _, made, rfl, trivial, Nat.le_refl _⟩
  | word text =>
    obtain ⟨c, tail, rfl, start, chars⟩ := made
    refine ⟨.word (c :: (tail ++ rest.takeWhile isNameChar)), rest.dropWhile isNameChar, ?_, ?_,
      ends_dropWhile rest, by simp [text]⟩
    · exact ⟨c, _, rfl, start, List.forall_mem_append.2 ⟨chars, names⟩⟩
    · simp [text, List.takeWhile_append_dropWhile]
  | colon name =>
    refine ⟨.colon (name ++ rest.takeWhile isNameChar), rest.dropWhile isNameChar,
      List.forall_mem_append.2 ⟨made, names⟩, ?_, ends_dropWhile rest, by simp [text]⟩
    simp [text, List.takeWhile_append_dropWhile]
  | symbol x =>
    by_cases ends : (symbol x).Ends rest
    · exact ⟨_, _, made, rfl, ends, Nat.le_refl _⟩
    · obtain ⟨y, after, parts, ends', shorter⟩ := exists_longer_symbol ends
      exact ⟨.symbol y, after, trivial, parts, ends', shorter⟩

-- The piece read is the longest.

theorem wellMade_of_next (h : next c s = .ok (p, rest)) : p.WellMade := by
  unfold next at h
  split at h
  · next blank =>
    cases h
    exact blank
  split at h
  · cases h
    exact fun d member => List.mem_takeWhile_imp member
  split at h
  · next start =>
    cases h
    exact ⟨c, _, rfl, start, fun d member => List.mem_takeWhile_imp member⟩
  split at h
  · cases h
    trivial
  · split at h
    · split at h
      · next found =>
        cases h
        exact closed_of_splitComment? found
      · cases h
    · cases h

theorem next_of_ends (made : p.WellMade) (ends : p.Ends rest) (parts : c :: s = p.text ++ rest) :
    next c s = .ok (p, rest) := by
  obtain ⟨d, t, text, read⟩ := next_text made ends
  rw [← parts] at text
  cases text
  exact read

theorem eq_of_text {q : Piece} (made : p.WellMade) (made' : q.WellMade) (same : p.text = q.text) :
    p = q := by
  obtain ⟨c, s, text, read⟩ := next_text made p.ends_nil
  rw [same] at text
  have read' := next_of_ends made' q.ends_nil text.symm
  rw [read] at read'
  cases read'
  rfl

theorem Longest.ends (longest : p.Longest (p.text ++ rest)) : p.Ends rest := by
  obtain ⟨grown, after, made, parts, ends, shorter⟩ := longest.begins.exists_ends
  have length := longest.longest grown ⟨made, after, parts.symm⟩
  -- The longest piece cannot grow, so what it grows to is itself.
  obtain ⟨sameText, rfl⟩ := List.append_inj parts (Nat.le_antisymm shorter length)
  rw [eq_of_text longest.begins.made made sameText]
  exact ends

theorem next_eq_ok_iff :
    next c s = .ok (p, rest) ↔ c :: s = p.text ++ rest ∧ p.Longest (c :: s) := by
  constructor
  · intro read
    have parts := next_eq_ok read
    have made := wellMade_of_next read
    refine ⟨parts, ⟨made, rest, parts.symm⟩, fun q begins => ?_⟩
    -- A piece that begins the text grows to one that is read there, and this is the one read.
    obtain ⟨grown, after, grownMade, grownParts, ends, shorter⟩ := begins.exists_ends
    have same := (next_of_ends grownMade ends grownParts).symm.trans read
    cases same
    exact shorter
  · intro given
    obtain ⟨parts, longest⟩ := given
    have made := longest.begins.made
    rw [parts] at longest
    exact next_of_ends made longest.ends parts

theorem longest_of_ends (made : p.WellMade) (ends : p.Ends rest) : p.Longest (p.text ++ rest) := by
  obtain ⟨c, s, text, read⟩ := next_text made ends
  rw [text]
  exact (next_eq_ok_iff.1 read).2

theorem not_begins_of_next (h : next c s = .error fault) : ∀ p : Piece, ¬ p.Begins (c :: s) := by
  intro p begins
  obtain ⟨grown, after, made, parts, ends, -⟩ := begins.exists_ends
  rw [next_of_ends made ends parts] at h
  cases h

theorem blocked_of_next (h : next c s = .error fault) : Blocked (c :: s) fault := by
  have none := not_begins_of_next h
  unfold next at h
  split at h
  · cases h
  split at h
  · cases h
  split at h
  · cases h
  split at h
  · cases h
  · split at h
    · split at h
      · cases h
      · next unclosed =>
        cases h
        exact .comment (splitComment?_eq_none_iff.1 unclosed)
    · next noComment =>
      cases h
      refine .character (fun opens => ?_) none
      obtain ⟨body, parts⟩ := opens
      cases parts
      exact noComment body rfl rfl

theorem next_eq_error_iff : next c s = .error fault ↔ Blocked (c :: s) fault := by
  constructor
  · exact blocked_of_next
  · intro blocked
    cases blocked with
    | comment unclosed =>
      have notBlank : Text.isBlank '/' = false := by decide
      simp [next, notBlank, isNameStart, FilterSymbol.read?, splitComment?_eq_none_iff.2 unclosed]
    | character noComment none =>
      cases read : next c s with
      | ok found => exact absurd (next_eq_ok_iff.1 read).2.begins (none _)
      | error other =>
        cases blocked_of_next read with
        | comment _ => exact absurd ⟨_, rfl⟩ noComment
        | character _ _ => rfl

end Criteria.Piece
