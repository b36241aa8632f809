import Criteria.Filter.SyntaxError
import Criteria.Text.Blank

set_option autoImplicit false

namespace Criteria

inductive FilterSymbol where
  | dot
  | openParen
  | closeParen
  | eq
  | ne
  | lessGreater
  | lt
  | le
  | gt
  | ge
deriving DecidableEq, Repr

namespace FilterSymbol

def text : FilterSymbol → List Char
  | dot => ['.']
  | openParen => ['(']
  | closeParen => [')']
  | eq => ['=']
  | ne => ['!', '=']
  | lessGreater => ['<', '>']
  | lt => ['<']
  | le => ['<', '=']
  | gt => ['>']
  | ge => ['>', '=']

def lexeme : FilterSymbol → Lexeme
  | dot => .dot
  | openParen => .openParen
  | closeParen => .closeParen
  | eq => .comparison .eq
  | ne => .comparison .ne
  | lessGreater => .comparison .ne
  | lt => .comparison .lt
  | le => .comparison .le
  | gt => .comparison .gt
  | ge => .comparison .ge

def read? : Char → List Char → Option (FilterSymbol × List Char)
  | '.', rest => some (dot, rest)
  | '(', rest => some (openParen, rest)
  | ')', rest => some (closeParen, rest)
  | '=', rest => some (eq, rest)
  | '!', '=' :: rest => some (ne, rest)
  | '<', '=' :: rest => some (le, rest)
  | '<', '>' :: rest => some (lessGreater, rest)
  | '<', rest => some (lt, rest)
  | '>', '=' :: rest => some (ge, rest)
  | '>', rest => some (gt, rest)
  | _, _ => none

theorem read?_eq_some {c : Char} {s rest : List Char} {x : FilterSymbol}
    (h : read? c s = some (x, rest)) : c :: s = x.text ++ rest := by
  unfold read? at h
  split at h <;> simp_all [text] <;> (obtain ⟨rfl, rfl⟩ := h; rfl)

end FilterSymbol

def isNameStart (c : Char) : Bool :=
  c.isAlpha || c == '_'

def isNameChar (c : Char) : Bool :=
  c.isAlphanum || c == '_'

inductive Piece where
  | blank (c : Char)
  | comment (body : List Char)
  | symbol (x : FilterSymbol)
  | word (text : List Char)
  | colon (name : List Char)
deriving DecidableEq, Repr

namespace Piece

def text : Piece → List Char
  | blank c => [c]
  | comment body => '/' :: '*' :: body ++ ['*', '/']
  | symbol x => x.text
  | word text => text
  | colon name => ':' :: name

def tokensAt (p : Position) : Piece → List Token
  | blank _ => []
  | comment _ => []
  | symbol x => [⟨x.lexeme, p⟩]
  | word text => [⟨Lexeme.ofWord text, p⟩]
  | colon [] => [⟨.colon, p⟩]
  | colon (c :: name) => [⟨.colon, p⟩, ⟨.name (String.ofList (c :: name)), p.step ':'⟩]

def splitComment? : List Char → Option (List Char × List Char)
  | [] => none
  | '*' :: '/' :: rest => some ([], rest)
  | c :: rest => (splitComment? rest).map fun (body, rest) => (c :: body, rest)

def next (c : Char) (rest : List Char) : Except SyntaxFault (Piece × List Char) :=
  if Text.isBlank c then
    .ok (blank c, rest)
  else if c = ':' then
    .ok (colon (rest.takeWhile isNameChar), rest.dropWhile isNameChar)
  else if isNameStart c then
    .ok (word (c :: rest.takeWhile isNameChar), rest.dropWhile isNameChar)
  else
    match FilterSymbol.read? c rest with
    | some (x, rest) => .ok (symbol x, rest)
    | none =>
      match c, rest with
      | '/', '*' :: body =>
        match splitComment? body with
        | some (body, rest) => .ok (comment body, rest)
        | none => .error .unterminatedComment
      | _, _ => .error (.unexpectedCharacter c)

theorem splitComment?_eq_some {s body rest : List Char} (h : splitComment? s = some (body, rest)) :
    s = body ++ '*' :: '/' :: rest := by
  induction s using splitComment?.induct generalizing body rest with
  | case1 => simp [splitComment?] at h
  | case2 tail => simp only [splitComment?, Option.some.injEq, Prod.mk.injEq] at h; simp [← h.1, h.2]
  | case3 c tail hne ih =>
    rw [splitComment?] at h
    · simp only [Option.map_eq_some_iff, Prod.mk.injEq] at h
      obtain ⟨⟨b, r⟩, hb, rfl, rfl⟩ := h
      simp [ih hb]
    · exact hne

theorem next_eq_ok {c : Char} {s rest : List Char} {p : Piece} (h : next c s = .ok (p, rest)) :
    c :: s = p.text ++ rest := by
  unfold next at h
  split at h
  · cases h; rfl
  split at h
  · next hc => cases h; simp [text, hc]
  split at h
  · cases h; simp [text]
  split at h
  · next hx => cases h; exact FilterSymbol.read?_eq_some hx
  · split at h
    · split at h
      · next hb => cases h; simp [text, splitComment?_eq_some hb]
      · cases h
    · cases h

theorem next_length {c : Char} {s rest : List Char} {p : Piece} (h : next c s = .ok (p, rest)) :
    rest.length < (c :: s).length := by
  have hp : p.text.length ≠ 0 := by
    unfold next at h
    split at h
    · cases h; simp [text]
    split at h
    · cases h; simp [text]
    split at h
    · cases h; simp [text]
    split at h
    · next x _ _ => cases h; cases x <;> simp [text, FilterSymbol.text]
    · split at h
      · split at h <;> cases h; simp [text]
      · cases h
  rw [next_eq_ok h, List.length_append]
  omega

def split (s : List Char) : List Piece × Option SyntaxFault :=
  match s with
  | [] => ([], none)
  | c :: rest =>
    match _h : next c rest with
    | .error fault => ([], some fault)
    | .ok (p, after) =>
      let (pieces, fault) := split after
      (p :: pieces, fault)
termination_by s.length
decreasing_by exact next_length _h

def tokensFrom : Position → List Piece → TokenStream
  | p, [] => ⟨[], p⟩
  | p, piece :: pieces =>
    let rest := tokensFrom (p.advance piece.text) pieces
    ⟨piece.tokensAt p ++ rest.tokens, rest.stop⟩

end Piece

def tokenize (text : String) : Except SyntaxError TokenStream :=
  let (pieces, fault) := Piece.split text.toList
  let stream := Piece.tokensFrom {} pieces
  match fault with
  | none => .ok stream
  | some fault => .error ⟨stream.stop, fault⟩

end Criteria
