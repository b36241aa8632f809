import Criteria.Proofs.Value.Words

set_option autoImplicit false

namespace Criteria

open Text (Unquoted Composed)

namespace Value

mutual

def literals : Value → List (List Char)
  | char c => [[c]]
  | text s => [s.toList]
  | date t => [t.text]
  | uuid u => [u.text]
  | list items => itemLiterals items
  | _ => []

def itemLiterals : List Value → List (List Char)
  | [] => []
  | item :: rest => item.literals ++ itemLiterals rest

end

mutual

def chars : Value → List Char
  | char c => [c]
  | list items => itemChars items
  | _ => []

def itemChars : List Value → List Char
  | [] => []
  | item :: rest => item.chars ++ itemChars rest

end

mutual

theorem composed_shown : (v : Value) → Composed v.shown v.literals v.chars
  | null => .plain (by decide)
  | bool true => .plain (by decide)
  | bool false => .plain (by decide)
  | int n => .plain n.bare_text.unquoted
  | float x => .plain x.bare_text.unquoted
  | decimal d => .plain d.bare_text.unquoted
  | char c => .char c
  | text s => .quoted s.toList
  | date t => .enclosed t.bare_text.unquoted
  | uuid u => .enclosed u.bare_text.unquoted
  | list items => by
    have opened := (composed_shownItems items).behind (show Unquoted ['('] by decide)
    exact opened.before (show Unquoted [')'] by decide)

theorem composed_shownItems : (items : List Value) →
    Composed (shownItems items) (itemLiterals items) (itemChars items)
  | [] => .plain Text.unquoted_nil
  | [item] => by
    simpa [shownItems, itemLiterals, itemChars] using composed_shown item
  | item :: next :: rest => by
    have more := (composed_shownItems (next :: rest)).behind (show Unquoted [',', ' '] by decide)
    exact (composed_shown item).append more (by simp +decide)

end

end Value

end Criteria
