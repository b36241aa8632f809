import Criteria.Json.StringLiteral
import Std.Data.TreeMap.Basic

set_option autoImplicit false

namespace Criteria.Json

def isSpace (c : Char) : Bool :=
  c == ' ' || c == '\n' || c == '\t' || c == '\r'

def skipSpace (s : List Char) : List Char :=
  s.dropWhile isSpace

structure Maker (α κ : Type) where
  null : α
  bool : Bool → α
  number : List Char → Read α
  string : List Char → Read κ
  ofString : κ → α
  array : List α → α
  object : List (κ × α) → α

def expectWord : List Char → List Char → Except JsonFault (List Char)
  | [], s => .ok s
  | _ :: _, [] => .error .truncated
  | c :: word, d :: s => if c = d then expectWord word s else .error .malformed

def expectColon (s : List Char) : Except JsonFault (List Char) :=
  match skipSpace s with
  | ':' :: rest => .ok rest
  | rest => .error (faultAt rest)

mutual

def readTree {α κ : Type} (m : Maker α κ) : Nat → List Char → Read α
  | 0, _ => .error .truncated
  | fuel + 1, s =>
    match skipSpace s with
    | [] => .error .truncated
    | c :: rest =>
      if c = 'n' then (expectWord "ull".toList rest).map (m.null, ·)
      else if c = 't' then (expectWord "rue".toList rest).map (m.bool true, ·)
      else if c = 'f' then (expectWord "alse".toList rest).map (m.bool false, ·)
      else if c = '"' then (m.string rest).map fun (k, rest) => (m.ofString k, rest)
      else if c = '-' ∨ c.isDigit then m.number (c :: rest)
      else if c = '[' then
        match skipSpace rest with
        | ']' :: rest => .ok (m.array [], rest)
        | rest => (readItems m fuel [] rest).map fun (items, rest) => (m.array items, rest)
      else if c = '\x7b' then
        match skipSpace rest with
        | '\x7d' :: rest => .ok (m.object [], rest)
        | rest =>
          (readMembers m fuel [] rest).map fun (members, rest) => (m.object members, rest)
      else .error .malformed

def readItems {α κ : Type} (m : Maker α κ) :
    Nat → List α → List Char → Read (List α)
  | 0, _, _ => .error .truncated
  | fuel + 1, read, s =>
    match readTree m fuel s with
    | .error fault => .error fault
    | .ok (item, rest) =>
      match skipSpace rest with
      | ',' :: rest => readItems m fuel (item :: read) rest
      | ']' :: rest => .ok ((item :: read).reverse, rest)
      | rest => .error (faultAt rest)

def readMembers {α κ : Type} (m : Maker α κ) :
    Nat → List (κ × α) → List Char → Read (List (κ × α))
  | 0, _, _ => .error .truncated
  | fuel + 1, read, s =>
    match skipSpace s with
    | '"' :: rest =>
      match m.string rest with
      | .error fault => .error fault
      | .ok (key, rest) =>
        match expectColon rest with
        | .error fault => .error fault
        | .ok rest =>
          match readTree m fuel rest with
          | .error fault => .error fault
          | .ok (item, rest) =>
            match skipSpace rest with
            | ',' :: rest => readMembers m fuel ((key, item) :: read) rest
            | '\x7d' :: rest => .ok (((key, item) :: read).reverse, rest)
            | rest => .error (faultAt rest)
    | rest => .error (faultAt rest)

end

def orderMembers (members : List (String × Json)) : List (String × Json) :=
  (members.foldl (fun known (key, item) => known.insert key item)
    (∅ : Std.TreeMap String Json)).toList

def keeper : Maker Json String where
  null := null
  bool := bool
  number s := (readNumber s).map fun (n, rest) => (number n, rest)
  string := readString
  ofString := string
  array := array
  object members := object (orderMembers members)

def skipper : Maker Unit Unit where
  null := ()
  bool _ := ()
  number := skipNumber
  string := skipString
  ofString := id
  array _ := ()
  object _ := ()

def readValue (s : List Char) : Read Json :=
  readTree keeper (2 * s.length + 1) s

def skipValue (s : List Char) : Read Unit :=
  readTree skipper (2 * s.length + 1) s

def finish {α : Type} (result : Read α) : Except JsonFault α :=
  match result with
  | .error fault => .error fault
  | .ok (a, rest) => if skipSpace rest = [] then .ok a else .error .malformed

def read (s : String) : Except JsonFault Json :=
  finish (readValue s.toList)

end Criteria.Json
