import Criteria.Json.Tree

set_option autoImplicit false

namespace Criteria.Json

def otherType (s : List Char) : JsonFault :=
  match s with
  | [] => .truncated
  | c :: rest =>
    let after {α : Type} (result : Except JsonFault α) : JsonFault :=
      match result with
      | .error fault => fault
      | .ok _ => .mismatched
    if c = 'n' then after (expectWord "ull".toList rest)
    else if c = 't' then after (expectWord "rue".toList rest)
    else if c = 'f' then after (expectWord "alse".toList rest)
    else if c = '"' then after (readString rest)
    else if c = '-' ∨ c.isDigit then after (readNumber s)
    else if c = '[' ∨ c = '\x7b' then .mismatched
    else .malformed

def readNull (s : List Char) : Read Unit :=
  match skipSpace s with
  | 'n' :: rest => (expectWord "ull".toList rest).map ((), ·)
  | rest => .error (otherType rest)

def readBool (s : List Char) : Read Bool :=
  match skipSpace s with
  | 't' :: rest => (expectWord "rue".toList rest).map (true, ·)
  | 'f' :: rest => (expectWord "alse".toList rest).map (false, ·)
  | rest => .error (otherType rest)

def readText (s : List Char) : Read String :=
  match skipSpace s with
  | '"' :: rest => readString rest
  | rest => .error (otherType rest)

def readCount (s : List Char) : Read Nat :=
  match skipSpace s with
  | [] => .error .truncated
  | c :: rest =>
    if c = '-' ∨ c.isDigit then
      match readNumber (c :: rest) with
      | .error fault => .error fault
      | .ok (.integer n, rest) => if 0 ≤ n then .ok (n.toNat, rest) else .error .mismatched
      | .ok (.double _, _) => .error .mismatched
    else
      .error (otherType (c :: rest))

def readOptionalCount (s : List Char) : Read (Option Nat) :=
  match skipSpace s with
  | 'n' :: rest => (expectWord "ull".toList rest).map (none, ·)
  | rest => (readCount rest).map fun (n, rest) => (some n, rest)

def find {α : Type} (names : List (String × α)) (name : String) : Except JsonFault α :=
  match names.lookup name with
  | some a => .ok a
  | none => .error .mismatched

def readName {α : Type} (names : List (String × α)) (s : List Char) :
    Except JsonFault (α × List Char) :=
  match skipSpace s with
  | '"' :: rest => do
    let (name, rest) ← readString rest
    let a ← find names name
    pure (a, rest)
  | '\x7b' :: rest =>
    match skipSpace rest with
    | '"' :: rest => do
      let (name, rest) ← readString rest
      let a ← find names name
      let rest ← expectColon rest
      let ((), rest) ← readNull rest
      match skipSpace rest with
      | '\x7d' :: rest => .ok (a, rest)
      | rest => .error (faultAt rest)
    | rest => .error (faultAt rest)
  | rest => .error (faultAt rest)

structure Field (σ : Type) where
  key : String
  read : σ → List Char → Read σ

structure RecordShape (σ : Type) where
  fields : List (Field σ)
  mayOmit : Bool
  mayExtend : Bool

namespace RecordShape

variable {σ : Type}

def readListFrom (shape : RecordShape σ) :
    List (Field σ) → Bool → σ → List Char → Except JsonFault (σ × List Char)
  | [], _, record, s =>
    match skipSpace s with
    | ']' :: rest => .ok (record, rest)
    | rest => .error (faultAt rest)
  | field :: fields, first, record, s =>
    match skipSpace s with
    | [] => .error .truncated
    | c :: rest =>
      if c = ']' then
        if shape.mayOmit then .ok (record, rest) else .error .mismatched
      else if first then do
        let (record, rest) ← field.read record (c :: rest)
        readListFrom shape fields false record rest
      else if c = ',' then
        match skipSpace rest with
        | [] => .error .truncated
        -- A comma promises one more element.
        | ']' :: _ => .error .malformed
        | rest => do
          let (record, rest) ← field.read record rest
          readListFrom shape fields false record rest
      else
        .error .malformed

def readMember (shape : RecordShape σ) (seen : List String) (record : σ) (s : List Char) :
    Except JsonFault (List String × σ × List Char) := do
  let (key, rest) ← readString s
  match shape.fields.find? (·.key == key) with
  | some field =>
    if seen.contains key then
      .error .mismatched
    else
      let rest ← expectColon rest
      let (record, rest) ← field.read record rest
      pure (key :: seen, record, rest)
  | none =>
    if shape.mayExtend then
      let rest ← expectColon rest
      let ((), rest) ← skipValue rest
      pure (seen, record, rest)
    else
      .error .mismatched

def readMembersFrom (shape : RecordShape σ) :
    Nat → Bool → List String → σ → List Char → Except JsonFault (σ × List Char)
  | 0, _, _, _, _ => .error .truncated
  | fuel + 1, first, seen, record, s =>
    match skipSpace s with
    | [] => .error .truncated
    | c :: rest =>
      if c = '\x7d' then
        if shape.mayOmit || shape.fields.all (seen.contains ·.key) then .ok (record, rest)
        else .error .mismatched
      else
        let member : List Char → Except JsonFault (σ × List Char) := fun rest => do
          let (seen, record, rest) ← readMember shape seen record rest
          readMembersFrom shape fuel false seen record rest
        if first then
          if c = '"' then member rest else .error .malformed
        else if c = ',' then
          match skipSpace rest with
          | '"' :: rest => member rest
          | rest => .error (faultAt rest)
        else
          .error .malformed

def readRecord (shape : RecordShape σ) (blank : σ) (s : List Char) : Read σ :=
  match skipSpace s with
  | '[' :: rest => shape.readListFrom shape.fields true blank rest
  | '\x7b' :: rest => shape.readMembersFrom (rest.length + 1) true [] blank rest
  | rest => .error (otherType rest)

end RecordShape

end Criteria.Json
