import Criteria.Json.Number

set_option autoImplicit false

namespace Criteria.Json

-- The empty sum is the core library's, whichever instances are in scope besides.
attribute [local instance (high)] Zero.ofOfNat0

def hexValue? (c : Char) : Option Nat :=
  if c.isDigit then some (c.toNat - '0'.toNat)
  else if 'a' ≤ c ∧ c ≤ 'f' then some (c.toNat - 'a'.toNat + 10)
  else if 'A' ≤ c ∧ c ≤ 'F' then some (c.toNat - 'A'.toNat + 10)
  else none

def hexCode? (a b c d : Char) : Option Nat := do
  let a ← hexValue? a
  let b ← hexValue? b
  let c ← hexValue? c
  let d ← hexValue? d
  pure (((a * 16 + b) * 16 + c) * 16 + d)

def hexFault (s : List Char) : JsonFault :=
  if ((s.take 4).map Char.utf8Size).sum < 4 then .truncated else .malformed

def escape? : Char → Option Char
  | '"' => some '"'
  | '\\' => some '\\'
  | '/' => some '/'
  | 'b' => some '\x08'
  | 'f' => some '\x0c'
  | 'n' => some '\n'
  | 'r' => some '\r'
  | 't' => some '\t'
  | _ => none

def isLeadingSurrogate (n : Nat) : Bool :=
  0xD800 ≤ n && n ≤ 0xDBFF

def isTrailingSurrogate (n : Nat) : Bool :=
  0xDC00 ≤ n && n ≤ 0xDFFF

def joinSurrogates (lead trail : Nat) : Char :=
  Char.ofNat (0x10000 + (lead - 0xD800) * 0x400 + (trail - 0xDC00))

/-- Carries the characters already read, the latest first, and a leading surrogate that waits for
the trailing one, whose escape must follow at once. -/
def readStringFrom (read : List Char) (lead : Option Nat) :
    List Char → Read (List Char)
  | [] => .error .truncated
  | '\\' :: 'u' :: a :: b :: c :: d :: rest =>
    match hexCode? a b c d with
    | none => .error (hexFault (a :: b :: c :: d :: rest))
    | some n =>
      match lead with
      | some lead =>
        if isTrailingSurrogate n then readStringFrom (joinSurrogates lead n :: read) none rest
        else .error .malformed
      | none =>
        if isTrailingSurrogate n then .error .malformed
        else if isLeadingSurrogate n then readStringFrom read (some n) rest
        else readStringFrom (Char.ofNat n :: read) none rest
  | '\\' :: 'u' :: rest => .error (hexFault rest)
  | ['\\'] => .error .truncated
  | c :: rest =>
    if lead.isSome then
      .error .malformed
    else if c = '"' then
      .ok (read.reverse, rest)
    else if c = '\\' then
      match rest with
      | [] => .error .truncated
      | mark :: rest =>
        match escape? mark with
        | none => .error .malformed
        | some c => readStringFrom (c :: read) none rest
    else if c.toNat < 0x20 then
      .error .malformed
    else
      readStringFrom (c :: read) none rest

def readString (s : List Char) : Read String :=
  (readStringFrom [] none s).map fun (read, rest) => (String.ofList read, rest)

def skipString : List Char → Read Unit
  | [] => .error .truncated
  | '"' :: rest => .ok ((), rest)
  | '\\' :: 'u' :: a :: b :: c :: d :: rest =>
    match hexCode? a b c d with
    | none => .error (hexFault (a :: b :: c :: d :: rest))
    | some _ => skipString rest
  | '\\' :: 'u' :: rest => .error (hexFault rest)
  | ['\\'] => .error .truncated
  | '\\' :: c :: rest => if (escape? c).isSome then skipString rest else .error .malformed
  | c :: rest => if c.toNat < 0x20 then .error .malformed else skipString rest

end Criteria.Json
