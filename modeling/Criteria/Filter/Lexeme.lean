import Criteria.Filter.Comparison
import Criteria.Filter.Position
import Criteria.Text.Letters

set_option autoImplicit false

namespace Criteria

inductive Keyword where
  | and
  | or
  | not
  | between
  | among
  | is
  | null
  | like
deriving DecidableEq, Repr

namespace Keyword

def all : List Keyword :=
  [and, or, not, between, among, is, null, like]

def spelling : Keyword → String
  | and => "AND"
  | or => "OR"
  | not => "NOT"
  | between => "BETWEEN"
  | among => "IN"
  | is => "IS"
  | null => "NULL"
  | like => "LIKE"

def ofWord? (word : List Char) : Option Keyword :=
  all.find? fun k => Text.sameLetters k.spelling.toList word

end Keyword

inductive Lexeme where
  | name (text : String)
  | colon
  | dot
  | openParen
  | closeParen
  | comparison (op : Comparison)
  | keyword (k : Keyword)
deriving DecidableEq, Repr

namespace Lexeme

def ofWord (word : List Char) : Lexeme :=
  match Keyword.ofWord? word with
  | some k => keyword k
  | none => name (String.ofList word)

def spelling : Lexeme → String
  | name text => text
  | colon => ":"
  | dot => "."
  | openParen => "("
  | closeParen => ")"
  | comparison op => op.symbol
  | keyword k => k.spelling

def display (x : Lexeme) : String :=
  "'" ++ x.spelling ++ "'"

end Lexeme

structure Token where
  lexeme : Lexeme
  position : Position
deriving DecidableEq, Repr

structure TokenStream where
  tokens : List Token
  stop : Position
deriving DecidableEq, Repr

end Criteria
