import Criteria.Calendar.DateFormat
import Criteria.Coercion.Error

set_option autoImplicit false

namespace Criteria

/-- What a parser makes of a value depends on the value alone. Parsers that consult the registry
which calls them are left out. -/
abbrev ValueParser := Value → Except CoercionError Value

namespace ValueParser

def nonBlankText (v : Value) (target : String) : Except CoercionError (List Char) :=
  if v.isNull then
    .error .nullValue
  else
    match v.scalarText? with
    | some s => if Text.allBlank s then .error (.ofValue v target) else .ok s
    | none => .error (.ofValue v target)

def reading (key : TypeKey) (target : String) (read? : List Char → Option Value) : ValueParser :=
  fun v =>
    if v.satisfies key then
      .ok v
    else
      match nonBlankText v target with
      | .error e => .error e
      | .ok s =>
        match read? s with
        | some w => .ok w
        | none => .error (.ofValue v target)

def readBool? (s : List Char) : Option Value :=
  if Text.sameLetters s "true".toList then some (.bool true)
  else if Text.sameLetters s "false".toList then some (.bool false)
  else none

def bool : ValueParser :=
  reading .bool "boolean" readBool?

def intTarget : IntWidth → String
  | .byte => "byte"
  | .short => "short"
  | .int => "integer"
  | .long => "long"

def int (w : IntWidth) : ValueParser :=
  reading (.int w) (intTarget w) fun s => (SizedInt.read? w s).map .int

def floatTarget : Precision → String
  | .single => "float"
  | .double => "double"

def float (p : Precision) : ValueParser :=
  reading (.float p) (floatTarget p) fun s => (Ieee.read? p s).map .float

def decimal : ValueParser :=
  reading .decimal "decimal" fun s => (Decimal.read? s).map .decimal

def char : ValueParser :=
  reading .char "character" fun s => s.head?.map .char

def uuid : ValueParser :=
  reading .uuid "UUID" fun s => (Uuid.read? s).map .uuid

def date (formats : List String) [reader : Calendar.FormatReader] : ValueParser :=
  reading .date "date" fun s => (reader.readByAny? formats s).map .date

def text : ValueParser := fun v =>
  if v.isNull then
    .error .nullValue
  else
    match v.scalarText? with
    | some s => .ok (.text (String.ofList s))
    | none => .error (.ofValue v "string")

def builtin? (formats : List String) [Calendar.FormatReader] : TypeKey → Option ValueParser
  | .bool => some bool
  | .int w => some (int w)
  | .float p => some (float p)
  | .decimal => some decimal
  | .char => some char
  | .text => some text
  | .date => some (date formats)
  | .uuid => some uuid
  | .custom _ => none

end ValueParser

end Criteria
