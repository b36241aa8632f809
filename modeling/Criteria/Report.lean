import Criteria.Error
import Criteria.Json.Record

set_option autoImplicit false

namespace Criteria

inductive ErrorOrigin where
  | parser
  | binder
  | schema
  | query
deriving DecidableEq, Repr

namespace ErrorOrigin

def all : List ErrorOrigin :=
  [parser, binder, schema, query]

def label : ErrorOrigin → String
  | parser => "parser"
  | binder => "binder"
  | schema => "schema"
  | query => "query"

def title : ErrorOrigin → String
  | parser => "Parser"
  | binder => "Binder"
  | schema => "Schema"
  | query => "Query"

end ErrorOrigin

namespace ErrorKind

def all : List ErrorKind :=
  [malformed, unknownField, unknownAttribute, parameterNotBound, duplicateParameter,
    duplicateField, valueCoercion, typeMismatch, expressionLimitExceeded, invalidOrder,
    invalidPagination]

def title : ErrorKind → String
  | malformed => "Syntax"
  | unknownField => "UnknownField"
  | unknownAttribute => "UnknownAttribute"
  | parameterNotBound => "ParameterNotBound"
  | duplicateParameter => "DuplicateParameter"
  | duplicateField => "DuplicateField"
  | valueCoercion => "ValueCoercion"
  | typeMismatch => "TypeMismatch"
  | expressionLimitExceeded => "ExpressionLimitExceeded"
  | invalidOrder => "InvalidOrder"
  | invalidPagination => "InvalidPagination"

def origin : ErrorKind → ErrorOrigin
  | malformed => .parser
  | unknownField => .binder
  | parameterNotBound => .binder
  | valueCoercion => .binder
  | typeMismatch => .binder
  | expressionLimitExceeded => .binder
  | unknownAttribute => .schema
  | duplicateField => .schema
  | duplicateParameter => .query
  | invalidOrder => .query
  | invalidPagination => .query

end ErrorKind

structure ErrorReport where
  kind : ErrorKind
  origin : ErrorOrigin
  message : String
deriving DecidableEq

namespace ErrorReport

def ofError (e : FilterError) : ErrorReport :=
  ⟨e.kind, e.kind.origin, e.message⟩

def json (r : ErrorReport) : Json :=
  .object [("kind", .string r.kind.label), ("origin", .string r.origin.label),
    ("message", .string r.message)]

structure Draft where
  kind : Option ErrorKind := none
  origin : Option ErrorOrigin := none
  message : String := ""

def shape : Json.RecordShape Draft where
  fields :=
    [⟨"kind", fun r s =>
        (Json.readName (ErrorKind.all.map fun k => (k.label, k)) s).map fun (kind, rest) =>
          ({ r with kind := some kind }, rest)⟩,
      ⟨"origin", fun r s =>
        (Json.readName (ErrorOrigin.all.map fun o => (o.label, o)) s).map fun (origin, rest) =>
          ({ r with origin := some origin }, rest)⟩,
      ⟨"message", fun r s =>
        (Json.readText s).map fun (message, rest) => ({ r with message }, rest)⟩]
  mayOmit := false
  mayExtend := true

def ofJson (s : String) : Except JsonFault ErrorReport := do
  match ← Json.finish (shape.readRecord {} s.toList) with
  | ⟨some kind, some origin, message⟩ => .ok ⟨kind, origin, message⟩
  | _ => .error .mismatched

end ErrorReport

end Criteria
