import Criteria.Filter.Piece
import Criteria.Filter.Tree

set_option autoImplicit false

namespace Criteria

/-- The operands of one parenthesis, or of the whole text: the finished alternatives, each of them
between two ORs, and the conditions of the alternative that is being read. -/
structure OperandRun where
  alternatives : List Filter := []
  conjuncts : List Filter := []

namespace OperandRun

def push (r : OperandRun) (f : Filter) : OperandRun :=
  { r with conjuncts := r.conjuncts ++ [f] }

def split (r : OperandRun) : OperandRun :=
  ⟨r.alternatives ++ [.join .and r.conjuncts], []⟩

def close (r : OperandRun) : Filter :=
  .join .or r.split.alternatives

end OperandRun

inductive ParamSlot where
  | compare (op : Comparison)
  | low (negated : Bool)
  | high (negated : Bool) (low : ParamRef)
  | oneOf (negated : Bool)
  | like (negated : Bool)
deriving DecidableEq, Repr

inductive ReadingStage where
  | operand
  | dot (field : FieldRef)
  | field (field : FieldRef)
  | negation (field : FieldRef)
  | nullity (field : FieldRef) (negated : Bool)
  | param (field : FieldRef) (slot : ParamSlot)
  | paramName (field : FieldRef) (slot : ParamSlot) (colon : Position)
  | conjunction (field : FieldRef) (negated : Bool) (low : ParamRef)
  | complete
deriving DecidableEq, Repr

structure Reading where
  stage : ReadingStage := .operand
  run : OperandRun := {}
  outer : List OperandRun := []

namespace Reading

def expectation (r : Reading) : Expectation :=
  match r.stage with
  | .operand => .operand
  | .dot _ => .attributeName
  | .field _ => .condition
  | .negation _ => .negatable
  | .nullity _ _ => .null
  | .param _ _ => .parameter
  | .paramName _ _ _ => .parameterName
  | .conjunction _ _ _ => .conjunction
  | .complete => if r.outer.isEmpty then .stop else .closeParen

def goTo (r : Reading) (stage : ReadingStage) : Reading :=
  { r with stage }

def add (r : Reading) (f : Filter) : Reading :=
  { r with stage := .complete, run := r.run.push f }

def fill (r : Reading) (field : FieldRef) (slot : ParamSlot) (param : ParamRef) : Reading :=
  match slot with
  | .compare op => r.add (.leaf field (.compare op param))
  | .low negated => r.goTo (.conjunction field negated param)
  | .high negated low => r.add (.leaf field (.between negated low param))
  | .oneOf negated => r.add (.leaf field (.oneOf negated param))
  | .like negated => r.add (.leaf field (.like negated param))

def negatable? (negated : Bool) : Keyword → Option ParamSlot
  | .between => some (.low negated)
  | .among => some (.oneOf negated)
  | .like => some (.like negated)
  | _ => none

/-- The reading after one more token; none if no filter goes on with that token. -/
def step? (r : Reading) (t : Token) : Option Reading :=
  match r.stage, t.lexeme with
  | .operand, .name name => some (r.goTo (.field ⟨name, t.position⟩))
  | .operand, .openParen =>
    if r.outer.length < maxNesting then some ⟨.operand, {}, r.run :: r.outer⟩ else none
  | .dot field, .name name => some (r.goTo (.field ⟨field.name ++ "." ++ name, field.position⟩))
  | .field field, .dot => some (r.goTo (.dot field))
  | .field field, .comparison op => some (r.goTo (.param field (.compare op)))
  | .field field, .keyword .is => some (r.goTo (.nullity field false))
  | .field field, .keyword .not => some (r.goTo (.negation field))
  | .field field, .keyword k => (negatable? false k).map fun slot => r.goTo (.param field slot)
  | .negation field, .keyword k => (negatable? true k).map fun slot => r.goTo (.param field slot)
  | .nullity field false, .keyword .not => some (r.goTo (.nullity field true))
  | .nullity field negated, .keyword .null => some (r.add (.leaf field (.null negated)))
  | .param field slot, .colon => some (r.goTo (.paramName field slot t.position))
  | .paramName field slot colon, .name name => some (r.fill field slot ⟨name, colon⟩)
  -- The AND between two bounds connects no conditions.
  | .conjunction field negated low, .keyword .and =>
    some (r.goTo (.param field (.high negated low)))
  | .complete, .keyword .and => some (r.goTo .operand)
  | .complete, .keyword .or => some ⟨.operand, r.run.split, r.outer⟩
  | .complete, .closeParen =>
    match r.outer with
    | [] => none
    | run :: outer => some ⟨.complete, run.push r.run.close, outer⟩
  | _, _ => none

def fault (r : Reading) (found : Option Lexeme) : SyntaxFault :=
  match r.stage, found with
  | .operand, some .openParen => .nestedTooDeep
  | _, _ => .unexpected found r.expectation

def result? (r : Reading) : Option Filter :=
  match r.stage, r.outer with
  | .complete, [] => some r.run.close
  | _, _ => none

def finish (r : Reading) (stop : Position) : List Token → Except SyntaxError Filter
  | [] =>
    match r.result? with
    | some f => .ok f
    | none => .error ⟨stop, r.fault none⟩
  | t :: rest =>
    match r.step? t with
    | some r => r.finish stop rest
    | none => .error ⟨t.position, r.fault (some t.lexeme)⟩

end Reading

namespace Filter

def ofTokens (s : TokenStream) : Except SyntaxError Filter :=
  Reading.finish {} s.stop s.tokens

def parse (text : String) : Except SyntaxError Filter :=
  match tokenize text with
  | .error e => .error e
  | .ok s => ofTokens s

end Filter

end Criteria
