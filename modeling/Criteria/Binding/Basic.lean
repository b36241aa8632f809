import Criteria.Binding.Leaf
import Criteria.Binding.Limit
import Criteria.Filter.Reading

set_option autoImplicit false

namespace Criteria

structure Emission (α : Type) where
  result : Except FilterError α
  emitted : Nat

namespace Emission

variable {α : Type}

/-- The predicate that the limit refuses is counted too. -/
def emit (limit : ExpressionLimit) (emitted : Nat) (a : α) : Emission α :=
  let emitted := emitted + 1
  if limit.exceededBy emitted then
    ⟨.error (.limitExceeded (limit.max?.getD emitted)), emitted⟩
  else
    ⟨.ok a, emitted⟩

end Emission

def Predicate.negateIf (negated : Bool) (p : Predicate) : Predicate :=
  if negated then .not p else p

namespace Environment

mutual

def compileFrom (env : Environment) (limit : ExpressionLimit) :
    Filter → Nat → Emission Predicate
  | .leaf field condition, emitted =>
    match env.leaf field condition with
    | .error e => ⟨.error e, emitted⟩
    | .ok p => .emit limit emitted (p.negateIf condition.negated)
  | .group op operands, emitted =>
    match env.compileOperands limit operands emitted with
    | ⟨.error e, emitted⟩ => ⟨.error e, emitted⟩
    | ⟨.ok ps, emitted⟩ => .emit limit emitted (.group op ps)

def compileOperands (env : Environment) (limit : ExpressionLimit) :
    List Filter → Nat → Emission (List Predicate)
  | [], emitted => ⟨.ok [], emitted⟩
  | f :: rest, emitted =>
    match env.compileFrom limit f emitted with
    | ⟨.error e, emitted⟩ => ⟨.error e, emitted⟩
    | ⟨.ok p, emitted⟩ =>
      match env.compileOperands limit rest emitted with
      | ⟨.error e, emitted⟩ => ⟨.error e, emitted⟩
      | ⟨.ok ps, emitted⟩ => ⟨.ok (p :: ps), emitted⟩

end

def compile (env : Environment) (limit : ExpressionLimit) (f : Filter) : Emission Predicate :=
  env.compileFrom limit f 0

/-- Compiles the text of a filter. Without a text there is no filter; the count is missing when
there is no text or it cannot be read. -/
def compileText (env : Environment) (limit : ExpressionLimit) :
    Option String → Except FilterError (Option Predicate) × Option Nat
  | none => (.ok none, none)
  | some text =>
    match Filter.parse text with
    | .error e => (.error (.malformed e), none)
    | .ok f =>
      let emission := env.compile limit f
      (emission.result.map some, some emission.emitted)

end Environment

end Criteria
