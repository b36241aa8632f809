import Criteria.Predicate.Backend
import Criteria.Query.Direction
import Criteria.Query.Page

set_option autoImplicit false

namespace Criteria

structure OrderSpec where
  field : String
  path : AttributePath
  direction : OrderDirection
deriving DecidableEq, Repr

structure CompiledFilter where
  conjuncts : List Predicate

namespace CompiledFilter

def isEmpty (f : CompiledFilter) : Bool :=
  f.conjuncts.isEmpty

def predicate? (f : CompiledFilter) : Option Predicate :=
  match f.conjuncts with
  | [] => none
  | [p] => some p
  | ps => some (.group .and ps)

def lower {σ ε : Type} (b : Backend σ ε) (f : CompiledFilter) : StateM σ (Option ε) :=
  match f.conjuncts with
  | [] => pure none
  | [p] => do
    let x ← p.lower b
    pure (some x)
  | ps => do
    let xs ← Predicate.lowerAll b ps
    let x ← b.combine .and xs
    pure (some x)

def same (f g : CompiledFilter) : Bool :=
  Predicate.sameOperands f.conjuncts g.conjuncts

end CompiledFilter

structure CompiledQuery where
  filter : CompiledFilter
  order : Option OrderSpec
  page : Page
  distinct : Bool
  joins : JoinSet

def CompiledQuery.same (q r : CompiledQuery) : Bool :=
  q.filter.same r.filter && q.order == r.order && q.page == r.page && q.distinct == r.distinct &&
    q.joins == r.joins

structure CompiledCount where
  filter : CompiledFilter
  distinct : Bool
  joins : JoinSet

end Criteria
