import Criteria.Error
import Criteria.Schema.Join

set_option autoImplicit false

namespace Criteria

namespace Schema

def require (s : Schema) (name : String) : Except FilterError EntityType :=
  match s.type? name with
  | some t => .ok t
  | none => .error (.unknownType name)

/-- Walks the segments of a path from the type that the walk has come to. A walk that fails has made
the joins up to the segment where it stops. -/
def walk (s : Schema) : List String → EntityType → PathSource → List String → JoinSet →
    Except FilterError AttributePath × JoinSet
  | [], _, source, steps, joins => (.ok ⟨source, steps, none⟩, joins)
  | segment :: rest, current, source, steps, joins =>
    match current.attribute? segment with
    | none => (.error (.unknownAttribute current.name segment), joins)
    | some ⟨_, .scalar key⟩ =>
      match rest with
      | [] => (.ok ⟨source, steps ++ [segment], some key⟩, joins)
      | next :: _ =>
        (.error (.unknownAttribute (current.name ++ "." ++ segment) next), joins)
    | some ⟨_, .embedded target⟩ =>
      match s.require target with
      | .error e => (.error e, joins)
      | .ok next => s.walk rest next source (steps ++ [segment]) joins
    | some ⟨_, .relation target cardinality⟩ =>
      match s.require target with
      | .error e => (.error e, joins)
      | .ok next =>
        -- Behind the join the walk starts anew, with no steps.
        let relation := Text.dotted (steps ++ [segment])
        let (id, joins) := joins.require source relation current.name next.name cardinality
        s.walk rest next (.join id) [] joins

/-- Resolves a path over joins and tells the joins afterwards. Those that a failed walk has made are
taken back. -/
def resolveOver (s : Schema) (root : EntityType) (joins : JoinSet) (path : String) :
    Except FilterError AttributePath × JoinSet :=
  match s.walk (Text.segments path) root .root [] joins with
  | (.ok p, after) => (.ok p, after)
  | (.error e, after) => (.error e, after.truncate joins.joins.length)

def resolve (s : Schema) (root : EntityType) (joins : JoinSet) (path : String) :
    Except FilterError (AttributePath × JoinSet) :=
  match s.resolveOver root joins path with
  | (.ok p, after) => .ok (p, after)
  | (.error e, _) => .error e

end Schema

end Criteria
