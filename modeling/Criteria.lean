import Criteria.Coercion.Shared
import Criteria.Coercion.Units
import Criteria.Predicate.Recording
import Criteria.Predicate.Sql
import Criteria.Proofs.Binding.Culprit
import Criteria.Proofs.Binding.Cutoff
import Criteria.Proofs.Binding.Height
import Criteria.Proofs.Binding.Meaning
import Criteria.Proofs.Binding.Reachable
import Criteria.Proofs.Binding.Required
import Criteria.Proofs.Binding.Structured
import Criteria.Proofs.Binding.Typing
import Criteria.Proofs.Catalog.Reordering
import Criteria.Proofs.Coercion.FloatToInteger
import Criteria.Proofs.Coercion.Integers
import Criteria.Proofs.Coercion.LastWrite
import Criteria.Proofs.Coercion.TimeOfDay
import Criteria.Proofs.Filter.Composition
import Criteria.Proofs.Filter.Tokenizing
import Criteria.Proofs.Filter.Viability
import Criteria.Proofs.Predicate.Literals
import Criteria.Proofs.Predicate.Lowering
import Criteria.Proofs.Predicate.Shape
import Criteria.Proofs.Query.Conjuncts
import Criteria.Proofs.Query.History
import Criteria.Proofs.Query.Joins
import Criteria.Proofs.Query.Mirroring
import Criteria.Proofs.Report.Origins
import Criteria.Proofs.Schema.Sharing
import Criteria.Proofs.Value.Textual
import Criteria.Proofs.Value.TypeNames
import Criteria.Query.Provider
import Criteria.Report
import Criteria.Value.OfJson
import Criteria.Version
