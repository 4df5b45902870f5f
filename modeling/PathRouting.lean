import PathRouting.Main
import PathRouting.Pattern.Canonical
import PathRouting.Pattern.Decomposition
import PathRouting.Pattern.History
import PathRouting.Proofs.Pattern.Reading
import PathRouting.Proofs.Regex.Moves
import PathRouting.Proofs.Regex.Locality
import PathRouting.Proofs.Regex.Simple
import PathRouting.Proofs.Regex.Numbering
import PathRouting.Proofs.Regex.Renumbering
import PathRouting.Proofs.Regex.Extending
import PathRouting.Proofs.Pattern.Composition
import PathRouting.Proofs.Pattern.Compilation
import PathRouting.Proofs.Pattern.Slots
import PathRouting.Proofs.Regex.Taking
import PathRouting.Proofs.Pattern.Decomposing
import PathRouting.Proofs.Pattern.Matching
import PathRouting.Proofs.Pattern.Inversion
import PathRouting.Proofs.Query.RoundTrip
import PathRouting.Proofs.Pattern.Separation
import PathRouting.Proofs.Route.Construction
import PathRouting.Proofs.Route.RoundTrip
import PathRouting.Proofs.Pattern.Caching
import PathRouting.Proofs.Pattern.Recency
import PathRouting.Proofs.Pattern.Eviction
import PathRouting.Proofs.Pattern.Enclosure
import PathRouting.Proofs.Json.RoundTrip
import PathRouting.Proofs.Pattern.Fingerprint
import PathRouting.Proofs.Pattern.Congruence
import PathRouting.Proofs.Pattern.Transparency
import PathRouting.Proofs.Route.Congruence
import PathRouting.Router.History
import PathRouting.Proofs.Router.Transparency
import PathRouting.Proofs.Value.Keys
import PathRouting.Proofs.Value.Merging
import PathRouting.Proofs.Pattern.Residue
import PathRouting.Proofs.Router.Registry
import PathRouting.Proofs.Pattern.Filling
import PathRouting.Proofs.Route.Making
import PathRouting.Proofs.Route.Acceptance
import PathRouting.Proofs.Route.Completion
import PathRouting.Proofs.Route.Enforcement
import PathRouting.Proofs.Regex.Closing
import PathRouting.Proofs.Pattern.Splitting
import PathRouting.Proofs.Route.Description
import PathRouting.Pattern.Brackets
import PathRouting.Proofs.Pattern.Bracketing
import PathRouting.Proofs.Pattern.Refusal
import PathRouting.Proofs.Route.Validity
import PathRouting.Proofs.Config.Precedence
import PathRouting.Proofs.Regex.Limits
import PathRouting.Proofs.Route.Refusal
import PathRouting.Proofs.Router.Table
import PathRouting.Proofs.Command.Loading
import PathRouting.Proofs.Pattern.Satisfying
import PathRouting.Proofs.Query.Decoding
import PathRouting.Proofs.Route.Reserved
import PathRouting.Proofs.Route.Resemblance
import PathRouting.Proofs.Route.Suffix
import PathRouting.Proofs.Text.Replacement
import PathRouting.Proofs.Query.Form
import PathRouting.Proofs.Route.Leftovers
import PathRouting.Pattern.Chain
import PathRouting.Proofs.Pattern.Chain
import PathRouting.Proofs.Route.Chain
import PathRouting.Proofs.Route.Suppression
import PathRouting.Proofs.Pattern.Normalizing
import PathRouting.Pattern.Descriptor
import PathRouting.Proofs.Pattern.Describing
import PathRouting.Proofs.Pattern.Inclusion
import PathRouting.Pattern.Accounting
import PathRouting.Proofs.Pattern.Accounting
import PathRouting.Proofs.Config.Independence
import PathRouting.Proofs.Config.Unions
