import SchemaGraph.Json.Reader
import SchemaGraph.Main
import SchemaGraph.Proofs.Document.Faithful
import SchemaGraph.Proofs.Survey.Failing
import SchemaGraph.Proofs.Survey.Outside
import SchemaGraph.Proofs.Document.Persistence
import SchemaGraph.Value.Tagged
import SchemaGraph.Proofs.Document.Addresses
import SchemaGraph.Proofs.Document.Numbering
import SchemaGraph.Proofs.Document.References
import SchemaGraph.Proofs.Document.Sequence
import SchemaGraph.Proofs.Store.Catalogs
import SchemaGraph.Proofs.Document.Standing
import SchemaGraph.Proofs.Document.Identity
import SchemaGraph.Proofs.Document.Pointers
import SchemaGraph.Proofs.Document.Dialect
import SchemaGraph.Proofs.Survey.Strata
import SchemaGraph.Proofs.Document.Acceptance
import SchemaGraph.Proofs.Document.Linking
import SchemaGraph.Proofs.Document.Failing
import SchemaGraph.Proofs.Document.Session
import SchemaGraph.Proofs.Document.Progress
import SchemaGraph.Proofs.Document.Roots
import SchemaGraph.Proofs.Survey.Pointing
import SchemaGraph.Proofs.Document.Cutting
import SchemaGraph.Proofs.Document.Separation
import SchemaGraph.Proofs.Value.Founded
import SchemaGraph.Proofs.Survey.Sober
import SchemaGraph.Proofs.Survey.Backing
import SchemaGraph.Proofs.Survey.Grounding
import SchemaGraph.Proofs.Document.Breaking
import SchemaGraph.Proofs.Document.Unwinding
import SchemaGraph.Proofs.Document.Refusals
import SchemaGraph.Proofs.Document.Ordering
import SchemaGraph.Proofs.Document.Repeating
import SchemaGraph.Proofs.Document.Alone
import SchemaGraph.Proofs.Document.Protocol
import SchemaGraph.Proofs.Document.Strictness
import SchemaGraph.Proofs.Survey.Preorder
import SchemaGraph.Proofs.Document.Targets
import SchemaGraph.Proofs.Store.Registrations
import SchemaGraph.Proofs.Document.Disclosure
import SchemaGraph.Proofs.Document.Wrapping
import SchemaGraph.Proofs.Files.Reading
import SchemaGraph.Proofs.Files.Writing
import SchemaGraph.Proofs.Files.Exporting
import SchemaGraph.Proofs.Document.Marking
import SchemaGraph.Proofs.Survey.Signposts
import SchemaGraph.Proofs.Survey.Ending
import SchemaGraph.Proofs.Document.Revealing
import SchemaGraph.Proofs.Pattern.Concatenations
import SchemaGraph.Proofs.Document.Sides
import SchemaGraph.Proofs.Document.Defaults
import SchemaGraph.Proofs.Document.Telling
import SchemaGraph.Proofs.Survey.Bounds
import SchemaGraph.Proofs.Document.Finishing
import SchemaGraph.Proofs.Document.Enumerations
import SchemaGraph.Proofs.Document.Confluence
import SchemaGraph.Proofs.Files.Settings
