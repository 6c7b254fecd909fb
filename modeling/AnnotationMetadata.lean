import AnnotationMetadata.Name
import AnnotationMetadata.Dict
import AnnotationMetadata.Dict.Lemmas
import AnnotationMetadata.Text.Shown
import AnnotationMetadata.Double.Shortest
import AnnotationMetadata.Double.Literal
import AnnotationMetadata.Json.Record
import AnnotationMetadata.Json.Reader
import AnnotationMetadata.Json.Writer
import AnnotationMetadata.Value.Json
import AnnotationMetadata.Value.Draft
import AnnotationMetadata.Config.Json
import AnnotationMetadata.Diagnostic
import AnnotationMetadata.Model.Json
import AnnotationMetadata.Model.Hierarchy
import AnnotationMetadata.Model.Alias
import AnnotationMetadata.Store.Json
import AnnotationMetadata.Metadata.Basic
import AnnotationMetadata.Metadata.Defaults
import AnnotationMetadata.Walk.Element
import AnnotationMetadata.Session.Build
import AnnotationMetadata.Main
import AnnotationMetadata.Proofs.Model.Exploration
import AnnotationMetadata.Proofs.Walk.Declaration
import AnnotationMetadata.Proofs.Session.Observation
import AnnotationMetadata.Proofs.Walk.Chain
import AnnotationMetadata.Proofs.Walk.Similarity
import AnnotationMetadata.Proofs.Session.History
import AnnotationMetadata.Proofs.Session.Validation
import AnnotationMetadata.Proofs.Store.Replay
import AnnotationMetadata.Proofs.Store.Declared
import AnnotationMetadata.Proofs.Session.DeclaredPart
import AnnotationMetadata.Proofs.Store.Names
import AnnotationMetadata.Proofs.Walk.StereotypeGraph
import AnnotationMetadata.Proofs.Session.RecordedGraph
import AnnotationMetadata.Proofs.Store.Members
import AnnotationMetadata.Proofs.Model.Supertypes
import AnnotationMetadata.Proofs.Session.InheritedAnnotations
import AnnotationMetadata.Proofs.Session.InheritedStereotypes
import AnnotationMetadata.Proofs.Walk.Registry
import AnnotationMetadata.Proofs.Session.Registry
import AnnotationMetadata.Proofs.Session.Unmapped
import AnnotationMetadata.Proofs.Walk.Declining
import AnnotationMetadata.Proofs.Session.Declining
import AnnotationMetadata.Proofs.Session.RemappedStereotypes
import AnnotationMetadata.Proofs.Store.Recorded
import AnnotationMetadata.Proofs.Store.WellFormed
import AnnotationMetadata.Proofs.Walk.Grounded
import AnnotationMetadata.Proofs.Session.RecordedParents
import AnnotationMetadata.Proofs.Store.Defaults
import AnnotationMetadata.Proofs.Walk.Outputs
import AnnotationMetadata.Proofs.Session.RecordedDefaults
import AnnotationMetadata.Proofs.Walk.HardReplacement
import AnnotationMetadata.Proofs.Session.HardReplacement
import AnnotationMetadata.Proofs.Store.Repeated
import AnnotationMetadata.Proofs.Session.Annotating
import AnnotationMetadata.Proofs.Store.GivenDefaults
import AnnotationMetadata.Proofs.Session.AddedAnnotation
import AnnotationMetadata.Proofs.Walk.GivenDefaults
import AnnotationMetadata.Proofs.Session.RegisteredDefaults
import AnnotationMetadata.Proofs.Session.RuntimeDefaults
import AnnotationMetadata.Proofs.Store.Layering
import AnnotationMetadata.Proofs.Metadata.Snapshot
import AnnotationMetadata.Proofs.Session.SnapshotValues
import AnnotationMetadata.Proofs.Store.Absorption
import AnnotationMetadata.Proofs.Metadata.Associativity
import AnnotationMetadata.Proofs.Metadata.Groups
import AnnotationMetadata.Proofs.Session.SnapshotOccurrences
import AnnotationMetadata.Proofs.Model.Readability
import AnnotationMetadata.Proofs.Walk.Elements
import AnnotationMetadata.Proofs.Session.Outcome
import AnnotationMetadata.Proofs.Json.Scanning
import AnnotationMetadata.Proofs.Json.Numbers
import AnnotationMetadata.Proofs.Json.RoundTrip
import AnnotationMetadata.Proofs.Value.Documents
import AnnotationMetadata.Proofs.Value.RoundTrip
import AnnotationMetadata.Proofs.Walk.Invariants
import AnnotationMetadata.Proofs.Walk.RecordedNames
import AnnotationMetadata.Proofs.Session.InternalNames
import AnnotationMetadata.Proofs.Walk.ExcludedPackages
import AnnotationMetadata.Proofs.Session.ExcludedPackages
import AnnotationMetadata.Proofs.Session.Seeding
import AnnotationMetadata.Proofs.Session.Unvalidated
import AnnotationMetadata.Proofs.CommandLine.Spelling
import AnnotationMetadata.Proofs.CommandLine.Batch
import AnnotationMetadata.Proofs.Walk.OwnAliases
import AnnotationMetadata.Proofs.Session.DeclaredBuilds
import AnnotationMetadata.Proofs.Session.OwnAliases
import AnnotationMetadata.Proofs.Session.AliasedStereotypes
import AnnotationMetadata.Proofs.Session.DefaultScope
import AnnotationMetadata.Proofs.Store.GroupItems
import AnnotationMetadata.Proofs.Walk.Reached
import AnnotationMetadata.Proofs.Walk.MetaGraph
import AnnotationMetadata.Proofs.Walk.Bindings
import AnnotationMetadata.Proofs.Session.InterceptorBindings
import AnnotationMetadata.Proofs.Model.Inheritance
import AnnotationMetadata.Proofs.Store.GroupedOccurrences
import AnnotationMetadata.Proofs.Session.KeptGroups
import AnnotationMetadata.Proofs.Extension.Renaming
import AnnotationMetadata.Proofs.Walk.Renaming
import AnnotationMetadata.Proofs.Session.RenamedGroups
import AnnotationMetadata.Proofs.Session.DeclaredValues
import AnnotationMetadata.Proofs.Model.NestedAliases
import AnnotationMetadata.Proofs.Session.SkippedStereotypes
import AnnotationMetadata.Proofs.Model.Unfolding
import AnnotationMetadata.Proofs.Walk.InlineMetas
import AnnotationMetadata.Proofs.Extension.Loading
import AnnotationMetadata.Proofs.Session.RepeatedHierarchy
import AnnotationMetadata.Proofs.Session.LayeredOccurrences
