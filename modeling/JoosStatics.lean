import JoosStatics.Main
import JoosStatics.Proofs.SortedMaps
import JoosStatics.Proofs.SignatureOrder
import JoosStatics.Proofs.StatefulRuns
import JoosStatics.Proofs.Types.Supertypes
import JoosStatics.Proofs.Linking.Symbols
import JoosStatics.Proofs.Linking.Resolution
import JoosStatics.Proofs.Linking.Tiers
import JoosStatics.Proofs.Hierarchy.Accepted
import JoosStatics.Proofs.Hierarchy.Conformance
import JoosStatics.Proofs.Analysis
import JoosStatics.Proofs.Bodies.Escapes
import JoosStatics.Proofs.Flow.Reachability
import JoosStatics.Proofs.Walks.Members
import JoosStatics.Proofs.LateViolations
import JoosStatics.Proofs.BodyReports
import JoosStatics.Proofs.Linking.Library
import JoosStatics.Proofs.Linking.Declarations
import JoosStatics.Proofs.SpanErasure
import JoosStatics.Proofs.DeclarationOrder
import JoosStatics.Proofs.Typing.Results
import JoosStatics.Proofs.Typing.StaticContexts
import JoosStatics.Proofs.Flow.Returns
import JoosStatics.Proofs.Flow.ConstructorChains
import JoosStatics.Proofs.Typing.LexicalScoping
import JoosStatics.Proofs.Typing.VoidValues
import JoosStatics.Proofs.Syntax.RoundTrip
import JoosStatics.Proofs.Hierarchy.ClauseOrder
import JoosStatics.Proofs.Hierarchy.Cycles
import JoosStatics.Proofs.Typing.Casts
import JoosStatics.Proofs.Typing.Overloading
import JoosStatics.Proofs.Typing.TypeNames
import JoosStatics.Proofs.FirstViolation
import JoosStatics.Proofs.Syntax.Blueprints
import JoosStatics.Proofs.Flow.Constants
import JoosStatics.Proofs.Typing.FieldChains
import JoosStatics.Proofs.Linking.Indexes
import JoosStatics.Proofs.Syntax.DisjointTrees
import JoosStatics.Proofs.Typing.Assignments
import JoosStatics.Proofs.UnreachedCode
import JoosStatics.Proofs.Types.NearestFirst
import JoosStatics.Proofs.DottedNames
import JoosStatics.Proofs.InputFiles
