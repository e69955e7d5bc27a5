import ProtoPascal.CommandLine.Arguments
import ProtoPascal.CommandLine.Session
import ProtoPascal.Error
import ProtoPascal.Files.Fault
import ProtoPascal.Files.FileSystem
import ProtoPascal.Files.Path
import ProtoPascal.Files.Storage
import ProtoPascal.Json
import ProtoPascal.Log
import ProtoPascal.Main
import ProtoPascal.Message.Class
import ProtoPascal.Message.ClassPlan
import ProtoPascal.Message.Field
import ProtoPascal.Message.FieldCode
import ProtoPascal.Message.Lifecycle
import ProtoPascal.Message.Names
import ProtoPascal.Message.Oneof
import ProtoPascal.Message.Slots
import ProtoPascal.Naming.Rule
import ProtoPascal.Naming.Scope
import ProtoPascal.Naming.Vocabulary
import ProtoPascal.Pascal.Code
import ProtoPascal.Pascal.Layout
import ProtoPascal.Pascal.Outline
import ProtoPascal.Pascal.Syntax
import ProtoPascal.Request.Envelope
import ProtoPascal.Request.Generation
import ProtoPascal.Request.Options
import ProtoPascal.Runtime
import ProtoPascal.Schema.Basic
import ProtoPascal.Schema.Descriptor
import ProtoPascal.Schema.Encoded
import ProtoPascal.Schema.FieldType
import ProtoPascal.Schema.Validation
import ProtoPascal.SchemaUnit
import ProtoPascal.Text.CaseMapping
import ProtoPascal.Text.CaseStyle
import ProtoPascal.Text.Characters
import ProtoPascal.Text.Folding
import ProtoPascal.Text.Pieces
import ProtoPascal.Text.Words
import ProtoPascal.TypeIndex
import ProtoPascal.UnitIdentifier
import ProtoPascal.Wire.Failure
import ProtoPascal.Wire.Reader
import ProtoPascal.Wire.Record
import ProtoPascal.Wire.Shape
import ProtoPascal.Proofs.Naming
import ProtoPascal.Proofs.ClassNames
import ProtoPascal.Proofs.ClassPlan
import ProtoPascal.Proofs.ClassParts
import ProtoPascal.Proofs.MemberNames
import ProtoPascal.Proofs.Execution.Interpreter
import ProtoPascal.Proofs.Execution.ClassCode
import ProtoPascal.Proofs.DescriptorRules
import ProtoPascal.Proofs.AcceptedSchema
import ProtoPascal.Proofs.Failures
import ProtoPascal.Proofs.WellFormedPlan
import ProtoPascal.Proofs.Execution.Instance
import ProtoPascal.Proofs.Execution.Implements
import ProtoPascal.Proofs.Execution.Steps
import ProtoPascal.Proofs.Execution.Bodies
import ProtoPascal.Proofs.Execution.Consistency
import ProtoPascal.Proofs.Execution.Changes
import ProtoPascal.Proofs.Execution.Accessors
import ProtoPascal.Proofs.Execution.Lifecycle
import ProtoPascal.Proofs.Execution.Reachable
import ProtoPascal.Proofs.OneofExclusivity
import ProtoPascal.Proofs.Execution.Encoding
import ProtoPascal.Proofs.Execution.Decoding
import ProtoPascal.Proofs.RoundTrip
import ProtoPascal.Proofs.Execution.Confinement
import ProtoPascal.Proofs.Execution.Accounting
import ProtoPascal.Proofs.Execution.Clearing
import ProtoPascal.Proofs.Execution.Assigning
import ProtoPascal.Proofs.Execution.SelfAssigning
import ProtoPascal.Proofs.Execution.Relocation
import ProtoPascal.Proofs.Execution.Family
import ProtoPascal.Proofs.Assignment
import ProtoPascal.Proofs.Execution.Merging
import ProtoPascal.Proofs.Execution.MergedContents
import ProtoPascal.Proofs.Merge
import ProtoPascal.Proofs.Execution.Handling
import ProtoPascal.Proofs.Execution.Commands
import ProtoPascal.Proofs.Ownership
import ProtoPascal.Proofs.DottedNames
import ProtoPascal.Proofs.Scoping
import ProtoPascal.Proofs.DeclaredTypes
import ProtoPascal.Proofs.TypeReferences
import ProtoPascal.Proofs.IndexAgreement
import ProtoPascal.Proofs.DeclarationOrder
import ProtoPascal.Proofs.OutputPaths
import ProtoPascal.Proofs.UnitCollisions
import ProtoPascal.Proofs.CaseAlignment
import ProtoPascal.Proofs.ImplementedMethods
import ProtoPascal.Proofs.RuleShapes
import ProtoPascal.Proofs.TypeCollisions
import ProtoPascal.Proofs.Mentions
import ProtoPascal.Proofs.PropertyNames
import ProtoPascal.Proofs.ParameterCapture
import ProtoPascal.Proofs.UsedUnits
import ProtoPascal.Proofs.QualifiedTypes
import ProtoPascal.Proofs.PairedRuns
import ProtoPascal.Proofs.RuntimeIndependence
import ProtoPascal.Proofs.SupplyOrder
import ProtoPascal.Proofs.IndexedDeclarations
import ProtoPascal.Proofs.PartialOutput
import ProtoPascal.Proofs.Presence
import ProtoPascal.Proofs.Identifiers
import ProtoPascal.Proofs.LegalNames
import ProtoPascal.Proofs.ScopeHistory
import ProtoPascal.Proofs.StyledForms
import ProtoPascal.Proofs.LayoutLines
import ProtoPascal.Proofs.ReadableBodies
import ProtoPascal.Proofs.ClassSections
import ProtoPascal.Proofs.EnumerationValues
import ProtoPascal.Proofs.ParameterEntries
import ProtoPascal.Proofs.SchemaCounts
import ProtoPascal.Proofs.FieldNumbers
import ProtoPascal.Proofs.SlotArrangement
import ProtoPascal.Proofs.StringLiterals
