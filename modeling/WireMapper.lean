import WireMapper.CommandLine.Arguments
import WireMapper.CommandLine.Run
import WireMapper.CommandLine.Settings
import WireMapper.Config
import WireMapper.Error
import WireMapper.Failure
import WireMapper.FieldConversion
import WireMapper.FileTree
import WireMapper.Fragment
import WireMapper.Hierarchy.Cache
import WireMapper.Hierarchy.Chain
import WireMapper.Hierarchy.Error
import WireMapper.Hierarchy.Resolution
import WireMapper.Hierarchy.Resolve
import WireMapper.Java.ClassRegistry
import WireMapper.Java.ClassRegistry.Document
import WireMapper.Java.Expr
import WireMapper.Java.Parser.Basic
import WireMapper.Java.Parser.Declaration
import WireMapper.Java.Parser.Modifiers
import WireMapper.Java.Parser.TypeName
import WireMapper.Java.Parser.Unit
import WireMapper.Java.Token
import WireMapper.Java.Token.Lexer
import WireMapper.Java.Unit
import WireMapper.Java.Visibility
import WireMapper.Json
import WireMapper.Main
import WireMapper.Mapping.Field
import WireMapper.Mapping.Json
import WireMapper.Mapping.Message
import WireMapper.Mapping.Nullability
import WireMapper.Naming
import WireMapper.Path
import WireMapper.Protobuf.Declaration
import WireMapper.Protobuf.Declaration.Decode
import WireMapper.Protobuf.DefaultText
import WireMapper.Protobuf.LinkFault
import WireMapper.Protobuf.Names
import WireMapper.Protobuf.OptionValues
import WireMapper.Protobuf.Outline
import WireMapper.Protobuf.Record
import WireMapper.Protobuf.Rules
import WireMapper.Protobuf.ScalarType
import WireMapper.Protobuf.Shape
import WireMapper.Protobuf.Standard
import WireMapper.Protobuf.Typing
import WireMapper.Protobuf.Wire
import WireMapper.RepeatedContainer
import WireMapper.Report.Basic
import WireMapper.Report.Build
import WireMapper.Schema.Basic
import WireMapper.Schema.FieldModel
import WireMapper.Schema.Link
import WireMapper.Schema.Unfolding
import WireMapper.SourceRoots
import WireMapper.Text.Alphabetic
import WireMapper.Text.GraphemeExtend
import WireMapper.Text.Lines
import WireMapper.Text.Numeric
import WireMapper.Text.Pieces
import WireMapper.Text.Quoted
import WireMapper.Text.Ranges
import WireMapper.Text.Unprintable
import WireMapper.Text.Uppercase
import WireMapper.Text.WhiteSpace
import WireMapper.Toml.Decode
import WireMapper.Toml.Document
import WireMapper.Toml.Expression
import WireMapper.Toml.Expression.Parser
import WireMapper.Toml.Scalar
import WireMapper.Toml.Table
import WireMapper.Toml.Text
import WireMapper.Toml.Value
import WireMapper.TypeModel
import WireMapper.TypeModel.Conversion
import WireMapper.TypeModel.Json
import WireMapper.Unvisited
import WireMapper.Proofs.Hierarchy.Ascent
import WireMapper.Proofs.Hierarchy.Nearest
import WireMapper.Proofs.Path.Spelling
import WireMapper.Proofs.Path.Names
import WireMapper.Proofs.FileTree.Follow
import WireMapper.Proofs.FileTree.NameOrder
import WireMapper.Proofs.Java.Identifier
import WireMapper.Proofs.Java.Parser.Suffix
import WireMapper.Proofs.Java.Parser.Names
import WireMapper.Proofs.Hierarchy.Sources
import WireMapper.Proofs.Hierarchy.Cycle
import WireMapper.Proofs.Java.Print
import WireMapper.Proofs.Java.Print.Lexing
import WireMapper.Proofs.Java.Print.Reading
import WireMapper.Proofs.Java.Print.Parsing
import WireMapper.Proofs.Text.Pieces
import WireMapper.Proofs.Text.Ranges
import WireMapper.Proofs.Java.Evaluation
import WireMapper.Proofs.TypeModel.Conversion
import WireMapper.Proofs.TypeModel.RoundTrip
import WireMapper.Proofs.FieldConversion
import WireMapper.Proofs.Hierarchy.Containment
import WireMapper.Proofs.Hierarchy.Precedence
import WireMapper.Proofs.Hierarchy.Superclass
import WireMapper.Proofs.Hierarchy.ClassLocation
import WireMapper.Proofs.Hierarchy.Cache
import WireMapper.Proofs.Except
import WireMapper.Proofs.FirstFound
import WireMapper.Proofs.Walk
import WireMapper.Proofs.Protobuf.Names
import WireMapper.Proofs.Schema.Declarations
import WireMapper.Proofs.Mapping.Message
import WireMapper.Proofs.Report.Accounts
import WireMapper.Proofs.TypeModel.Reference
import WireMapper.Proofs.Mapping.Outcome
import WireMapper.Proofs.Schema.FieldModel
import WireMapper.Proofs.Schema.Presence
import WireMapper.Proofs.Mapping.Nullability
import WireMapper.Proofs.Mapping.Cache
import WireMapper.Proofs.Mapping.Listed
import WireMapper.Proofs.Report.Build
import WireMapper.Proofs.Report.Classification
import WireMapper.Proofs.Report.Selection
import WireMapper.Proofs.Mapping.Order
import WireMapper.Proofs.Java.Token.Extent
import WireMapper.Proofs.Java.Token.Seam
import WireMapper.Proofs.Java.Token.Inert
import WireMapper.Proofs.Java.Parser.Brackets
import WireMapper.Proofs.Java.Parser.Locality
import WireMapper.Proofs.Java.Parser.MemberEnd
import WireMapper.Proofs.Java.Parser.Body
import WireMapper.Proofs.Java.Parser.Shape
import WireMapper.Proofs.Java.Parser.Site
import WireMapper.Proofs.Java.Parser.Faults
import WireMapper.Proofs.Java.Parser.Blocks
import WireMapper.Proofs.Java.Parser.Declarators
import WireMapper.Proofs.Java.Parser.AfterType
import WireMapper.Proofs.Java.Parser.FieldDeclaration
import WireMapper.Proofs.Java.Parser.Failing
import WireMapper.Proofs.Java.Parser.TypeReference
import WireMapper.Proofs.Java.Parser.Signature
import WireMapper.Proofs.Java.Parser.TypedMember
import WireMapper.Proofs.Java.Parser.RecordHead
import WireMapper.Proofs.Java.Parser.AnnotatedTypes
import WireMapper.Proofs.Schema.Wrappers
import WireMapper.Proofs.TypeModel.Boxing
import WireMapper.Proofs.TypeModel.Hygiene
import WireMapper.Proofs.Java.ClassRegistry.Lookup
import WireMapper.Proofs.Java.ClassRegistry.Ancestry
import WireMapper.Proofs.Java.ClassRegistry.Loading
import WireMapper.Proofs.Hierarchy.LibraryFallback
import WireMapper.Proofs.Fragment
import WireMapper.Proofs.FieldConversion.Form
import WireMapper.Proofs.Path.Directory
import WireMapper.Proofs.Config.Validation
import WireMapper.Proofs.Config.Roots
import WireMapper.Proofs.Java.Parser.Place
import WireMapper.Proofs.Java.Parser.ComponentList
import WireMapper.Proofs.Java.Parser.WellFormed
import WireMapper.Proofs.Schema.AccessorNames
