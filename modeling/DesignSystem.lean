import DesignSystem.Artifact
import DesignSystem.Assembly
import DesignSystem.Cache.Basic
import DesignSystem.Cache.Key
import DesignSystem.Cache.Recency
import DesignSystem.Cache.Stats
import DesignSystem.Component.Encoding
import DesignSystem.Component.Model
import DesignSystem.Config.Basic
import DesignSystem.Config.Loading
import DesignSystem.Descriptor.Basic
import DesignSystem.Descriptor.Encoding
import DesignSystem.Digest.Blake3
import DesignSystem.Engine
import DesignSystem.Entries
import DesignSystem.Folder
import DesignSystem.Generation.Component
import DesignSystem.Generation.Error
import DesignSystem.Generation.Transformation
import DesignSystem.Generator.Angular
import DesignSystem.Generator.Basic
import DesignSystem.Generator.Call
import DesignSystem.Generator.Compose
import DesignSystem.Generator.Css
import DesignSystem.Generator.Flutter
import DesignSystem.Generator.Platform
import DesignSystem.Generator.React
import DesignSystem.Generator.Svelte
import DesignSystem.Generator.SwiftUI
import DesignSystem.Generator.Tailwind
import DesignSystem.Generator.Vue
import DesignSystem.Json.Basic
import DesignSystem.Json.Draft
import DesignSystem.Json.Lexeme
import DesignSystem.Json.Printer
import DesignSystem.Markup.Element
import DesignSystem.Numeric.Binary64
import DesignSystem.Numeric.Reading
import DesignSystem.Numeric.Shortest
import DesignSystem.Platform
import DesignSystem.Recommendations
import DesignSystem.Registry
import DesignSystem.Schema.Basic
import DesignSystem.Schema.Decoder
import DesignSystem.Schema.Encoding
import DesignSystem.Schema.Validation
import DesignSystem.Script.Props
import DesignSystem.Script.TokenObject
import DesignSystem.Script.Usage
import DesignSystem.Stylesheet.ClassName
import DesignSystem.Stylesheet.Component
import DesignSystem.Stylesheet.CustomProperty
import DesignSystem.Template.Helper
import DesignSystem.Template.Lexeme
import DesignSystem.Template.Library
import DesignSystem.Template.Reader
import DesignSystem.Template.Render
import DesignSystem.Template.Source
import DesignSystem.Template.Tag
import DesignSystem.Template.Tree
import DesignSystem.Text.Basic
import DesignSystem.Text.Case
import DesignSystem.Text.CaseTable
import DesignSystem.Text.Cluster
import DesignSystem.Text.ClusterTable
import DesignSystem.Text.Quoted
import DesignSystem.Text.Words
import DesignSystem.Token.Constant
import DesignSystem.Token.Encoding
import DesignSystem.Token.Kind
import DesignSystem.Token.Resolve
import DesignSystem.Token.Symbol
import DesignSystem.Token.Tree
import DesignSystem.Types.Dart
import DesignSystem.Types.Kotlin
import DesignSystem.Types.Nominal
import DesignSystem.Types.Platform
import DesignSystem.Types.Swift
import DesignSystem.Types.Table
import DesignSystem.Types.TypeScript
import DesignSystem.Yaml.Item
import DesignSystem.Yaml.Node
import DesignSystem.Yaml.Reader
import DesignSystem.Yaml.Shape
import DesignSystem.Yaml.Token
import DesignSystem.Proofs.Artifact
import DesignSystem.Proofs.Cache.Key
import DesignSystem.Proofs.Cache.Counts
import DesignSystem.Proofs.Cache.Eviction
import DesignSystem.Proofs.Cache.Orderly
import DesignSystem.Proofs.Cache.SingleFlight
import DesignSystem.Proofs.Cache.Turns
import DesignSystem.Proofs.Cache.Vacancy
import DesignSystem.Proofs.Engine.Replacement
import DesignSystem.Proofs.Engine.Transparency
import DesignSystem.Proofs.Engine.Run
import DesignSystem.Proofs.Json.Number
import DesignSystem.Proofs.Json.Printer
import DesignSystem.Proofs.Numeric.Shortest
import DesignSystem.Proofs.Schema.Decoder
import DesignSystem.Proofs.Text.Split
import DesignSystem.Proofs.Token.Cycle
import DesignSystem.Proofs.Token.Reference
import DesignSystem.Proofs.Token.Resolution
import DesignSystem.Proofs.Token.Color
import DesignSystem.Proofs.Token.Insertion
import DesignSystem.Proofs.Token.Symbols
import DesignSystem.Proofs.Token.Aliases
import DesignSystem.Proofs.Json.Merged
import DesignSystem.Proofs.Token.RoundTrip
import DesignSystem.Proofs.Token.Acceptance
import DesignSystem.Proofs.Token.Disguise
import DesignSystem.Proofs.Token.FirstError
import DesignSystem.Proofs.Token.Layering
import DesignSystem.Proofs.Cache.Recency
import DesignSystem.Proofs.Cache.OneThread
import DesignSystem.Proofs.Generation.Accounting
import DesignSystem.Proofs.Generation.Manifest
import DesignSystem.Proofs.Generation.Templates
import DesignSystem.Proofs.Generator.Calls
import DesignSystem.Proofs.Generator.Constants
import DesignSystem.Proofs.Generator.Convention
import DesignSystem.Proofs.Generator.DeclarationOrder
import DesignSystem.Proofs.Generator.Paths
import DesignSystem.Proofs.Script.TokenObject
import DesignSystem.Proofs.Text.Plain
import DesignSystem.Proofs.Text.Recasing
import DesignSystem.Proofs.Types.Unmappable
import DesignSystem.Proofs.Types.TypeScript
import DesignSystem.Proofs.Types.Nominal
import DesignSystem.Proofs.Types.Declared
import DesignSystem.Proofs.Types.Rules
import DesignSystem.Proofs.Types.Scope
import DesignSystem.Proofs.Reading.Tree
import DesignSystem.Proofs.Reading.Spelling
import DesignSystem.Proofs.Reading.TypeExpr
import DesignSystem.Proofs.Reading.Names
import DesignSystem.Proofs.Types.TypeScriptReading
import DesignSystem.Proofs.Types.TypeMarks
import DesignSystem.Proofs.Types.NominalReading
import DesignSystem.Proofs.Types.OptionalType
import DesignSystem.Proofs.Reading.Numeral
import DesignSystem.Proofs.Types.LiteralReading
import DesignSystem.Proofs.Types.LiteralType
import DesignSystem.Proofs.Types.LiteralFit
import DesignSystem.Proofs.Reading.Enumeration
import DesignSystem.Proofs.Types.EnumerationCases
import DesignSystem.Proofs.Types.CaseNames
import DesignSystem.Proofs.Types.ImplicitDefault
import DesignSystem.Proofs.Component.Model
import DesignSystem.Proofs.Component.Declarations
import DesignSystem.Proofs.Descriptor.Sample
import DesignSystem.Proofs.Descriptor.Issues
import DesignSystem.Proofs.Text.Camel
import DesignSystem.Proofs.Component.Identifiers
import DesignSystem.Proofs.Component.Names
import DesignSystem.Proofs.Types.LiteralLack
import DesignSystem.Proofs.Component.Defaults
import DesignSystem.Proofs.Token.Identifier
import DesignSystem.Proofs.Generator.ReservedConstants
import DesignSystem.Proofs.Generator.ThemeSections
import DesignSystem.Proofs.Generator.EmittedType
import DesignSystem.Proofs.Text.Quoted
import DesignSystem.Proofs.Text.Recutting
import DesignSystem.Proofs.Component.Styling
import DesignSystem.Proofs.Stylesheet.CompoundSelectors
import DesignSystem.Proofs.Stylesheet.Reading
import DesignSystem.Proofs.Script.StringLiteral
import DesignSystem.Proofs.Stylesheet.ModifierRules
import DesignSystem.Proofs.Generator.ClassScope
import DesignSystem.Proofs.Generator.SplicedTexts
import DesignSystem.Proofs.Markup.Attribute
import DesignSystem.Proofs.Text.Comment
import DesignSystem.Proofs.Generator.Comments
import DesignSystem.Proofs.Reading.Constant
import DesignSystem.Proofs.Types.ConstantLiteral
import DesignSystem.Proofs.Generator.ConstantDefaults
import DesignSystem.Proofs.Types.CallbackType
import DesignSystem.Proofs.Generator.ActivationCall
import DesignSystem.Proofs.Token.Kinds
import DesignSystem.Proofs.Generator.TokenModifiers
import DesignSystem.Proofs.Types.FrameworkTypes
import DesignSystem.Proofs.Generator.ImportLines
import DesignSystem.Proofs.Generator.FrameworkImports
import DesignSystem.Proofs.Numeric.Range
import DesignSystem.Proofs.Numeric.Spelling
import DesignSystem.Proofs.Token.NumericConstants
import DesignSystem.Proofs.Assembly
import DesignSystem.Proofs.Token.LeafPaths
import DesignSystem.Proofs.Types.AlternativeNames
