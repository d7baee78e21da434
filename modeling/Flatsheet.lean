import Flatsheet.Comment
import Flatsheet.Conversion.Context
import Flatsheet.Conversion.Pipeline
import Flatsheet.Data.Basic
import Flatsheet.Data.Json
import Flatsheet.Data.View
import Flatsheet.Decimal.Nearest
import Flatsheet.Decimal.Shortest
import Flatsheet.Decimal.Written
import Flatsheet.Declaration
import Flatsheet.Demo
import Flatsheet.Diagnostic
import Flatsheet.Example
import Flatsheet.Fault
import Flatsheet.Main
import Flatsheet.Mixin.Basic
import Flatsheet.Mixin.Binding
import Flatsheet.Mixin.Definition
import Flatsheet.Mixin.Include
import Flatsheet.Options
import Flatsheet.OptionsFile
import Flatsheet.Plugin
import Flatsheet.Proofs.Balance
import Flatsheet.Proofs.BalancedMacros
import Flatsheet.Proofs.Binding
import Flatsheet.Proofs.BlockEnds
import Flatsheet.Proofs.Canonical
import Flatsheet.Proofs.ClaimedImports
import Flatsheet.Proofs.CommentDepth
import Flatsheet.Proofs.Expansion
import Flatsheet.Proofs.FinishedIncludes
import Flatsheet.Proofs.FlatCss
import Flatsheet.Proofs.Forwarding
import Flatsheet.Proofs.FunctionCalls
import Flatsheet.Proofs.Headings
import Flatsheet.Proofs.ImportNesting
import Flatsheet.Proofs.Imports
import Flatsheet.Proofs.Intact
import Flatsheet.Proofs.IntactMixins
import Flatsheet.Proofs.IntactPasses
import Flatsheet.Proofs.IntactSheet
import Flatsheet.Proofs.Integrity
import Flatsheet.Proofs.ItemLists
import Flatsheet.Proofs.Items
import Flatsheet.Proofs.JsonTexts
import Flatsheet.Proofs.Match
import Flatsheet.Proofs.MediaBlocks
import Flatsheet.Proofs.MediaPromotion
import Flatsheet.Proofs.MissingSemicolons
import Flatsheet.Proofs.NestedProperties
import Flatsheet.Proofs.Noninterference
import Flatsheet.Proofs.NoticeLines
import Flatsheet.Proofs.Paths
import Flatsheet.Proofs.Placeholder
import Flatsheet.Proofs.PrintedTokens
import Flatsheet.Proofs.QuotedRuns
import Flatsheet.Proofs.Reading
import Flatsheet.Proofs.Recasting
import Flatsheet.Proofs.Recursion
import Flatsheet.Proofs.Registration
import Flatsheet.Proofs.Replacement
import Flatsheet.Proofs.Reprotection
import Flatsheet.Proofs.Requests
import Flatsheet.Proofs.Resubstitution
import Flatsheet.Proofs.RootSelector
import Flatsheet.Proofs.RuleDocuments
import Flatsheet.Proofs.RuleLines
import Flatsheet.Proofs.RuleTree
import Flatsheet.Proofs.Runs
import Flatsheet.Proofs.SelectorLists
import Flatsheet.Proofs.Selectors
import Flatsheet.Proofs.SelfImport
import Flatsheet.Proofs.Separators
import Flatsheet.Proofs.Snapshots
import Flatsheet.Proofs.Substitution
import Flatsheet.Proofs.Table
import Flatsheet.Proofs.Tokens
import Flatsheet.Proofs.UnmarkedPasses
import Flatsheet.Proofs.VariableNames
import Flatsheet.Proofs.Variables
import Flatsheet.Proofs.Vault
import Flatsheet.Proofs.Words
import Flatsheet.Proofs.WrapperMixins
import Flatsheet.Resource.Cache
import Flatsheet.Resource.FileTree
import Flatsheet.Resource.Import
import Flatsheet.Resource.Library
import Flatsheet.Resource.Path
import Flatsheet.Sheet.Css
import Flatsheet.Sheet.Item
import Flatsheet.Sheet.Record
import Flatsheet.Sheet.Rule
import Flatsheet.Sheet.Selector
import Flatsheet.Sheet.Token
import Flatsheet.Snapshot
import Flatsheet.Table
import Flatsheet.Text.Basic
import Flatsheet.Text.Blank
import Flatsheet.Text.Block
import Flatsheet.Text.CodeRange
import Flatsheet.Text.Digit
import Flatsheet.Text.Displayed
import Flatsheet.Text.Listing
import Flatsheet.Text.Lower
import Flatsheet.Text.Order
import Flatsheet.Text.Pattern
import Flatsheet.Text.Printable
import Flatsheet.Text.Word
import Flatsheet.Variable
import Flatsheet.Vault
import Flatsheet.Yaml.Binary
import Flatsheet.Yaml.BlockText
import Flatsheet.Yaml.Character
import Flatsheet.Yaml.Content
import Flatsheet.Yaml.Cursor
import Flatsheet.Yaml.Document
import Flatsheet.Yaml.Error
import Flatsheet.Yaml.Node
import Flatsheet.Yaml.Number
import Flatsheet.Yaml.PlainText
import Flatsheet.Yaml.Property
import Flatsheet.Yaml.QuotedText
import Flatsheet.Yaml.Reading
import Flatsheet.Yaml.Scalar
import Flatsheet.Yaml.Timestamp
import Flatsheet.Yaml.Token
import Flatsheet.Yaml.Value
import Flatsheet.Yaml.View
import Flatsheet.Yaml.Writer
