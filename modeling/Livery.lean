import Livery.Calc.Evaluate
import Livery.Calc.Token
import Livery.Cascade.Engine
import Livery.Cascade.Host
import Livery.Cascade.Match
import Livery.Cascade.Orientation
import Livery.Cascade.Query
import Livery.Command.Arguments
import Livery.Command.Options
import Livery.Command.Run
import Livery.Command.Show
import Livery.Decimal.Layout
import Livery.Decimal.Reading
import Livery.Decimal.Scaled
import Livery.Decimal.Shortest
import Livery.Disk.Basic
import Livery.Disk.Folder
import Livery.Extract.Appearance
import Livery.Extract.Background
import Livery.Extract.Border
import Livery.Extract.Box
import Livery.Extract.Environment
import Livery.Extract.Font
import Livery.Extract.Geometry
import Livery.Json.Profile
import Livery.Json.Reading
import Livery.Json.Value
import Livery.Layers.Concern
import Livery.Layers.Layer
import Livery.Layers.Loader
import Livery.Layers.Pool
import Livery.Layers.View
import Livery.Location
import Livery.Main
import Livery.Named
import Livery.Paint.Brush
import Livery.Paint.Color
import Livery.Paint.ColorNames
import Livery.Paint.ColorValue
import Livery.Parse.Cursor
import Livery.Parse.Declaration
import Livery.Parse.Nesting
import Livery.Parse.Rule
import Livery.Parse.Selector
import Livery.Parse.Sheet
import Livery.Parse.Term
import Livery.Proofs.Calc.Asked
import Livery.Proofs.Calc.Contraction
import Livery.Proofs.Calc.Grammar
import Livery.Proofs.Calc.Reading
import Livery.Proofs.Calc.Value
import Livery.Proofs.Cascade.Ancestry
import Livery.Proofs.Cascade.Buckets
import Livery.Proofs.Cascade.Combinators
import Livery.Proofs.Cascade.Gates
import Livery.Proofs.Cascade.History
import Livery.Proofs.Cascade.Hooks
import Livery.Proofs.Cascade.Inline
import Livery.Proofs.Cascade.Lookup
import Livery.Proofs.Cascade.Media
import Livery.Proofs.Cascade.Memo
import Livery.Proofs.Cascade.Registry
import Livery.Proofs.Cascade.Restyling
import Livery.Proofs.Cascade.Still
import Livery.Proofs.Cascade.Unbounded
import Livery.Proofs.Comments.Rows
import Livery.Proofs.Comments.Selectors
import Livery.Proofs.Comments.Sheets
import Livery.Proofs.Comments.Values
import Livery.Proofs.Extract.BackgroundParts
import Livery.Proofs.Extract.ColorVariables
import Livery.Proofs.Extract.Frames
import Livery.Proofs.Extract.Longhands
import Livery.Proofs.Extract.Variables
import Livery.Proofs.Layers.Calls
import Livery.Proofs.Layers.Concerns
import Livery.Proofs.Layers.Definitions
import Livery.Proofs.Layers.Handles
import Livery.Proofs.Layers.Order
import Livery.Proofs.Layers.Sharing
import Livery.Proofs.Location.Walks
import Livery.Proofs.Parse.Blanks
import Livery.Proofs.Parse.Blocks
import Livery.Proofs.Parse.Braces
import Livery.Proofs.Parse.Concatenation
import Livery.Proofs.Parse.Consumption
import Livery.Proofs.Parse.ErrorPlace
import Livery.Proofs.Parse.FaultPlaces
import Livery.Proofs.Parse.Filing
import Livery.Proofs.Parse.Groups
import Livery.Proofs.Parse.Lookahead
import Livery.Proofs.Parse.Loops
import Livery.Proofs.Parse.Positions
import Livery.Proofs.Parse.QualifierReading
import Livery.Proofs.Parse.Readers
import Livery.Proofs.Parse.Recovery
import Livery.Proofs.Parse.RuleRecovery
import Livery.Proofs.Parse.Screen
import Livery.Proofs.Parse.Segments
import Livery.Proofs.Parse.SelectorGrammar
import Livery.Proofs.Parse.SelectorReading
import Livery.Proofs.Parse.Signs
import Livery.Proofs.Parse.WellFormed
import Livery.Proofs.Symbol.Append
import Livery.Proofs.Symbol.Escapes
import Livery.Proofs.Symbol.Front
import Livery.Proofs.Symbol.LongestMatch
import Livery.Proofs.Symbol.Names
import Livery.Proofs.Symbol.Patterns
import Livery.Proofs.Symbol.Spacing
import Livery.Proofs.Symbol.Strings
import Livery.Proofs.Tree.Cycles
import Livery.Proofs.Tree.History
import Livery.Proofs.Tree.Links
import Livery.Proofs.Vocabulary.Lookup
import Livery.Proofs.Vocabulary.PseudoClass
import Livery.Report.Datum
import Livery.Report.Extract
import Livery.Report.Sheet
import Livery.Report.Values
import Livery.Report.Warnings
import Livery.Style.Alignment
import Livery.Style.Declaration
import Livery.Style.Geometry
import Livery.Style.Length
import Livery.Style.Readings
import Livery.Style.Rule
import Livery.Style.Selector
import Livery.Style.Sheet
import Livery.Style.Value
import Livery.Symbol.Basic
import Livery.Symbol.Escape
import Livery.Symbol.Lexer
import Livery.Text.Blank
import Livery.Text.Folded
import Livery.Text.Invisible
import Livery.Text.Quoted
import Livery.Text.Wording
import Livery.Tree.Basic
import Livery.Tree.Widget
import Livery.Vocabulary.Keyword
import Livery.Vocabulary.Mode
import Livery.Vocabulary.Property
import Livery.Vocabulary.PseudoClass
import Livery.Vocabulary.Table
import Livery.Proofs.Parse.Levels
import Livery.Proofs.Text.Bytes
import Livery.Proofs.Vocabulary.Tables
