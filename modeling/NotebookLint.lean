import NotebookLint.Command.Arguments
import NotebookLint.Command.Check
import NotebookLint.Command.Search
import NotebookLint.Config
import NotebookLint.Definitions.Scope
import NotebookLint.Diagnostic
import NotebookLint.Editor
import NotebookLint.Engine.Known
import NotebookLint.Engine.Lint
import NotebookLint.Engine.Order
import NotebookLint.File.Path
import NotebookLint.File.Tree
import NotebookLint.File.Utf8
import NotebookLint.Imports.Binding
import NotebookLint.Json.Printer
import NotebookLint.Json.Reader
import NotebookLint.Json.Value
import NotebookLint.Lexical.Glyph
import NotebookLint.Lexical.Lines
import NotebookLint.Lexical.Words
import NotebookLint.Limits
import NotebookLint.Log
import NotebookLint.Main
import NotebookLint.Names.Binding
import NotebookLint.Names.Reserved
import NotebookLint.Names.Signature
import NotebookLint.Names.Target
import NotebookLint.Names.Usage
import NotebookLint.Notebook.Document
import NotebookLint.Notebook.Load
import NotebookLint.Notebook.Percent
import NotebookLint.Proofs.AlikeCells
import NotebookLint.Proofs.AlikeLines
import NotebookLint.Proofs.AssignmentTargets
import NotebookLint.Proofs.BindingSpacing
import NotebookLint.Proofs.BlockReturns
import NotebookLint.Proofs.BlockStructure
import NotebookLint.Proofs.BracketDepth
import NotebookLint.Proofs.BracketPairs
import NotebookLint.Proofs.CellInsertion
import NotebookLint.Proofs.CellJoining
import NotebookLint.Proofs.CellOrder
import NotebookLint.Proofs.CellReports
import NotebookLint.Proofs.CellSuppression
import NotebookLint.Proofs.CheckRuns
import NotebookLint.Proofs.CommaLists
import NotebookLint.Proofs.CommentIndependence
import NotebookLint.Proofs.CommentRewriting
import NotebookLint.Proofs.DefinitionScopes
import NotebookLint.Proofs.EditorLines
import NotebookLint.Proofs.Fallible
import NotebookLint.Proofs.FileSearch
import NotebookLint.Proofs.FindingPlaces
import NotebookLint.Proofs.FormattedLiterals
import NotebookLint.Proofs.FunctionHeaders
import NotebookLint.Proofs.FunctionSpacing
import NotebookLint.Proofs.ImportLayouts
import NotebookLint.Proofs.ImportLists
import NotebookLint.Proofs.ImportUses
import NotebookLint.Proofs.KeywordSpellings
import NotebookLint.Proofs.LexemeViews
import NotebookLint.Proofs.Lexemes
import NotebookLint.Proofs.LineAssignments
import NotebookLint.Proofs.LineSuppression
import NotebookLint.Proofs.LiteralIndependence
import NotebookLint.Proofs.LiteralRewriting
import NotebookLint.Proofs.NotebookRun
import NotebookLint.Proofs.OffsetTranslation
import NotebookLint.Proofs.Paths
import NotebookLint.Proofs.PercentChunks
import NotebookLint.Proofs.ReportForms
import NotebookLint.Proofs.ReportPlaces
import NotebookLint.Proofs.RuleIsolation
import NotebookLint.Proofs.Scan
import NotebookLint.Proofs.ScanModes
import NotebookLint.Proofs.ScanRestart
import NotebookLint.Proofs.ScanShape
import NotebookLint.Proofs.ScannerAgreement
import NotebookLint.Proofs.SignatureSpacing
import NotebookLint.Proofs.Sorting
import NotebookLint.Proofs.Spacing
import NotebookLint.Proofs.StatementSpacing
import NotebookLint.Proofs.SuppressionMarkers
import NotebookLint.Proofs.TabWidths
import NotebookLint.Proofs.Tallies
import NotebookLint.Proofs.TextLines
import NotebookLint.Proofs.Words
import NotebookLint.Report
import NotebookLint.Rule
import NotebookLint.Rules.Builtin
import NotebookLint.Rules.CapitalizationTypos
import NotebookLint.Rules.DuplicateFunctions
import NotebookLint.Rules.EmptyCells
import NotebookLint.Rules.ImportIssues
import NotebookLint.Rules.IndentationErrors
import NotebookLint.Rules.MissingReturn
import NotebookLint.Rules.RedefinedVariables
import NotebookLint.Rules.UnclosedBrackets
import NotebookLint.Rules.UndefinedVariables
import NotebookLint.Sorting
import NotebookLint.Suppression
import NotebookLint.Text.Basic
import NotebookLint.Text.Blank
import NotebookLint.Text.Control
import NotebookLint.Text.Lowercase
import NotebookLint.Text.Printable
import NotebookLint.Text.Quoted
import NotebookLint.Text.Ranges
import NotebookLint.Text.Word
import NotebookLint.Toml.Reader
import NotebookLint.Toml.Scalar
import NotebookLint.Toml.Value
import NotebookLint.Proofs.ParameterTexts
import NotebookLint.Proofs.ParameterLists
import NotebookLint.Proofs.SearchRoots
import NotebookLint.Proofs.ReplacementFields
import NotebookLint.Proofs.ConfigDocuments
import NotebookLint.Proofs.ConfigLoading
import NotebookLint.Proofs.Utf8Decoding
