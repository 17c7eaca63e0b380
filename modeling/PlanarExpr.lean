import PlanarExpr.Document.Library
import PlanarExpr.Main
import PlanarExpr.Diagnostic.Collection
import PlanarExpr.Expression.Dump
import PlanarExpr.Resolution
import PlanarExpr.Settings.Cache
import PlanarExpr.Proofs.Writing
import PlanarExpr.Proofs.ReaderSoundness
import PlanarExpr.Proofs.ReaderCompleteness
import PlanarExpr.Proofs.Reading
import PlanarExpr.Proofs.Lexeme
import PlanarExpr.Proofs.Splitting
import PlanarExpr.Proofs.Correspondence
import PlanarExpr.Proofs.EvaluationFaults
import PlanarExpr.Proofs.HostAgreement
import PlanarExpr.Proofs.OnDemand
import PlanarExpr.Proofs.ResolutionDepth
import PlanarExpr.Proofs.Mentions
import PlanarExpr.Proofs.Questions
import PlanarExpr.Proofs.CutExcerpts
import PlanarExpr.Proofs.ResolutionOnDemand
import PlanarExpr.Proofs.Tiling
import PlanarExpr.Proofs.DefinitionLookups
import PlanarExpr.Proofs.Arithmetic
import PlanarExpr.Proofs.SettledResults
import PlanarExpr.Proofs.CleanTexts
import PlanarExpr.Proofs.Likeness
import PlanarExpr.Proofs.InlinedTexts
import PlanarExpr.Proofs.HostlessEvaluation
import PlanarExpr.Proofs.Inlining
import PlanarExpr.Proofs.ReaderShapes
import PlanarExpr.Proofs.Lookahead
import PlanarExpr.Proofs.Completions
import PlanarExpr.Proofs.EarliestFault
import PlanarExpr.Proofs.Cancellation
import PlanarExpr.Proofs.Respanning
import PlanarExpr.Proofs.NodeTokens
import PlanarExpr.Proofs.NodeSpans
import PlanarExpr.Proofs.CutTexts
import PlanarExpr.Proofs.ExactSpans
import PlanarExpr.Proofs.MovedReadings
import PlanarExpr.Proofs.SameWording
import PlanarExpr.Proofs.Layout
import PlanarExpr.Proofs.Silence
import PlanarExpr.Proofs.LongestLexemes
import PlanarExpr.Proofs.TextCoverage
import PlanarExpr.Proofs.GroupedNames
import PlanarExpr.Proofs.JsonGrammar
import PlanarExpr.Proofs.WrittenNumbers
import PlanarExpr.Proofs.WrittenJson
import PlanarExpr.Proofs.JsonOutput
import PlanarExpr.Proofs.NameUses
import PlanarExpr.Proofs.WaitingNames
import PlanarExpr.Proofs.AskedRanges
import PlanarExpr.Proofs.DottedNames
import PlanarExpr.Proofs.Strictness
import PlanarExpr.Proofs.NestingLevels
import PlanarExpr.Proofs.NestingLimit
import PlanarExpr.Proofs.NestingCounter
import PlanarExpr.Proofs.TreeHeight
import PlanarExpr.Proofs.DisplayedLines
import PlanarExpr.Proofs.CaretLines
import PlanarExpr.Proofs.SameOutcomes
import PlanarExpr.Proofs.Exchange
import PlanarExpr.Proofs.EnclosedTexts
import PlanarExpr.Proofs.RedundantParentheses
import PlanarExpr.Proofs.PositionInverse
import PlanarExpr.Proofs.PlacePositions
import PlanarExpr.Proofs.ErrorLimit
import PlanarExpr.Proofs.AssignmentScan
import PlanarExpr.Proofs.NotedNames
import PlanarExpr.Proofs.DumpShapes
import PlanarExpr.Proofs.ReferenceLookups
