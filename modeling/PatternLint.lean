import PatternLint.Text.Blank
import PatternLint.Text.Case
import PatternLint.Text.Search
import PatternLint.Text.Numeral
import PatternLint.Decimal.Notation
import PatternLint.Fault
import PatternLint.Value.Equal
import PatternLint.Reader.Escape
import PatternLint.Reader.Position
import PatternLint.Pattern.SkipSet
import PatternLint.Pattern.Build
import PatternLint.Rx.Write
import PatternLint.Primitive.Number
import PatternLint.Primitive.Sequence
import PatternLint.Primitive.Format
import PatternLint.Primitive.Table
import PatternLint.Evaluation.Frame
import PatternLint.Evaluation.LambdaList
import PatternLint.Evaluation.Apply
import PatternLint.Evaluation.SpecialForm
import PatternLint.Evaluation.Structure
import PatternLint.Report.Suppression
import PatternLint.Analysis.Naming
import PatternLint.Analysis.Collect
import PatternLint.Analysis.Splice
import PatternLint.Analysis.Analyzer
import PatternLint.Main
import PatternLint.Proofs.CallerFrames
import PatternLint.Proofs.KnownResults
import PatternLint.Proofs.Isolation
import PatternLint.Proofs.Repeatability
import PatternLint.Proofs.CarefulRuns
import PatternLint.Proofs.KnownStructure
import PatternLint.Proofs.PositionRecovery
import PatternLint.Proofs.ReadBack
import PatternLint.Proofs.ReadingFaults
import PatternLint.Proofs.EvaluationFaults
import PatternLint.Proofs.WalkedVariables
import PatternLint.Proofs.Canonical
import PatternLint.Proofs.Termination
import PatternLint.Proofs.StrictWalk
import PatternLint.Proofs.SetDenotation
import PatternLint.Proofs.Skipping
import PatternLint.Proofs.RegexpTokens
import PatternLint.Proofs.RepetitionMarks
import PatternLint.Proofs.RegexpPhrases
import PatternLint.Proofs.SetIssues
import PatternLint.Proofs.WrittenSets
import PatternLint.Proofs.MergedIntervals
import PatternLint.Proofs.CodeSets
import PatternLint.Proofs.WrittenAlternatives
import PatternLint.Proofs.RegexpMatching
import PatternLint.Proofs.AlternativesDenoted
import PatternLint.Proofs.PlainSets
import PatternLint.Proofs.WrittenPhrases
import PatternLint.Proofs.TruthfulPrecedence
import PatternLint.Proofs.LineAnchors
import PatternLint.Proofs.CleanRegexps
import PatternLint.Proofs.BackedVariables
import PatternLint.Proofs.LazyVariables
import PatternLint.Proofs.JoinedReading
import PatternLint.Proofs.CodePositions
import PatternLint.Proofs.FixedVariables
import PatternLint.Proofs.Provenance
import PatternLint.Proofs.Splices
import PatternLint.Proofs.SequenceBounds
import PatternLint.Proofs.ReportedPlaces
import PatternLint.Proofs.LiteralPlaces
import PatternLint.Proofs.TokenPlaces
import PatternLint.Proofs.ReadingRounds
import PatternLint.Proofs.DatumPlaces
import PatternLint.Proofs.DottedPlaces
import PatternLint.Proofs.OverlapIssues
import PatternLint.Proofs.CaretTokens
import PatternLint.Proofs.IntegerDivision
import PatternLint.Proofs.NumberSequences
import PatternLint.Proofs.StructuralEquality
import PatternLint.Proofs.StrictRuns
import PatternLint.Proofs.CallForms
import PatternLint.Proofs.StructuralRuns
import PatternLint.Proofs.TemplateConstruction
import PatternLint.Proofs.NestedBindings
import PatternLint.Proofs.NestedSequences
import PatternLint.Proofs.SuppressingComments
import PatternLint.Proofs.NumberRoundTrips
import PatternLint.Proofs.RegexpParameters
import PatternLint.Proofs.ParameterBindings
import PatternLint.Proofs.SharedFrames
