import Calculator.Main
import Calculator.Saved.Catalogue
import Calculator.Saved.Settings
import Calculator.Saved.Variables
import Calculator.Proofs.Grammar.Derivation
import Calculator.Proofs.Grammar.Reading
import Calculator.Proofs.Grammar.Meaning
import Calculator.Proofs.Complex.RealOperands
import Calculator.Proofs.Numeral.Digits
import Calculator.Proofs.Numeral.Layout
import Calculator.Proofs.Numeral.Parse
import Calculator.Proofs.Session.Evaluation
import Calculator.Proofs.Session.Rendering
import Calculator.Proofs.Numeral.Grammar
import Calculator.Proofs.Complex.Working
import Calculator.Proofs.Numeral.Reading
import Calculator.Proofs.Saved.RoundTrip
import Calculator.Proofs.Real.Closure
import Calculator.Proofs.Complex.Computation
import Calculator.Proofs.Text.Letters
import Calculator.Proofs.Token.Names
import Calculator.Proofs.Session.VariableNames
import Calculator.Proofs.Grammar.Substitution
import Calculator.Proofs.Token.Spelling
import Calculator.Proofs.Session.Substitution
import Calculator.Proofs.Measure.Coherence
import Calculator.Proofs.Measure.Factors
import Calculator.Proofs.Complex.Conjugation
import Calculator.Proofs.Text.Case
import Calculator.Proofs.Token.Conservation
import Calculator.Proofs.Token.Case
import Calculator.Proofs.Grammar.Case
import Calculator.Proofs.Numeral.Case
import Calculator.Proofs.Session.Case
import Calculator.Proofs.Session.Display
import Calculator.Proofs.CommandLine.Reports
import Calculator.Proofs.Token.Shape
import Calculator.Proofs.Grammar.Faults
import Calculator.Proofs.Error
import Calculator.Proofs.Session.Faults
import Calculator.Proofs.Complex.Parity
import Calculator.Proofs.Decimal.Decade
import Calculator.Proofs.Precision.Root
import Calculator.Proofs.Precision.RootOfSquare
import Calculator.Proofs.Real.Domain
import Calculator.Proofs.Real.SquareRoot
import Calculator.Proofs.Complex.Modulus
import Calculator.Proofs.Complex.PolarForm
import Calculator.Proofs.Decimal.Integral
import Calculator.Proofs.Precision.Division
import Calculator.Proofs.Real.Integral
import Calculator.Proofs.Precision.Exact
import Calculator.Proofs.Precision.DigitList
import Calculator.Proofs.Real.Shift
import Calculator.Proofs.Real.NativeInteger
import Calculator.Proofs.Real.Factorial
import Calculator.Proofs.Precision.Logic
import Calculator.Proofs.Precision.Power
import Calculator.Proofs.Precision.ExactPower
import Calculator.Proofs.Real.Power
import Calculator.Proofs.Decimal.Series
import Calculator.Proofs.Precision.Side
import Calculator.Proofs.Precision.Transcendental
import Calculator.Proofs.Precision.TranscendentalAccuracy
import Calculator.Proofs.Precision.TranscendentalLaws
import Calculator.Proofs.Precision.PowerCondition
import Calculator.Proofs.Real.PowerDrift
import Calculator.Proofs.Real.PowerSign
import Calculator.Proofs.Real.Extent
import Calculator.Proofs.Real.RoundedTerms
import Calculator.Proofs.Real.AlternatingSum
import Calculator.Proofs.Real.SineCosine
import Calculator.Proofs.Real.PartialSums
import Calculator.Proofs.Real.OddSum
import Calculator.Proofs.Real.InverseTangent
import Calculator.Proofs.Decimal.SeriesLimits
import Calculator.Proofs.Real.LogDrift
import Calculator.Proofs.Real.LogarithmAccuracy
import Calculator.Proofs.Real.ExponentialAccuracy
import Calculator.Proofs.Real.Constants
import Calculator.Proofs.Real.SineCosineAccuracy
import Calculator.Proofs.Real.PowerAccuracy
import Calculator.Proofs.Complex.ModulusAccuracy
import Calculator.Proofs.Complex.PowerOfNegative
import Calculator.Proofs.Real.InverseSine
import Calculator.Proofs.Complex.HyperbolicCotangent
import Calculator.Proofs.Real.RootAccuracy
import Calculator.Proofs.Complex.SquareRoot
import Calculator.Proofs.Complex.InverseHyperbolicSine
import Calculator.Proofs.Measure.Temperature
import Calculator.Proofs.Session.VariableMap
import Calculator.Proofs.Session.Changes
import Calculator.Proofs.Numeral.Style
import Calculator.Proofs.Saved.Restored
import Calculator.Proofs.Session.Frame
import Calculator.Proofs.Token.Spacing
import Calculator.Proofs.Real.SeriesEnd
import Calculator.Proofs.Grammar.Descent
import Calculator.Proofs.Grammar.Answers
import Calculator.Proofs.Grammar.Agreement
import Calculator.Proofs.Grammar.Advance
