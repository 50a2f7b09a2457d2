import Appraisal.Text.Case
import Appraisal.Text.Class
import Appraisal.Text.Quoted
import Appraisal.Text.Encoding
import Appraisal.Number.Numeral
import Appraisal.Value.Graph
import Appraisal.Value.Reader
import Appraisal.Submission.Token.Scan
import Appraisal.Submission.Basic
import Appraisal.Ruleset.Document
import Appraisal.Rating.Basic
import Appraisal.Appraise
import Appraisal.Session
import Appraisal.Settings.Basic
import Appraisal.Service.Basic
import Appraisal.Proofs.Number.Plain
import Appraisal.Proofs.Submission.Scan
import Appraisal.Proofs.Submission.Layout
import Appraisal.Proofs.Submission.Grammar
import Appraisal.Proofs.Submission.Reading
import Appraisal.Proofs.OrderedMap
import Appraisal.Proofs.Submission.Program
import Appraisal.Proofs.Submission.Place
import Appraisal.Proofs.Submission.Concatenation
import Appraisal.Proofs.Submission.LineBreak
import Appraisal.Proofs.Submission.RoundTrip
import Appraisal.Proofs.Submission.Agreement
import Appraisal.Proofs.Submission.LineRoundTrip
import Appraisal.Proofs.Submission.Fields
import Appraisal.Proofs.Submission.Signs
import Appraisal.Proofs.Decision
import Appraisal.Proofs.Matching
import Appraisal.Proofs.Ruleset.Conditions
import Appraisal.Proofs.Submission.Misfit
import Appraisal.Proofs.Appraise
import Appraisal.Proofs.Ruleset.CompleteForm
import Appraisal.Proofs.Session
import Appraisal.Proofs.Service
import Appraisal.Proofs.Service.Agreement
import Appraisal.Proofs.Service.Files
import Appraisal.Proofs.Vocabulary
import Appraisal.Proofs.Submission.Faults
import Appraisal.Proofs.StatementOrder
import Appraisal.Proofs.Tally
import Appraisal.Proofs.RuleTable
import Appraisal.Proofs.Comparison.Equality
import Appraisal.Proofs.Rating.Derived
import Appraisal.Proofs.Submission.Respelling
import Appraisal.Proofs.Value.Graph
import Appraisal.Proofs.Citation.Chronology
import Appraisal.Proofs.Ruleset.RuleIds
import Appraisal.Proofs.Submission.Caret
import Appraisal.Proofs.Submission.Numerals
