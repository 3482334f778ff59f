import NaturalDeduction.Exercise
import NaturalDeduction.Formula.Grammar
import NaturalDeduction.Formula.Outline
import NaturalDeduction.Formula.Parser
import NaturalDeduction.Formula.ScanStep
import NaturalDeduction.Json.Formula
import NaturalDeduction.Json.Proof
import NaturalDeduction.Json.Reader
import NaturalDeduction.Proof.Applicability
import NaturalDeduction.Proof.Listing
import NaturalDeduction.Proof.Run
import NaturalDeduction.Proofs.Proof.Soundness
import NaturalDeduction.TruthTable
import NaturalDeduction.Proofs.Formula.Operand
import NaturalDeduction.Proofs.Proof.Conclusions
import NaturalDeduction.Proofs.TruthTable.Rows
import NaturalDeduction.Proofs.TruthTable.Decision
import NaturalDeduction.Proofs.Formula.Place
import NaturalDeduction.Proofs.Proof.Citations
import NaturalDeduction.Proofs.Proof.Changes
import NaturalDeduction.Proofs.Proof.LineOrder
import NaturalDeduction.Proofs.Proof.Numbering
import NaturalDeduction.Proofs.Proof.Attempts
import NaturalDeduction.Proofs.Formula.ErrorPlace
import NaturalDeduction.Proofs.Formula.Parentheses
import NaturalDeduction.Proofs.Proof.Introductions
import NaturalDeduction.Proofs.Token.MaximalMunch
import NaturalDeduction.Proofs.Json.Text
import NaturalDeduction.Proofs.Json.RoundTrip
import NaturalDeduction.Proofs.Formula.Comparison
import NaturalDeduction.Proofs.Proof.Matching
import NaturalDeduction.Proofs.Proof.Eliminations
import NaturalDeduction.Proofs.Proof.LineBounds
import NaturalDeduction.Proofs.Proof.Detachment
import NaturalDeduction.Proofs.Proof.ExcludedMiddle
import NaturalDeduction.Proofs.Proof.Undo
import NaturalDeduction.Proofs.Proof.OpenAssumption
import NaturalDeduction.Proofs.Token.LongestPrefix
import NaturalDeduction.Proofs.Formula.Respacing
import NaturalDeduction.Proofs.Formula.UniqueReading
import NaturalDeduction.Proofs.Formula.Commands
import NaturalDeduction.Proofs.Formula.Outline
import NaturalDeduction.Proofs.Formula.ScanStep
import NaturalDeduction.Proofs.Formula.TextScan
import NaturalDeduction.Proofs.Text.LineNumber
