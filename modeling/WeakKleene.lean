import WeakKleene.Calculus.Bilateral
import WeakKleene.Calculus.Rule
import WeakKleene.Calculus.Standard
import WeakKleene.CommandLine.Arguments
import WeakKleene.CommandLine.Program
import WeakKleene.CommandLine.Prover
import WeakKleene.Consequence
import WeakKleene.Drawing.Format
import WeakKleene.Drawing.Markup
import WeakKleene.Drawing.Tree
import WeakKleene.Evaluator
import WeakKleene.Evaluator.Consultation
import WeakKleene.Evidence
import WeakKleene.Exchange.Formula
import WeakKleene.Exchange.Tableau
import WeakKleene.Fault
import WeakKleene.Formula.Basic
import WeakKleene.Formula.BilateralForm
import WeakKleene.Formula.Equality
import WeakKleene.Formula.Substitution
import WeakKleene.Formula.Text
import WeakKleene.Grammar.Inference
import WeakKleene.Grammar.Mode
import WeakKleene.Grammar.Plain
import WeakKleene.Grammar.Starred
import WeakKleene.Grammar.Token
import WeakKleene.Interpretation
import WeakKleene.Json.Basic
import WeakKleene.Json.Print
import WeakKleene.Json.Read
import WeakKleene.Json.Token
import WeakKleene.Language.Sentence
import WeakKleene.Language.Singular
import WeakKleene.Main
import WeakKleene.Model
import WeakKleene.Report
import WeakKleene.Shell.Advice
import WeakKleene.Shell.Command
import WeakKleene.Shell.Completion
import WeakKleene.Shell.Dialogue
import WeakKleene.Shell.Files
import WeakKleene.Shell.Folder
import WeakKleene.Shell.Help
import WeakKleene.Shell.Session
import WeakKleene.Shell.Statements
import WeakKleene.Sign
import WeakKleene.Sorted
import WeakKleene.Tableau.Basic
import WeakKleene.Tableau.Construction
import WeakKleene.Tableau.Trace
import WeakKleene.Text.Blank
import WeakKleene.Text.Case
import WeakKleene.Text.CaseIgnorable
import WeakKleene.Text.Digit
import WeakKleene.Text.Printable
import WeakKleene.Text.Quoted
import WeakKleene.Text.Ranges
import WeakKleene.Text.Replace
import WeakKleene.Text.Units
import WeakKleene.Text.Word
import WeakKleene.Theory.Basic
import WeakKleene.Theory.Chaining
import WeakKleene.Theory.Check
import WeakKleene.Theory.File
import WeakKleene.Theory.Report
import WeakKleene.Theory.Statement
import WeakKleene.Truth
import WeakKleene.Proofs.Propositional
import WeakKleene.Proofs.Valuation
import WeakKleene.Proofs.Contents
import WeakKleene.Proofs.Updates
import WeakKleene.Proofs.Expansion
import WeakKleene.Proofs.Reachability
import WeakKleene.Proofs.ChosenRules
import WeakKleene.Proofs.Saturation
import WeakKleene.Proofs.Termination
import WeakKleene.Proofs.Verdict
import WeakKleene.Proofs.Closure
import WeakKleene.Proofs.Completion
import WeakKleene.Proofs.Quantification
import WeakKleene.Proofs.Readability
import WeakKleene.Proofs.Guidance
import WeakKleene.Proofs.Denial
import WeakKleene.Proofs.SidedReading
import WeakKleene.Proofs.SidedVerdict
import WeakKleene.Proofs.Glut
import WeakKleene.Proofs.FlatQuantifiers
import WeakKleene.Proofs.Affirmation
import WeakKleene.Proofs.Monotonicity
import WeakKleene.Proofs.Conversation
import WeakKleene.Proofs.Document
import WeakKleene.Proofs.Chaining
import WeakKleene.Proofs.Numbering
import WeakKleene.Proofs.Persistence
import WeakKleene.Proofs.SessionCommands
import WeakKleene.Proofs.SessionHistory
import WeakKleene.Proofs.Restoration
import WeakKleene.Proofs.Interruption
import WeakKleene.Proofs.Instances
import WeakKleene.Proofs.DeniedAtoms
import WeakKleene.Proofs.Attribution
import WeakKleene.Proofs.Substitution
import WeakKleene.Proofs.SharedRules
import WeakKleene.Proofs.PlainReading
import WeakKleene.Proofs.FreshConstants
import WeakKleene.Proofs.NestedQuantifiers
import WeakKleene.Proofs.InstanceBudget
import WeakKleene.Proofs.QuantifierTermination
import WeakKleene.Proofs.Undefinedness
import WeakKleene.Proofs.Sentences
import WeakKleene.Proofs.Lineage
import WeakKleene.Proofs.BranchRecords
import WeakKleene.Proofs.ClosedBranches
import WeakKleene.Proofs.NodeTree
import WeakKleene.Proofs.TreeDrawing
import WeakKleene.Proofs.Derivations
import WeakKleene.Proofs.PlainGrammar
import WeakKleene.Proofs.Arguments
import WeakKleene.Proofs.Pieces
import WeakKleene.Proofs.ReadPieces
import WeakKleene.Proofs.TextIdentity
import WeakKleene.Proofs.InferenceText
import WeakKleene.Proofs.PushedNegation
import WeakKleene.Proofs.Instantiation
import WeakKleene.Proofs.Origins
import WeakKleene.Proofs.Recording
import WeakKleene.Proofs.SidedDerivations
import WeakKleene.Proofs.FactTexts
import WeakKleene.Proofs.Fixpoint
import WeakKleene.Proofs.InferredStatements
import WeakKleene.Proofs.StarredGrammar
import WeakKleene.Proofs.SidedText
import WeakKleene.Proofs.InferencePieces
import WeakKleene.Proofs.StarDiscipline
import WeakKleene.Proofs.NegationNormalForm
import WeakKleene.Proofs.SettledEvidence
import WeakKleene.Proofs.RememberedAnswers
import WeakKleene.Proofs.InformationStates
import WeakKleene.Proofs.TruthTables
import WeakKleene.Proofs.TopLevelCommas
import WeakKleene.Proofs.Syllogism
