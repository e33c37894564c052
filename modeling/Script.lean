import Script.CommandLine
import Script.Console
import Script.Decimal.Shortest
import Script.Double
import Script.Environment
import Script.Evaluation
import Script.Execution
import Script.Failure
import Script.Main
import Script.Native
import Script.Numeral
import Script.Operation
import Script.Operator
import Script.Outline
import Script.Outline.Forms
import Script.Proofs.Grammar
import Script.Proofs.Grammar.Acceptance
import Script.Proofs.Grammar.Completeness
import Script.Proofs.Grammar.Rejection
import Script.Proofs.Grammar.Soundness
import Script.Proofs.Productions
import Script.Proofs.Productions.Statements
import Script.Proofs.Spelling
import Script.Proofs.Spelling.Literals
import Script.Session
import Script.Stock
import Script.Text.Clusters
import Script.Text.Clusters.Joint
import Script.Text.Extending
import Script.Text.Lines
import Script.Text.Quoted
import Script.Text.Ranges
import Script.Text.Unprintable
import Script.Token
import Script.Token.Pieces
import Script.Tree
import Script.Tree.Parsing
import Script.Tree.Printing
import Script.Value
import Script.Word
import Script.Proofs.Words
import Script.Proofs.RoundTrip
import Script.Proofs.Literals
import Script.Proofs.Simulation
import Script.Proofs.Ending
import Script.Proofs.Joining
import Script.Proofs.Plain
import Script.Proofs.Names
import Script.Proofs.Keeping
import Script.Proofs.Changes
import Script.Proofs.Agreement
import Script.Proofs.Lexicon
import Script.Proofs.Lexicon.Division
import Script.Proofs.Renaming
import Script.Proofs.Arities
import Script.Proofs.Lexicon.Lines
import Script.Proofs.Lexicon.Layout
import Script.Proofs.Exact.Expressions
import Script.Proofs.Reading
import Script.Proofs.Interaction
import Script.Proofs.Contexts
import Script.Proofs.Ranks
import Script.Proofs.Rounds
import Script.Proofs.Grammar.Alphabet
import Script.Proofs.LineByLine
import Script.Proofs.Rereading
import Script.Proofs.Doubles
import Script.Proofs.Alternatives
import Script.Proofs.Cursor
import Script.Proofs.Cursor.Progress
import Script.Proofs.Cursor.Readings
import Script.Proofs.Cursor.Readings.Statements
import Script.Proofs.Cursor.Outcomes
import Script.Proofs.Cursor.Results
