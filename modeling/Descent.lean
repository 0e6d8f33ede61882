import Descent.Calculator
import Descent.Grammar.Display
import Descent.Grammar.Session
import Descent.Main
import Descent.Parser.Ownership
import Descent.Proofs.Anchoring
import Descent.Proofs.Boundary
import Descent.Proofs.Calculator
import Descent.Proofs.Caseless
import Descent.Proofs.Distribution
import Descent.Proofs.Factoring
import Descent.Proofs.Fixpoint
import Descent.Proofs.Following
import Descent.Proofs.Keyword
import Descent.Proofs.LineByLine
import Descent.Proofs.Longest
import Descent.Proofs.Materializing
import Descent.Proofs.MonadLaws
import Descent.Proofs.Negation
import Descent.Proofs.Nesting
import Descent.Proofs.Numerals
import Descent.Proofs.Overriding
import Descent.Proofs.Owning
import Descent.Proofs.Parentheses
import Descent.Proofs.Prefix
import Descent.Proofs.Progress
import Descent.Proofs.Radix
import Descent.Proofs.Repetition
import Descent.Proofs.Reporting
import Descent.Proofs.Rounds
import Descent.Proofs.Running
import Descent.Proofs.Safety
import Descent.Proofs.Sequencing
import Descent.Proofs.Skipping
import Descent.Proofs.Spelling
import Descent.Proofs.Termination
import Descent.Proofs.Unskipped
import Descent.Proofs.Writing
