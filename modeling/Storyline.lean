import Storyline.Script.Session
import Storyline.Script.Validators
import Storyline.Json.Reader
import Storyline.Proofs.Reasons
import Storyline.Proofs.Simulation
import Storyline.Proofs.Validated
import Storyline.Proofs.Layout
import Storyline.Proofs.Announced
import Storyline.Proofs.Repetition
import Storyline.Proofs.Coverage
import Storyline.Proofs.Enclosing
import Storyline.Proofs.Sharing
import Storyline.Proofs.EntryPoints
import Storyline.Proofs.Injection
import Storyline.Proofs.ArgumentOrder
import Storyline.Proofs.Chronicle
import Storyline.Proofs.Nesting
import Storyline.Proofs.Recursion
import Storyline.Proofs.Observed
import Storyline.Proofs.Groups
import Storyline.Proofs.Joins
import Storyline.Proofs.Merging
import Storyline.Proofs.Verdicts
import Storyline.Proofs.Rows
import Storyline.Proofs.OneByOne
import Storyline.Proofs.Additions
import Storyline.Proofs.Declarations
import Storyline.Proofs.Coercion
import Storyline.Proofs.Positions
import Storyline.Proofs.Numerals
import Storyline.Proofs.Representation
import Storyline.Proofs.Synchronised
import Storyline.Proofs.Counters
import Storyline.Proofs.Answers
