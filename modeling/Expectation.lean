import Expectation.Pattern.Validity
import Expectation.Document.BasicConsole
import Expectation.Script.Meaning
import Expectation.Classifier.Standard
import Expectation.Public
import Expectation.Proofs.Session.Locality
import Expectation.Proofs.Document.Rows
import Expectation.Proofs.Message.Standard
import Expectation.Proofs.Session.Finalization
import Expectation.Proofs.Session.Composition
import Expectation.Proofs.Engine.Circularity
import Expectation.Proofs.Assertion.Registry
import Expectation.Proofs.Engine.History
import Expectation.Proofs.Session.Dispatch
import Expectation.Proofs.Pattern.Expansion
import Expectation.Proofs.Pattern.Acceptance
import Expectation.Proofs.Pattern.Markup
import Expectation.Proofs.Pattern.Rewriting
import Expectation.Proofs.Session.Naming
import Expectation.Proofs.Assertion.Addition
import Expectation.Proofs.Value.Form
import Expectation.Proofs.Engine.Refusal
import Expectation.Proofs.Session.Registration
import Expectation.Proofs.Engine.Evolution
import Expectation.Proofs.Session.Types
import Expectation.Proofs.Engine.Watch
import Expectation.Proofs.Engine.Structural
import Expectation.Proofs.Engine.Nesting
import Expectation.Proofs.Engine.Symmetry
import Expectation.Proofs.Classifier.Symmetry
import Expectation.Proofs.Session.Outermost
import Expectation.Proofs.Session.Values
import Expectation.Proofs.Session.Rendering
import Expectation.Proofs.Session.Unknown
import Expectation.Proofs.Engine.Listing
import Expectation.Proofs.Session.Formats
import Expectation.Proofs.Engine.Truncation
import Expectation.Proofs.Text.EditDistance
import Expectation.Proofs.Assertion.Ranking
import Expectation.Proofs.Engine.Commutation
import Expectation.Proofs.Engine.Cloning
import Expectation.Proofs.Session.Cloning
import Expectation.Proofs.Document.Alignment
import Expectation.Proofs.Pattern.Presence
import Expectation.Proofs.Message.Substitution
import Expectation.Proofs.Message.Layout
import Expectation.Proofs.Pattern.Stability
import Expectation.Proofs.Pattern.Emptiness
import Expectation.Proofs.Engine.Inheritance
import Expectation.Proofs.Document.Desk
import Expectation.Proofs.Document.Rendering
