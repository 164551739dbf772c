import Narrative.Content.Shelf
import Narrative.Host
import Narrative.Main
import Narrative.Proofs.Chapter.Rule
import Narrative.Proofs.Condition.Gain
import Narrative.Proofs.Condition.Repair
import Narrative.Proofs.Condition.Spelling
import Narrative.Proofs.Effect.Outcome
import Narrative.Proofs.Expr.Printing
import Narrative.Proofs.Expr.Tokens
import Narrative.Proofs.Lint.Coverage
import Narrative.Proofs.Magic.Cast
import Narrative.Proofs.Magic.Power
import Narrative.Proofs.Magic.Reaction
import Narrative.Proofs.Menu
import Narrative.Proofs.Player.Flat
import Narrative.Proofs.Player.Inventory
import Narrative.Proofs.Session.Armed
import Narrative.Proofs.Session.Casting
import Narrative.Proofs.Session.Firing
import Narrative.Proofs.Session.Listening
import Narrative.Proofs.Session.Offer
import Narrative.Proofs.Session.Orderly
import Narrative.Proofs.Session.Patience
import Narrative.Proofs.Session.Pinning
import Narrative.Proofs.Session.Presentation
import Narrative.Proofs.Session.Rejection
import Narrative.Proofs.Session.Reporting
import Narrative.Proofs.Session.Restart
import Narrative.Proofs.Session.Timing
import Narrative.Proofs.Session.Undo
import Narrative.Proofs.Timers.Delivery
import Narrative.Proofs.Timers.Slicing
import Narrative.Session.Call
