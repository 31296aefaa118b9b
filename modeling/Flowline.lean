import Flowline.Api.Session
import Flowline.Settings
import Flowline.Shell.Run
import Flowline.Shell.Arithmetic
import Flowline.Shell.Format
import Flowline.Text.Bytes
import Flowline.Shell.Utility
import Flowline.Proofs.Api.Desk
import Flowline.Proofs.Api.Host
import Flowline.Proofs.Calendar.Timestamp
import Flowline.Proofs.Document.Additions
import Flowline.Proofs.Document.Refusal
import Flowline.Proofs.Document.Timeline
import Flowline.Proofs.Document.Unseen
import Flowline.Proofs.Document.WellFormed
import Flowline.Proofs.Graph.Descendants
import Flowline.Proofs.Graph.Reach
import Flowline.Proofs.Graph.Toposort
import Flowline.Proofs.Graph.View
import Flowline.Proofs.Json.Entries
import Flowline.Proofs.Node.Comparison
import Flowline.Proofs.Node.Effects
import Flowline.Proofs.Node.FeedOrder
import Flowline.Proofs.Node.Pairs
import Flowline.Proofs.Node.Propagation
import Flowline.Proofs.Node.Validated
import Flowline.Proofs.Node.Verdict
import Flowline.Proofs.Path.Grammar
import Flowline.Proofs.Path.Meaning
import Flowline.Proofs.Run.Barrier
import Flowline.Proofs.Run.Branching
import Flowline.Proofs.Run.Cancellation
import Flowline.Proofs.Run.Crossing
import Flowline.Proofs.Run.Equations
import Flowline.Proofs.Run.Failures
import Flowline.Proofs.Run.Independence
import Flowline.Proofs.Run.Joins
import Flowline.Proofs.Run.Laminar
import Flowline.Proofs.Run.Numbering
import Flowline.Proofs.Run.Once
import Flowline.Proofs.Run.Stops
import Flowline.Proofs.Run.Summary
import Flowline.Proofs.Run.Tally
import Flowline.Proofs.Run.Twins
import Flowline.Proofs.Run.Variables
import Flowline.Proofs.Settings.Connections
import Flowline.Proofs.Store.Collectors
import Flowline.Proofs.Store.Counters
import Flowline.Proofs.Template.Composition
import Flowline.Proofs.Template.Typed
import Flowline.Proofs.Workflow.RoundTrip
import Flowline.Proofs.Xml.RoundTrip
