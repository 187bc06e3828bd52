import KeyRegistry.Main
import KeyRegistry.Watch.Timeline
import KeyRegistry.Proofs.Watch.Agreement
import KeyRegistry.Proofs.FileSystem.Descent
import KeyRegistry.Proofs.Pass.Commit
import KeyRegistry.Proofs.Watch.Noise
import KeyRegistry.Proofs.Path.Route
import KeyRegistry.Proofs.Scan.Opinions
import KeyRegistry.Proofs.Config.Canonical
import KeyRegistry.Proofs.Scan.Filter
import KeyRegistry.Proofs.Pass.Progress
import KeyRegistry.Proofs.Scan.Edits
import KeyRegistry.Proofs.Watch.Course
import KeyRegistry.Proofs.Watch.Convergence
import KeyRegistry.Proofs.Watch.Alone
import KeyRegistry.Proofs.Scan.RuleText
import KeyRegistry.Proofs.Text.Quotation
import KeyRegistry.Proofs.Text.ByteOrder
import KeyRegistry.Proofs.Document.Reading
import KeyRegistry.Proofs.Scan.Artifact
import KeyRegistry.Proofs.Pass.Order
import KeyRegistry.Proofs.Pass.Idempotence
import KeyRegistry.Proofs.Pass.Generation
import KeyRegistry.Proofs.Guard.Coherence
import KeyRegistry.Proofs.Text.Parts
import KeyRegistry.Proofs.Text.Spelling
import KeyRegistry.Proofs.Text.Halves
import KeyRegistry.Proofs.Pattern.Closure
import KeyRegistry.Proofs.Scan.Pruning
import KeyRegistry.Proofs.Scan.Readmission
import KeyRegistry.Proofs.Scan.Unread
import KeyRegistry.Proofs.Watch.Forwarding
import KeyRegistry.Proofs.Watch.Stopping
import KeyRegistry.Proofs.Watch.Accounts
import KeyRegistry.Proofs.Watch.Coalescing
import KeyRegistry.Proofs.Script.Extraction
import KeyRegistry.Proofs.Script.Positions
import KeyRegistry.Proofs.Document.Parsing
import KeyRegistry.Proofs.Config.Decoding
import KeyRegistry.Proofs.Watch.Batches
import KeyRegistry.Proofs.Path.Reduction
import KeyRegistry.Proofs.Scan.Construction
import KeyRegistry.Proofs.Config.Projection
import KeyRegistry.Proofs.Pattern.Decomposition
import KeyRegistry.Proofs.Pattern.Making
import KeyRegistry.Proofs.Scan.Confinement
