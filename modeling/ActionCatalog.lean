import ActionCatalog.Catalog.Reader
import ActionCatalog.Dict.Lookup
import ActionCatalog.Main
import ActionCatalog.Proofs.Body.Graph
import ActionCatalog.Proofs.Body.Leaves
import ActionCatalog.Proofs.Body.Reach
import ActionCatalog.Proofs.Body.Allowance
import ActionCatalog.Proofs.Body.Search
import ActionCatalog.Proofs.Body.First
import ActionCatalog.Proofs.Body.Placement
import ActionCatalog.Proofs.Body.Plain
import ActionCatalog.Proofs.Body.Cast
import ActionCatalog.Proofs.Body.Layout
import ActionCatalog.Proofs.Body.Cuts
import ActionCatalog.Proofs.Body.Tracking
import ActionCatalog.Proofs.Body.Stack
import ActionCatalog.Proofs.Body.Ending
import ActionCatalog.Proofs.Body.Types
import ActionCatalog.Proofs.Body.Completeness
import ActionCatalog.Proofs.Console.Listing
import ActionCatalog.Proofs.Console.Session
import ActionCatalog.Proofs.Extraction
import ActionCatalog.Proofs.Exposure
import ActionCatalog.Proofs.Locality
import ActionCatalog.Proofs.Alias
import ActionCatalog.Proofs.Report
import ActionCatalog.Proofs.Mismatch
import ActionCatalog.Proofs.Fault
import ActionCatalog.Proofs.Label
import ActionCatalog.Proofs.Silence
import ActionCatalog.Proofs.Variables
import ActionCatalog.Proofs.Binding
import ActionCatalog.Proofs.Security
import ActionCatalog.Proofs.Acceptance
import ActionCatalog.Proofs.Options
import ActionCatalog.Proofs.Spelling
import ActionCatalog.Proofs.RoundTrip
import ActionCatalog.Proofs.Quotes
import ActionCatalog.Proofs.Literals
import ActionCatalog.Proofs.Terms
import ActionCatalog.Proofs.Mention
import ActionCatalog.Proofs.Required
import ActionCatalog.Proofs.Spans
