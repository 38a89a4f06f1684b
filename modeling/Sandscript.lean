import Sandscript.Main
import Sandscript.Proofs.BindingLists
import Sandscript.Proofs.Blanks
import Sandscript.Proofs.Composition
import Sandscript.Proofs.ControlHeads
import Sandscript.Proofs.Cutting
import Sandscript.Proofs.DeclareForm
import Sandscript.Proofs.DeclareReading
import Sandscript.Proofs.DiskFrame
import Sandscript.Proofs.EarlyFailures
import Sandscript.Proofs.EntryLines
import Sandscript.Proofs.EntryPoint
import Sandscript.Proofs.ExecutionFrame
import Sandscript.Proofs.FileUrls
import Sandscript.Proofs.Forwarding
import Sandscript.Proofs.FunctionNames
import Sandscript.Proofs.Grouping
import Sandscript.Proofs.Idempotence
import Sandscript.Proofs.ImportGate
import Sandscript.Proofs.ImportLiterals
import Sandscript.Proofs.ImportPlaces
import Sandscript.Proofs.LineAccounts
import Sandscript.Proofs.LineAlignment
import Sandscript.Proofs.Listing
import Sandscript.Proofs.ListingRecovery
import Sandscript.Proofs.LocalEnds
import Sandscript.Proofs.LogAlias
import Sandscript.Proofs.LogPlaces
import Sandscript.Proofs.LostReports
import Sandscript.Proofs.LoweredLines
import Sandscript.Proofs.LoweringRun
import Sandscript.Proofs.Mirroring
import Sandscript.Proofs.ModuleKinds
import Sandscript.Proofs.Outcomes
import Sandscript.Proofs.PathSteps
import Sandscript.Proofs.Positions
import Sandscript.Proofs.ProjectRoot
import Sandscript.Proofs.Recording
import Sandscript.Proofs.Reemission
import Sandscript.Proofs.Resolution
import Sandscript.Proofs.RuntimeLookup
import Sandscript.Proofs.Scanning
import Sandscript.Proofs.SearchPath
import Sandscript.Proofs.SharedBuffers
import Sandscript.Proofs.Stages
import Sandscript.Proofs.StatementEnd
import Sandscript.Proofs.TreeCopies
import Sandscript.Proofs.TreeListing
import Sandscript.Proofs.Utf8Reading
import Sandscript.Proofs.WorkspaceFrame
import Sandscript.Proofs.WorkspaceLifetime
import Sandscript.Proofs.WorkspaceReach
