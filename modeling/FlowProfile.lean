import FlowProfile.CommandLine.Program
import FlowProfile.Compile.Summary
import FlowProfile.Func.Builder
import FlowProfile.Func.Edit
import FlowProfile.Main
import FlowProfile.Proofs.Func.Verified
import FlowProfile.Proofs.Run.Cover
import FlowProfile.Proofs.Run.Service
import FlowProfile.Proofs.Run.Trail
import FlowProfile.Proofs.Weave.Basic
import FlowProfile.Proofs.Weave.Calls
import FlowProfile.Proofs.Weave.Compiled
import FlowProfile.Proofs.Weave.Passes
import FlowProfile.Settings.Document
import FlowProfile.Proofs.Weave.Probing
import FlowProfile.Proofs.Weave.Following
import FlowProfile.Proofs.Weave.Entering
import FlowProfile.Proofs.Weave.Renaming
import FlowProfile.Proofs.Weave.Running
import FlowProfile.Proofs.Run.Causes
import FlowProfile.Proofs.Compile.Transparency
import FlowProfile.Proofs.Compile.BranchCounts
import FlowProfile.Proofs.Compile.FeedbackLoop
import FlowProfile.Proofs.Run.Interleaving
import FlowProfile.Proofs.Weave.Inside
import FlowProfile.Proofs.Weave.Racing
import FlowProfile.Proofs.Compile.CallCounts
import FlowProfile.Proofs.Weave.Checks
import FlowProfile.Proofs.Compile.Acceptance
import FlowProfile.Proofs.Compile.Atomicity
import FlowProfile.Proofs.Compile.Preservation
import FlowProfile.Proofs.Weave.Requests
import FlowProfile.Proofs.Compile.AllocationCounts
import FlowProfile.Proofs.Run.Footprint
import FlowProfile.Proofs.Weave.Additions
import FlowProfile.Proofs.Store.Session
import FlowProfile.Proofs.Store.Effects
import FlowProfile.Proofs.Store.Lasting
import FlowProfile.Proofs.Store.Mirroring
import FlowProfile.Proofs.Store.Provenance
import FlowProfile.Proofs.Store.Likeness
import FlowProfile.Proofs.Store.Report
import FlowProfile.Proofs.Compile.Isolation
import FlowProfile.Proofs.Compile.Commuting
import FlowProfile.Proofs.Run.Crowd
import FlowProfile.Proofs.Run.Shares
import FlowProfile.Proofs.Run.Likeness
import FlowProfile.Proofs.Run.Steady
import FlowProfile.Proofs.Weave.Pairing
import FlowProfile.Proofs.Weave.Crossing
import FlowProfile.Proofs.Compile.Interleaved
import FlowProfile.Proofs.CommandLine.ClosedForm
import FlowProfile.Proofs.Run.Dominance
import FlowProfile.Proofs.Run.Splitting
import FlowProfile.Proofs.Func.Building
import FlowProfile.Proofs.Func.Printing
import FlowProfile.Proofs.Weave.Durable
import FlowProfile.Proofs.Weave.Summing
import FlowProfile.Proofs.Compile.Activity
import FlowProfile.Proofs.Flow.DepthFirst
import FlowProfile.Proofs.Func.Encoding
import FlowProfile.Proofs.Compile.Announcements
import FlowProfile.Proofs.Settings.Documents
import FlowProfile.Proofs.Settings.Variables
import FlowProfile.Session.Office
