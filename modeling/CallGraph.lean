import CallGraph.Main
import CallGraph.Proofs.Artifacts.Agreement
import CallGraph.Proofs.Artifacts.SymbolLines
import CallGraph.Proofs.BuiltTable
import CallGraph.Proofs.Coherence
import CallGraph.Proofs.CommandLine.Build
import CallGraph.Proofs.Components.Cyclic
import CallGraph.Proofs.Decoding
import CallGraph.Proofs.InsertionOrder
import CallGraph.Proofs.Linking
import CallGraph.Proofs.Looking
import CallGraph.Proofs.Merging.Gathering
import CallGraph.Proofs.Merging.Outcome
import CallGraph.Proofs.Operations
import CallGraph.Proofs.Persistence
import CallGraph.Proofs.Projects.Filling
import CallGraph.Proofs.Projects.Generation
import CallGraph.Proofs.Projects.Rescan
import CallGraph.Proofs.Projects.Selecting
import CallGraph.Proofs.Projects.Suffixes
import CallGraph.Proofs.Projects.Verification
import CallGraph.Proofs.Reading.EdgeTokens
import CallGraph.Proofs.Reading.Reopening
import CallGraph.Proofs.Resolution.Idempotence
import CallGraph.Proofs.Resolution.Survivors
import CallGraph.Proofs.Search.Agreement
import CallGraph.Proofs.Search.Duality
import CallGraph.Proofs.Search.Independence
import CallGraph.Proofs.Search.Moments
import CallGraph.Proofs.ShellPatterns
import CallGraph.Proofs.Summaries
import CallGraph.Proofs.TableText.Acceptance
import CallGraph.Proofs.TableText.RoundTrip
import CallGraph.Proofs.Trees.Changes
import CallGraph.Proofs.Trees.Directories
import CallGraph.Proofs.Trees.Listing
import CallGraph.Proofs.Trees.RealPath
import CallGraph.Proofs.UnitOrder
