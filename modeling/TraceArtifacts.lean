import TraceArtifacts.Command
import TraceArtifacts.Deploy.Package
import TraceArtifacts.Deploy.Scenario
import TraceArtifacts.Draw.Comparison
import TraceArtifacts.Draw.Network
import TraceArtifacts.Loading.Login
import TraceArtifacts.Loading.Standard
import TraceArtifacts.ModelService
import TraceArtifacts.Proofs.Synonyms
import TraceArtifacts.Proofs.Scopes
import TraceArtifacts.Proofs.Statements
import TraceArtifacts.Proofs.FreshRuns
import TraceArtifacts.Proofs.Remapping
import TraceArtifacts.Proofs.Regeneration
import TraceArtifacts.Proofs.TableNames
import TraceArtifacts.Proofs.Repeats
import TraceArtifacts.Proofs.SelectedColumns
import TraceArtifacts.Proofs.FileNames
import TraceArtifacts.Proofs.TracedBlocks
import TraceArtifacts.Proofs.EndlessChains
import TraceArtifacts.Proofs.LinkCounts
import TraceArtifacts.Proofs.TableTypes
import TraceArtifacts.Proofs.MethodCalls
import TraceArtifacts.Proofs.Shares
import TraceArtifacts.Proofs.ServedResults
import TraceArtifacts.Proofs.Lookup
import TraceArtifacts.Proofs.Occurrences
import TraceArtifacts.Proofs.Drawings
