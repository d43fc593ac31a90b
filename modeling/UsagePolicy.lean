import UsagePolicy.Main
import UsagePolicy.Proofs.CaseFile.Validity
import UsagePolicy.Proofs.CommandLine.Running
import UsagePolicy.Proofs.CommandLine.Summaries
import UsagePolicy.Proofs.CommandLine.Tallies
import UsagePolicy.Proofs.Evaluation.Consequences
import UsagePolicy.Proofs.Evaluation.Constraints
import UsagePolicy.Proofs.Evaluation.Deletions
import UsagePolicy.Proofs.Evaluation.Errors
import UsagePolicy.Proofs.Evaluation.Leaves
import UsagePolicy.Proofs.Evaluation.Monotonicity
import UsagePolicy.Proofs.Evaluation.Parties
import UsagePolicy.Proofs.Evaluation.Ranges
import UsagePolicy.Proofs.Evaluation.Reordering
import UsagePolicy.Proofs.Evaluation.Requirements
import UsagePolicy.Proofs.Evaluation.Rounds
import UsagePolicy.Proofs.Evaluation.Rulings
import UsagePolicy.Proofs.Evaluation.Sequences
import UsagePolicy.Proofs.Evaluation.Sessions
import UsagePolicy.Proofs.Explanations
import UsagePolicy.Proofs.Graph.Lists
import UsagePolicy.Proofs.Rdf.Collections
import UsagePolicy.Proofs.Rdf.Numbering
import UsagePolicy.Proofs.Rdf.Writing
import UsagePolicy.Proofs.Report.Confinement
import UsagePolicy.Proofs.Report.MaskedPlaces
import UsagePolicy.Proofs.Run.Reproducing
