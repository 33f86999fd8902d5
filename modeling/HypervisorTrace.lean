import HypervisorTrace.Main
import HypervisorTrace.Proofs.Event.CanonicalPayload
import HypervisorTrace.Proofs.Event.Variants
import HypervisorTrace.Proofs.Format.Concatenation
import HypervisorTrace.Proofs.Format.Truncation
import HypervisorTrace.Proofs.Output.FullDevice
import HypervisorTrace.Proofs.Session.Outcome
import HypervisorTrace.Proofs.Session.TaskNumbers
import HypervisorTrace.Proofs.Session.Times
import HypervisorTrace.Proofs.Trec.Interleaving
import HypervisorTrace.Proofs.Trec.ShownGuests
import HypervisorTrace.Proofs.Event.Wording
import HypervisorTrace.Proofs.Text.Cutting
import HypervisorTrace.Proofs.Session.Lines
import HypervisorTrace.Proofs.CommandLine.Environment
import HypervisorTrace.Proofs.CommandLine.Frequency
import HypervisorTrace.Proofs.Statistics.Conservation
import HypervisorTrace.Proofs.Json.Escaping
import HypervisorTrace.Proofs.Json.Lexing
import HypervisorTrace.Proofs.Json.Nesting
import HypervisorTrace.Proofs.Export.Reading
import HypervisorTrace.Proofs.Output.RoundTrip
import HypervisorTrace.Proofs.Clock.Registers
import HypervisorTrace.Proofs.Clock.Accuracy
import HypervisorTrace.Proofs.Clock.Reading
import HypervisorTrace.Proofs.Session.Epochs
import HypervisorTrace.Proofs.Clock.Padding
import HypervisorTrace.Proofs.Session.TaskList
import HypervisorTrace.Proofs.Statistics.Ranking
import HypervisorTrace.Proofs.Statistics.Span
import HypervisorTrace.Proofs.Clock.Decisions
import HypervisorTrace.Proofs.Command.Overrides
import HypervisorTrace.Proofs.Command.Obstacles
