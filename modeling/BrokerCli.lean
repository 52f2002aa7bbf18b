import BrokerCli.Main
import BrokerCli.Proofs.Grammar
import BrokerCli.Proofs.Reading
import BrokerCli.Proofs.Line
import BrokerCli.Proofs.Extension
import BrokerCli.Proofs.Acceptance
import BrokerCli.Proofs.JsonText
import BrokerCli.Proofs.Kept
import BrokerCli.Proofs.Codec
import BrokerCli.Proofs.Persistence
import BrokerCli.Proofs.Bundled
import BrokerCli.Proofs.Provenance
import BrokerCli.Proofs.Batch
import BrokerCli.Proofs.Hints
import BrokerCli.Proofs.Precedence
import BrokerCli.Proofs.HelpOption
import BrokerCli.Proofs.GroupHelp
import BrokerCli.Proofs.Switch
import BrokerCli.Proofs.Retention
import BrokerCli.Proofs.WriteBack
import BrokerCli.Proofs.Course
import BrokerCli.Proofs.Paths
import BrokerCli.Proofs.Heading
import BrokerCli.Proofs.Custody
import BrokerCli.Proofs.BestEffort
import BrokerCli.Proofs.Offer
import BrokerCli.Proofs.Shorthand
import BrokerCli.Proofs.Bare
import BrokerCli.Proofs.Forward
import BrokerCli.Proofs.Levels
import BrokerCli.Proofs.Replay
import BrokerCli.Proofs.Disabled
import BrokerCli.Proofs.LiteralAddress
import BrokerCli.Proofs.Choices
import BrokerCli.Proofs.Namesakes
import BrokerCli.Proofs.Transposition
import BrokerCli.Proofs.References
import BrokerCli.Proofs.Endpoints
import BrokerCli.Proofs.Gate
import BrokerCli.Proofs.Deletion
import BrokerCli.Proofs.Candidates
import BrokerCli.Proofs.Privacy
import BrokerCli.Proofs.Alignment
import BrokerCli.Proofs.Grouping
import BrokerCli.Proofs.Strip
import BrokerCli.Proofs.Numerals
import BrokerCli.Proofs.Serial
import BrokerCli.Proofs.Assignment
import BrokerCli.Proofs.Separation
