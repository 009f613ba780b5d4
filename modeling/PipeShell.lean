import PipeShell.Main
import PipeShell.Proofs.Lexing
import PipeShell.Proofs.Printing
import PipeShell.Proofs.Quoting
import PipeShell.Proofs.Planning
import PipeShell.Proofs.Sequencing
import PipeShell.Proofs.Rejection
import PipeShell.Proofs.Truncation
import PipeShell.Proofs.Encoding
import PipeShell.Proofs.Feeding
import PipeShell.Proofs.Joining
import PipeShell.Proofs.Assigning
import PipeShell.Proofs.Binding
import PipeShell.Proofs.Resuming
import PipeShell.Proofs.Reporting
import PipeShell.Proofs.Wiring
import PipeShell.Proofs.Calling
import PipeShell.Proofs.Confining
import PipeShell.Proofs.Tallying
import PipeShell.Proofs.Translating
import PipeShell.Proofs.Windowing
import PipeShell.Proofs.Filtering
import PipeShell.Proofs.Matching
import PipeShell.Proofs.Requesting
import PipeShell.Proofs.Clustering
import PipeShell.Proofs.Gathering
import PipeShell.Proofs.Counting
import PipeShell.Proofs.Streaming
import PipeShell.Proofs.Piping
import PipeShell.Proofs.Overflowing
import PipeShell.Proofs.Expanding
import PipeShell.Proofs.Dividing
import PipeShell.Proofs.Referring
import PipeShell.Proofs.Echoing
import PipeShell.Proofs.Spacing
