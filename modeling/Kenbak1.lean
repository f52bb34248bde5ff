import Kenbak1.Main
import Kenbak1.Remote
import Kenbak1.Proofs.Coherence
import Kenbak1.Proofs.Command.Operated
import Kenbak1.Proofs.Command.Paths
import Kenbak1.Proofs.Console.MemoryPane
import Kenbak1.Proofs.Console.Progress
import Kenbak1.Proofs.Console.SingleStep
import Kenbak1.Proofs.Console.Stepping
import Kenbak1.Proofs.Console.Sweep
import Kenbak1.Proofs.Console.Window
import Kenbak1.Proofs.Counter
import Kenbak1.Proofs.Flat.Refinement
import Kenbak1.Proofs.FrontPanel.KeyIn
import Kenbak1.Proofs.FrontPanel.Load
import Kenbak1.Proofs.Image.Grammar
import Kenbak1.Proofs.Image.RoundTrip
import Kenbak1.Proofs.Instruction.Text
import Kenbak1.Proofs.Listing
import Kenbak1.Proofs.Machine.Changes
import Kenbak1.Proofs.Machine.Fetch
import Kenbak1.Proofs.Machine.Listed
import Kenbak1.Proofs.Machine.Notices
import Kenbak1.Proofs.Machine.Operands
import Kenbak1.Proofs.Machine.Quiet
import Kenbak1.Proofs.Machine.Writes
import Kenbak1.Proofs.Memory
import Kenbak1.Proofs.Memory.Load
import Kenbak1.Proofs.Remote
