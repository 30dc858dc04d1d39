import HackAssembler.Main
import HackAssembler.Disk.Change
import HackAssembler.Proofs.Meaning
import HackAssembler.Proofs.Mode
import HackAssembler.Proofs.Layout
import HackAssembler.Proofs.Allocation
import HackAssembler.Proofs.Assembly
import HackAssembler.Proofs.Decoding
import HackAssembler.Proofs.Disassembly
import HackAssembler.Proofs.Agreement
import HackAssembler.Proofs.Renaming
import HackAssembler.Proofs.Silence
import HackAssembler.Proofs.LabelShape
import HackAssembler.Proofs.Tolerance
import HackAssembler.Proofs.Wraparound
import HackAssembler.Proofs.Reference
import HackAssembler.Proofs.Formatting
import HackAssembler.Proofs.Linking
import HackAssembler.Proofs.Directory
import HackAssembler.Proofs.FileSystem
import HackAssembler.Proofs.Grid
import HackAssembler.Proofs.AllOrNothing
import HackAssembler.Proofs.Survival
import HackAssembler.Proofs.FirstFault
import HackAssembler.Proofs.Decimal
import HackAssembler.Proofs.Provenance
import HackAssembler.Proofs.Continuation
import HackAssembler.Proofs.UnusedLabel
import HackAssembler.Proofs.Grammar
import HackAssembler.Proofs.Machine
import HackAssembler.Proofs.LineReading
import HackAssembler.Proofs.Records
import HackAssembler.Proofs.Replay
import HackAssembler.Proofs.LabelCheck
import HackAssembler.Proofs.TableHistory
import HackAssembler.Proofs.SecondWalk
import HackAssembler.Proofs.ByteOrder
import HackAssembler.Proofs.Outputs
import HackAssembler.Proofs.Discovery
