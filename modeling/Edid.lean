import Edid.Main
import Edid.Proofs.BlockChain
import Edid.Proofs.Checked
import Edid.Proofs.Field
import Edid.Proofs.Readers
import Edid.Proofs.FirstOccurrences
import Edid.Proofs.VideoModes
import Edid.Proofs.Timing.Detailed
import Edid.Proofs.Timing.Established
import Edid.Proofs.Timing.Standard
import Edid.Proofs.Timing.StandardTable
import Edid.Proofs.Timing.Rounding
import Edid.Proofs.Advertised
import Edid.Proofs.FirstExtension
import Edid.Proofs.LossyText
import Edid.Proofs.HexGrammar
import Edid.Proofs.Rendering
import Edid.Proofs.FileForms
import Edid.Proofs.Growth
import Edid.Proofs.BaseBlock
import Edid.Proofs.Truncation
import Edid.Proofs.Descriptor.Kind
import Edid.Proofs.Descriptor.Encoding
import Edid.Proofs.Descriptor.TimingSlots
import Edid.Proofs.Views
import Edid.Proofs.Outcome
import Edid.Proofs.Faults
import Edid.Proofs.Folders
import Edid.Proofs.SourceOrder
import Edid.Proofs.LogNeutrality
import Edid.Proofs.Footprint
import Edid.Proofs.Identity
import Edid.Proofs.Characters
import Edid.Proofs.Remarks
import Edid.Proofs.EnumerationLog
import Edid.Proofs.Verbosity
import Edid.Proofs.ReportLines
import Edid.Proofs.ShortBuffers
import Edid.Proofs.Detection
import Edid.Proofs.ModelName
import Edid.Proofs.Labels
import Edid.Proofs.SinglePrecision
import Edid.Proofs.Inches
