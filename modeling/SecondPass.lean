import SecondPass.Text.Blank
import SecondPass.Machine.Code
import SecondPass.Machine.Opcode
import SecondPass.Machine.Word
import SecondPass.Machine.Config
import SecondPass.Symbols.Address
import SecondPass.Symbols.Table
import SecondPass.Source.Name
import SecondPass.Source.Operand
import SecondPass.Source.Line
import SecondPass.Report.Diagnostic
import SecondPass.Report.Event
import SecondPass.Report.Logged
import SecondPass.Image
import SecondPass.Pass.Resolution
import SecondPass.Pass.Export
import SecondPass.Pass.Encoding
import SecondPass.Pass.Assembly
import SecondPass.Proofs.Layout
import SecondPass.Proofs.Offer
import SecondPass.Proofs.Run
import SecondPass.Proofs.Relocation
import SecondPass.Proofs.Uses
import SecondPass.Proofs.References
import SecondPass.Proofs.Labels
import SecondPass.Proofs.Fields
import SecondPass.Proofs.Decoding
import SecondPass.Proofs.Emission
import SecondPass.Proofs.Faults
import SecondPass.Proofs.ExternalWords
import SecondPass.Proofs.Growth
import SecondPass.Proofs.Order
import SecondPass.Proofs.Policy
import SecondPass.Proofs.Verdict
import SecondPass.Proofs.Definitions
import SecondPass.Proofs.LoadAddresses
import SecondPass.Proofs.EventLog
import SecondPass.Proofs.Presets
import SecondPass.Proofs.LabelGrammar
import SecondPass.Proofs.Settings
import SecondPass.Proofs.Exports
import SecondPass.Proofs.Attempts
import SecondPass.Proofs.Builders
import SecondPass.Proofs.Registers
import SecondPass.Proofs.OperandText
import SecondPass.Proofs.WordCodec
