import TwoPass.Main
import TwoPass.Proofs.Line
import TwoPass.Proofs.Spelling
import TwoPass.Proofs.Tiling
import TwoPass.Proofs.Admission
import TwoPass.Proofs.Written
import TwoPass.Proofs.Primitive
import TwoPass.Proofs.Layout
import TwoPass.Proofs.Collection
import TwoPass.Proofs.Emission
import TwoPass.Proofs.Run
import TwoPass.Proofs.Expansion
import TwoPass.Proofs.Resolution
import TwoPass.Proofs.Transcription
import TwoPass.Proofs.OutputLayout
import TwoPass.Proofs.Extent
import TwoPass.Proofs.Substitution
import TwoPass.Proofs.LabelAddress
import TwoPass.Proofs.Executable
import TwoPass.Proofs.Reassembly
import TwoPass.Proofs.Conversion
import TwoPass.Proofs.LoadedValue
import TwoPass.Proofs.Outcome
import TwoPass.Proofs.Diagnostics
import TwoPass.Proofs.Completeness
import TwoPass.Proofs.Share
import TwoPass.Proofs.UndefinedLabel
import TwoPass.Proofs.Permission
import TwoPass.Proofs.Relocation
import TwoPass.Proofs.IgnoredLine
import TwoPass.Proofs.Meaning
import TwoPass.Proofs.Place
import TwoPass.Proofs.Reformatting
import TwoPass.Proofs.FailureText
import TwoPass.Proofs.AddressSpace
import TwoPass.Proofs.StackDiscipline
import TwoPass.Proofs.Renaming
import TwoPass.Proofs.RenamedLine
import TwoPass.Proofs.LabelNames
import TwoPass.Proofs.Text.Utf8
import TwoPass.Proofs.SourceFile
import TwoPass.Proofs.Command
import TwoPass.Proofs.KeptLabels
import TwoPass.Proofs.Path
import TwoPass.Proofs.SourceKept
import TwoPass.Proofs.Derivation
import TwoPass.Proofs.Printing
import TwoPass.Proofs.Text.Patch
import TwoPass.Proofs.Splicing
import TwoPass.Proofs.DataReference
import TwoPass.Proofs.Verdict
import TwoPass.Proofs.Spacing
import TwoPass.Proofs.Mnemonic
import TwoPass.Proofs.Subject
import TwoPass.Proofs.Pointing
import TwoPass.Proofs.Directives
import TwoPass.Proofs.ReportHistory
import TwoPass.Proofs.TableHistory
import TwoPass.Proofs.Numeral
import TwoPass.Proofs.Coverage
import TwoPass.Proofs.SymbolFile
