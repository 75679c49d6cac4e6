import DataDivision.Main
import DataDivision.Proofs.Checked.Compilation
import DataDivision.Proofs.Checked.Documents
import DataDivision.Proofs.Classification.Columns
import DataDivision.Proofs.Compilation.Exactness
import DataDivision.Proofs.Compilation.Extents
import DataDivision.Proofs.Compilation.Independence
import DataDivision.Proofs.Compilation.RecordTypes
import DataDivision.Proofs.Compilation.Redefinitions
import DataDivision.Proofs.Entry.Breaking
import DataDivision.Proofs.Entry.Comments
import DataDivision.Proofs.Entry.Rejections
import DataDivision.Proofs.Entry.Rendering
import DataDivision.Proofs.Entry.Spans
import DataDivision.Proofs.Layout.Unexplained
import DataDivision.Proofs.Picture.Expansion
import DataDivision.Proofs.Record.Codes
import DataDivision.Proofs.Record.LastByte
import DataDivision.Proofs.Record.SingleAlternative
import DataDivision.Proofs.Record.Usages
import DataDivision.Proofs.Report.Lines
import DataDivision.Proofs.Rules.Conditionals
