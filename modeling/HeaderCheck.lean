import HeaderCheck.Main
import HeaderCheck.Proofs.Header.Assembled
import HeaderCheck.Proofs.Header.ByLines
import HeaderCheck.Proofs.Header.ByteExact
import HeaderCheck.Proofs.Header.LineBreaks
import HeaderCheck.Proofs.Header.Overlap
import HeaderCheck.Proofs.Header.Year
import HeaderCheck.Proofs.Selection.Pruning
import HeaderCheck.Proofs.Text.Utf8
import HeaderCheck.Proofs.Text.Written
import HeaderCheck.Proofs.Verification.Extension
import HeaderCheck.Proofs.Verification.RelativeRoot
import HeaderCheck.Proofs.Verification.Relocation
import HeaderCheck.Proofs.Verification.Reported
import HeaderCheck.Proofs.Verification.UnknownKey
import HeaderCheck.Proofs.Verification.Unread
import HeaderCheck.Proofs.WholeTree
import HeaderCheck.Proofs.Verification.AnyYear
import HeaderCheck.Proofs.Text.ByteOrder
import HeaderCheck.Proofs.Verification.Forced
import HeaderCheck.Proofs.Boilerplate.Directory
import HeaderCheck.Proofs.Boilerplate.Owned
import HeaderCheck.Proofs.Header.Head
import HeaderCheck.Proofs.Header.Opening
import HeaderCheck.Proofs.Header.YearChange
import HeaderCheck.Proofs.Report.Nonconforming
import HeaderCheck.Proofs.FileKey
import HeaderCheck.Proofs.Settings.LastWrite
import HeaderCheck.Proofs.Settings.Precedence
import HeaderCheck.Proofs.Verification.FailFast
import HeaderCheck.Proofs.Verification.PlainNames
