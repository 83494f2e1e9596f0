import ShellDoc.CommandLine.Run
import ShellDoc.Main
import ShellDoc.Proofs.Comment.Block
import ShellDoc.Proofs.Parameter.Append
import ShellDoc.Proofs.Parameter.Depth
import ShellDoc.Proofs.Parameter.Grammar
import ShellDoc.Proofs.Parameter.OnePass
import ShellDoc.Proofs.Parameter.Printed
import ShellDoc.Proofs.Parameter.Shift
import ShellDoc.Proofs.Section.ClosedForm
import ShellDoc.Proofs.Section.Noise
import ShellDoc.Proofs.Section.Printed
import ShellDoc.Proofs.Script.Append
import ShellDoc.Proofs.Script.Block
import ShellDoc.Proofs.Script.Header
import ShellDoc.Proofs.Script.Layout
import ShellDoc.Proofs.Script.Position
import ShellDoc.Proofs.Script.Printed
import ShellDoc.Proofs.Json.Grammar
import ShellDoc.Proofs.Json.Reader
import ShellDoc.Proofs.Json.Printed
import ShellDoc.Proofs.Json.Lossless
import ShellDoc.Proofs.Markdown.Page
import ShellDoc.Proofs.CommandLine.Files
import ShellDoc.Proofs.CommandLine.Again
import ShellDoc.Proofs.CommandLine.Arrangement
import ShellDoc.Proofs.CommandLine.Failures
import ShellDoc.Proofs.CommandLine.Verbosity
import ShellDoc.Proofs.Script.Body
import ShellDoc.Proofs.CommandLine.Output
import ShellDoc.Proofs.CommandLine.Unread
import ShellDoc.Proofs.CommandLine.Directory
