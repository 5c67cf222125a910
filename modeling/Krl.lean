import Krl.Lsp
import Krl.Main
import Krl.Proofs.Completion.Functions
import Krl.Proofs.Diagnostic.Ranges
import Krl.Proofs.Lexer.Partition
import Krl.Proofs.Lexer.Relexing
import Krl.Proofs.Node.Identifiers
import Krl.Proofs.Report
import Krl.Proofs.Server.Configuration
import Krl.Proofs.Server.Debounce
import Krl.Proofs.Server.Independence
import Krl.Proofs.Server.Loads
import Krl.Proofs.Server.Synchronisation
import Krl.Proofs.Tool.Replies
import Krl.Proofs.Workspace.Attendance
import Krl.Proofs.Lexer.Malformed
import Krl.Proofs.Completion.Labels
import Krl.Proofs.Completion.Symbols
import Krl.Proofs.Lexer.Layout
import Krl.Proofs.Text.Numbering
import Krl.Proofs.Outline.Extents
import Krl.Proofs.Completion.OperatorContext
import Krl.Proofs.Text.Locations
import Krl.Proofs.Diagnostic.Rows
import Krl.Proofs.Json.Decoding
import Krl.Proofs.Settings
import Krl.Proofs.Cli.Containment
import Krl.Proofs.Node.Walk
