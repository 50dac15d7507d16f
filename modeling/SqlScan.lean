import SqlScan.Bytes
import SqlScan.Rendering
import SqlScan.Session
import SqlScan.Scanner.Passes
import SqlScan.Settings.Document
import SqlScan.Settings.Variables
import SqlScan.Proofs.Lossless
import SqlScan.Proofs.Respacing
import SqlScan.Proofs.Recovery
import SqlScan.Proofs.Lines
import SqlScan.Proofs.Windows
import SqlScan.Proofs.Scanner.Restarts
import SqlScan.Proofs.Scanner.Calls
import SqlScan.Proofs.Scanner.Progress
import SqlScan.Proofs.Order
import SqlScan.Proofs.Respelling
import SqlScan.Proofs.ByteSources
import SqlScan.Proofs.NameTokens
import SqlScan.Proofs.StringLiterals
import SqlScan.Proofs.Scanner.Gaps
import SqlScan.Proofs.Neighbours
import SqlScan.Proofs.WrittenNumbers
import SqlScan.Proofs.Scanner.Locations
import SqlScan.Proofs.Scanner.Faults
import SqlScan.Proofs.Scanner.Logs
import SqlScan.Proofs.Scanner.Words
import SqlScan.Proofs.Settings.Variables
import SqlScan.Proofs.Reports
