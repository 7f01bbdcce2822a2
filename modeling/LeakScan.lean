import LeakScan.Config.Template
import LeakScan.Json.Parser
import LeakScan.Main
import LeakScan.Service.Respond
import LeakScan.Proofs.Document.Lines
import LeakScan.Proofs.Walk.Places
import LeakScan.Proofs.Walk.Coverage
import LeakScan.Proofs.Report.Tally
import LeakScan.Proofs.Scan.Fold
import LeakScan.Proofs.Disk.Follow
import LeakScan.Proofs.Scan.Obstruction
import LeakScan.Proofs.Disk.Relisted
import LeakScan.Proofs.Walk.Order
import LeakScan.Proofs.Report.Rules
import LeakScan.Proofs.Report.Runs
import LeakScan.Proofs.Config.Keys
import LeakScan.Proofs.Scan.Strict
import LeakScan.Proofs.Config.Endings
import LeakScan.Proofs.Page.Joined
import LeakScan.Proofs.Disk.Alike
import LeakScan.Proofs.Disk.Below
import LeakScan.Proofs.Walk.Alike
import LeakScan.Proofs.Walk.Reading
import LeakScan.Proofs.Text.LineEnds
import LeakScan.Proofs.Scan.SourceLines
import LeakScan.Proofs.Json.Tokens
import LeakScan.Proofs.Json.RoundTrip
import LeakScan.Proofs.Service.Agreement
import LeakScan.Proofs.Scan.Replies
import LeakScan.Proofs.Page.Sides
import LeakScan.Proofs.Scan.Subtree
import LeakScan.Proofs.Scan.OneFile
import LeakScan.Proofs.Scan.ImpliedKeys
import LeakScan.Proofs.Scan.Skipping
import LeakScan.Proofs.Scan.Filled
import LeakScan.Proofs.Pattern.Languages
import LeakScan.Proofs.Scan.Root
import LeakScan.Proofs.Command.ExitCode
import LeakScan.Proofs.Command.Init
import LeakScan.Proofs.Document.CodeLines
import LeakScan.Proofs.Document.Entries
import LeakScan.Proofs.Scan.Statuses
import LeakScan.Proofs.Scan.NamesApart
import LeakScan.Proofs.Document.SensitiveNames
import LeakScan.Proofs.Config.Timeout
import LeakScan.Proofs.Config.SearchOrder
import LeakScan.Proofs.Config.Filling
import LeakScan.Proofs.Disk.Normal
import LeakScan.Proofs.Disk.Resolving
import LeakScan.Proofs.Scan.Spelling
import LeakScan.Proofs.Command.NoOverwrite
import LeakScan.Proofs.Disk.Writing
import LeakScan.Proofs.Json.Ascii
import LeakScan.Proofs.Report.Printed
import LeakScan.Proofs.Command.Output
import LeakScan.Proofs.Walk.FileText
import LeakScan.Proofs.Report.JobNames
import LeakScan.Proofs.Time.Calendar
import LeakScan.Proofs.Time.Order
import LeakScan.Proofs.Time.Zone
