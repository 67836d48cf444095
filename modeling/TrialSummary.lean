import TrialSummary.Files.Tree
import TrialSummary.Main
import TrialSummary.Proofs.Binary64.Nearest
import TrialSummary.Proofs.Binary64.Statistic
import TrialSummary.Proofs.Decimal.Characters
import TrialSummary.Proofs.Decimal.RoundTrip
import TrialSummary.Proofs.Decimal.Rounding
import TrialSummary.Proofs.Extraction.Filling
import TrialSummary.Proofs.Extraction.LineForm
import TrialSummary.Proofs.Extraction.Outcome
import TrialSummary.Proofs.Extraction.PageRequests
import TrialSummary.Proofs.Extraction.Required
import TrialSummary.Proofs.Extraction.Results
import TrialSummary.Proofs.Extraction.Truncation
import TrialSummary.Proofs.Report.Batches
import TrialSummary.Proofs.Report.ReadBack
import TrialSummary.Proofs.Report.UnevenRows
import TrialSummary.Proofs.Run.FileNames
import TrialSummary.Proofs.Run.Loading
import TrialSummary.Proofs.Run.PlannedFiles
import TrialSummary.Proofs.Run.QueryChoice
import TrialSummary.Proofs.Run.SeenLines
import TrialSummary.Proofs.Run.ShortFiles
import TrialSummary.Proofs.Run.SingleConfiguration
import TrialSummary.Proofs.Run.SummaryReport
import TrialSummary.Proofs.Run.TrialReport
import TrialSummary.Proofs.Settings.Groups
import TrialSummary.Proofs.Settings.OptionalKeys
import TrialSummary.Proofs.Settings.Rates
import TrialSummary.Proofs.Text.Lines
import TrialSummary.Proofs.Text.Search
import TrialSummary.Proofs.Toml.Removal
import TrialSummary.Proofs.Trial.Identity
import TrialSummary.Proofs.Extraction.LineOrder
import TrialSummary.Proofs.Run.LoadFailures
import TrialSummary.Proofs.Report.Framing
import TrialSummary.Proofs.Extraction.Counting
import TrialSummary.Proofs.Binary64.Arithmetic
import TrialSummary.Proofs.Binary64.Median
import TrialSummary.Proofs.Binary64.Mean
import TrialSummary.Proofs.Binary64.Repetition
import TrialSummary.Proofs.Report.IdenticalRecords
import TrialSummary.Proofs.Report.UnsetMark
import TrialSummary.Proofs.Report.Partition
import TrialSummary.Proofs.Report.SummaryFaults
import TrialSummary.Proofs.Report.CellValues
import TrialSummary.Proofs.Binary64.Overflow
import TrialSummary.Proofs.Decimal.NotFinite
import TrialSummary.Proofs.Extraction.Measures
import TrialSummary.Proofs.Decimal.Grammar
import TrialSummary.Proofs.Text.LastOccurrence
import TrialSummary.Proofs.Extraction.TimeLines
import TrialSummary.Proofs.Extraction.SharedLines
import TrialSummary.Proofs.Text.Bytes
import TrialSummary.Proofs.Run.FileLines
import TrialSummary.Proofs.Binary64.Interval
import TrialSummary.Proofs.Decimal.Shortest
import TrialSummary.Proofs.Decimal.SignificantDigits
import TrialSummary.Proofs.Decimal.ShortestText
import TrialSummary.Proofs.Binary64.Integers
import TrialSummary.Proofs.Trial.Cells
import TrialSummary.Proofs.Extraction.LogOutcome
import TrialSummary.Proofs.Extraction.Adjustment
import TrialSummary.Proofs.Text.Replacement
import TrialSummary.Proofs.Extraction.MalformedLines
