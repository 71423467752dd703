import DateDisplay.Main
import DateDisplay.Text.Format
import DateDisplay.Proofs.Migration.Completion
import DateDisplay.Proofs.Migration.Resumption
import DateDisplay.Proofs.Migration.DryRun
import DateDisplay.Proofs.Migration.Interruption
import DateDisplay.Proofs.Declaration
import DateDisplay.Proofs.Migration.Report
import DateDisplay.Proofs.Symbols
import DateDisplay.Proofs.Augmentation
import DateDisplay.Proofs.Addition
import DateDisplay.Proofs.Migration.Sites
import DateDisplay.Proofs.Occurrences
import DateDisplay.Proofs.Idempotence
import DateDisplay.Proofs.Origin
import DateDisplay.Proofs.Scan
import DateDisplay.Proofs.Linewise
import DateDisplay.Proofs.Statement
import DateDisplay.Proofs.Wholeness
import DateDisplay.Proofs.Diff.Numerals
import DateDisplay.Proofs.Diff.Changes
import DateDisplay.Proofs.Diff.Silence
import DateDisplay.Proofs.Diff.Bounds
import DateDisplay.Proofs.Column
import DateDisplay.Proofs.Comments
import DateDisplay.Proofs.Extension
import DateDisplay.Proofs.Grammar
import DateDisplay.Proofs.Specifier
import DateDisplay.Proofs.LineNumbers
import DateDisplay.Proofs.Migration.LineEndings
import DateDisplay.Proofs.Folders
import DateDisplay.Proofs.Plan.Defaults
import DateDisplay.Proofs.Plan.Listing
import DateDisplay.Proofs.MixedEndings
import DateDisplay.Proofs.Migration.Repetition
import DateDisplay.Proofs.Migration.Absence
