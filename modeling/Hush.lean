import Hush.Main
import Hush.Proofs.Line.Comment
import Hush.Proofs.Source.Lines
import Hush.Proofs.Source.SpanList
import Hush.Proofs.Source.Tracking
import Hush.Proofs.Source.Rewriting
import Hush.Proofs.Source.Settled
import Hush.Proofs.Source.LineEndings
import Hush.Proofs.Text.Encoding
import Hush.Proofs.Text.ValidEnd
import Hush.Proofs.Text.Raw
import Hush.Proofs.FileSystem.Access
import Hush.Proofs.Text.Decoding
import Hush.Proofs.Run.File
import Hush.Proofs.Run.Replacement
import Hush.Proofs.Run.Visits
import Hush.Proofs.Text.Insertion
import Hush.Proofs.Source.Readable
import Hush.Proofs.Run.SecondVisit
import Hush.Proofs.Run.Discovery
import Hush.Proofs.Run.Rerun
import Hush.Proofs.Run.Tally
import Hush.Proofs.FileSystem.Descent
import Hush.Proofs.FileSystem.JoinPath
import Hush.Proofs.Run.Compiled
import Hush.Proofs.Run.OneWrite
import Hush.Proofs.FileSystem.Ways
import Hush.Proofs.Run.Search
import Hush.Proofs.Diff.Trace
import Hush.Proofs.Diff.Script
import Hush.Proofs.Diff.Slide
import Hush.Proofs.Diff.Recorded
import Hush.Proofs.Diff.Settling
import Hush.Proofs.Diff.Block
import Hush.Proofs.Diff.Gather
import Hush.Proofs.Diff.Hunk
import Hush.Proofs.Diff.Sides
import Hush.Proofs.Diff.Context
import Hush.Proofs.Diff.Anchored
import Hush.Proofs.Diff.PrintedLine
import Hush.Proofs.Diff.Passage
import Hush.Proofs.Diff.Accounting
import Hush.Proofs.Diff.Numbering
import Hush.Proofs.Source.Joining
import Hush.Proofs.Line.Call
import Hush.Proofs.Source.Blanks
import Hush.Proofs.Run.Passes
import Hush.Proofs.Source.Report
import Hush.Proofs.Run.Notices
