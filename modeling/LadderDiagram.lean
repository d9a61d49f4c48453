import LadderDiagram.Command.Tool
import LadderDiagram.Encoding.Editor
import LadderDiagram.Layout.Registry
import LadderDiagram.Main
import LadderDiagram.Proofs.Command.Numbers
import LadderDiagram.Proofs.Command.Reload
import LadderDiagram.Proofs.Command.RoundTrip
import LadderDiagram.Proofs.Drawing.Commuting
import LadderDiagram.Proofs.Drawing.Engine
import LadderDiagram.Proofs.Drawing.Levels
import LadderDiagram.Proofs.Drawing.Removing
import LadderDiagram.Proofs.Drawing.Report
import LadderDiagram.Proofs.Drawing.Run
import LadderDiagram.Proofs.Drawing.Undoing
import LadderDiagram.Proofs.Editor.Anchor
import LadderDiagram.Proofs.Editor.Consistency
import LadderDiagram.Proofs.Editor.Failure
import LadderDiagram.Proofs.Editor.Frame
import LadderDiagram.Proofs.Editor.Pointing
import LadderDiagram.Proofs.Editor.Strips
import LadderDiagram.Proofs.Http.Loading
import LadderDiagram.Proofs.L5x.Content
import LadderDiagram.Proofs.L5x.Listing
import LadderDiagram.Proofs.Layout.History
import LadderDiagram.Proofs.Layout.Records
import LadderDiagram.Proofs.Layout.Recursion
import LadderDiagram.Proofs.Layout.Wiring
import LadderDiagram.Proofs.Routine.Run
import LadderDiagram.Proofs.Rung.Wrapping
import LadderDiagram.Proofs.RungText.ParseTree
import LadderDiagram.Proofs.Sequence.Grammar
import LadderDiagram.Proofs.Sequence.RailGaps
