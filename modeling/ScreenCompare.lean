import ScreenCompare.Main
import ScreenCompare.Proofs.Canvas.Difference
import ScreenCompare.Proofs.Canvas.Overlay
import ScreenCompare.Proofs.Gate
import ScreenCompare.Proofs.LabelMap.FloodProgress
import ScreenCompare.Proofs.LabelMap.Harvest
import ScreenCompare.Proofs.LabelMap.MarkedComponent
import ScreenCompare.Proofs.Matching.Unchanged
import ScreenCompare.Proofs.Phase.Fork
import ScreenCompare.Proofs.Run.Outcome
import ScreenCompare.Proofs.Segment
import ScreenCompare.Proofs.Segmentation
import ScreenCompare.Proofs.Matching.FirstAvailable
import ScreenCompare.Proofs.Matching.FirstLeast
import ScreenCompare.Proofs.Matching.Symmetry
import ScreenCompare.Proofs.Descriptor.Binary
import ScreenCompare.Proofs.Matching.Hamming
import ScreenCompare.Proofs.LabelMap.FloodChange
import ScreenCompare.Proofs.LabelMap.FloodOrigin
import ScreenCompare.Proofs.LabelMap.FloodCoverage
import ScreenCompare.Proofs.LabelMap.FloodMirror
import ScreenCompare.Proofs.LabelMap.WaitingList
import ScreenCompare.Proofs.LabelMap.FloodRounds
import ScreenCompare.Proofs.LabelMap.FloodRenaming
import ScreenCompare.Proofs.Canvas.LastTouch
import ScreenCompare.Proofs.Canvas.BestPlace
import ScreenCompare.Proofs.Ridge
import ScreenCompare.Proofs.LabelMap.ClosedBorder
import ScreenCompare.Proofs.LabelMap.MarkerLabels
import ScreenCompare.Proofs.Descriptor.Selection
import ScreenCompare.Proofs.Descriptor.Window
import ScreenCompare.Proofs.Matching.SignatureDistance
import ScreenCompare.Proofs.Gate.Shares
import ScreenCompare.Proofs.Phase.Report
import ScreenCompare.Proofs.Phase.Nesting
import ScreenCompare.Proofs.CommandLine.Color
