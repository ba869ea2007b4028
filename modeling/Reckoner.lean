import Reckoner.FullScreen.Event
import Reckoner.FullScreen.Screen
import Reckoner.Main
import Reckoner.Proofs.Evaluation.Acceptance
import Reckoner.Proofs.Evaluation.Declarations
import Reckoner.Proofs.Evaluation.Parentheses
import Reckoner.Proofs.Evaluation.Policies
import Reckoner.Proofs.FrontEnds
import Reckoner.Proofs.Token.Separation
import Reckoner.Proofs.Number.Binary64
import Reckoner.Proofs.Number.Shortest
import Reckoner.Proofs.Token.Lexeme
import Reckoner.Proofs.Token.Printing
import Reckoner.Proofs.Token.Decomposition
import Reckoner.Proofs.Token.FaultPlaces
import Reckoner.Proofs.Token.Pieces
import Reckoner.Proofs.Token.PieceReading
import Reckoner.Proofs.Respacing
import Reckoner.Proofs.Spacing
import Reckoner.Proofs.Evaluation.Dependence
import Reckoner.Proofs.Assignment
import Reckoner.Proofs.Evaluation.Repetition
import Reckoner.Proofs.Requests
import Reckoner.Proofs.Details
import Reckoner.Proofs.Evaluation.Locality
import Reckoner.Proofs.TableHistory
import Reckoner.Proofs.InputLine
import Reckoner.Proofs.FullScreen.Paging
import Reckoner.Proofs.FullScreen.Consistency
import Reckoner.Proofs.FullScreen.HistoryBox
import Reckoner.Proofs.FullScreen.Wheel
import Reckoner.Proofs.FullScreen.InputCursor
import Reckoner.Proofs.SplitLine
import Reckoner.Proofs.Evaluation.ErrorPlaces
import Reckoner.Proofs.Evaluation.StepCount
import Reckoner.Proofs.ResultLine
import Reckoner.Proofs.Display
import Reckoner.Proofs.ConsoleInput
import Reckoner.Proofs.TypedText
import Reckoner.Proofs.Highlight.Parts
import Reckoner.Proofs.FullScreen.InputWindow
import Reckoner.Proofs.FullScreen.InputColours
import Reckoner.Proofs.Keyword
import Reckoner.Proofs.WordStarts
import Reckoner.Proofs.Recalls
import Reckoner.Proofs.FullScreen.HelpOffset
import Reckoner.Proofs.Evaluation.Frames
