import Reckoner.Main
import Reckoner.Search.Bar
import Reckoner.Session.Request
import Reckoner.Session.Machine
import Reckoner.Proofs.Grammar.Phrase
import Reckoner.Proofs.Grammar.Reading
import Reckoner.Proofs.Decimal.Digits
import Reckoner.Proofs.Decimal.Value
import Reckoner.Proofs.Decimal.Rounding
import Reckoner.Proofs.Expr.Exact
import Reckoner.Proofs.Decimal.DigitText
import Reckoner.Proofs.Display.PlainText
import Reckoner.Proofs.Display.Grouped
import Reckoner.Proofs.Display.Stacks
import Reckoner.Proofs.Session.Finite
import Reckoner.Proofs.Console.Answer
import Reckoner.Proofs.Console.Run
import Reckoner.Proofs.Session.Exact
import Reckoner.Proofs.Token.Layout
import Reckoner.Proofs.Decimal.SquareRoot
import Reckoner.Proofs.Session.Log
import Reckoner.Proofs.Expr.Limit
import Reckoner.Proofs.Session.Limit
import Reckoner.Proofs.Console.Frame
import Reckoner.Proofs.Console.Assignment
import Reckoner.Proofs.Token.Spelling
import Reckoner.Proofs.Search.Complete
import Reckoner.Proofs.Grammar.Origin
import Reckoner.Proofs.Grammar.Naming
import Reckoner.Proofs.Grammar.Completion
import Reckoner.Proofs.Grammar.Neighbours
import Reckoner.Proofs.Token.Append
import Reckoner.Proofs.Token.Cut
import Reckoner.Proofs.Token.Joined
import Reckoner.Proofs.Unicode.Ascii
import Reckoner.Proofs.Unicode.Fold
import Reckoner.Proofs.Token.Canonical
import Reckoner.Proofs.Token.FirstFault
import Reckoner.Proofs.Token.CutOff
import Reckoner.Proofs.Session.Completion
import Reckoner.Proofs.Session.Line
import Reckoner.Proofs.Session.Names
import Reckoner.Search.Request
import Reckoner.Search.Machine
import Reckoner.Proofs.Search.InPlace
import Reckoner.Proofs.Search.Walk
import Reckoner.Proofs.Search.Cursor
import Reckoner.Proofs.Search.Echo
import Reckoner.Proofs.Search.Shown
import Reckoner.Proofs.Search.Marks
import Reckoner.Proofs.Search.Detected
import Reckoner.Proofs.Search.Live
import Reckoner.Proofs.Decimal.Magnitude
import Reckoner.Proofs.Decimal.Nearest
import Reckoner.Proofs.Expr.SameValue
import Reckoner.Proofs.Token.Written
import Reckoner.Proofs.Session.ReadBack
import Reckoner.Proofs.Session.Suggestion
import Reckoner.Proofs.Grammar.Course
import Reckoner.Proofs.Expr.Blame
import Reckoner.Proofs.Token.Blame
import Reckoner.Proofs.Grammar.Blame
import Reckoner.Proofs.Expr.Places
import Reckoner.Proofs.Grammar.Places
import Reckoner.Proofs.Session.Blame
import Reckoner.Proofs.Session.Spaced
import Reckoner.Proofs.Expr.Quotient
import Reckoner.Proofs.Decimal.Error
import Reckoner.Proofs.Decimal.Squaring
import Reckoner.Proofs.Expr.Power
import Reckoner.Proofs.Launch.Precision
import Reckoner.Proofs.Text.Utf8
import Reckoner.Outer.Lax
import Reckoner.Proofs.Settings.Document
import Reckoner.Proofs.Settings.Number
import Reckoner.Proofs.Settings.Scanning
import Reckoner.Proofs.Settings.Steps
import Reckoner.Proofs.Settings.Reading
import Reckoner.Proofs.Settings.Loading
import Reckoner.Proofs.Settings.Saving
import Reckoner.Proofs.Settings.Again
import Reckoner.Proofs.Display.SameText
import Reckoner.Proofs.Expr.Oversized
import Reckoner.Proofs.Expr.Overflow
import Reckoner.Proofs.Session.Oversized
import Reckoner.Proofs.Grammar.Room
import Reckoner.Proofs.Expr.Effort
import Reckoner.Proofs.Session.Machine
import Reckoner.Proofs.Grammar.Row
import Reckoner.Proofs.Grammar.RowReading
import Reckoner.Proofs.Search.Pattern
import Reckoner.Proofs.Search.Balance
