import AttributeLint.Filter.Unread
import AttributeLint.Main
import AttributeLint.Proofs.Report.Unhandled
import AttributeLint.Rule.Session
import AttributeLint.Proofs.Filter.Breaks
import AttributeLint.Proofs.Syntax.Paths
import AttributeLint.Proofs.Pattern.Choices
import AttributeLint.Proofs.Pattern.Spelling
import AttributeLint.Proofs.Pattern.Moves
import AttributeLint.Proofs.Pattern.LineEnds
import AttributeLint.Proofs.Pattern.Attempts
import AttributeLint.Proofs.Pattern.Strict
import AttributeLint.Proofs.Pattern.Frames
import AttributeLint.Proofs.Pattern.Scopes
import AttributeLint.Proofs.Pattern.Ends
import AttributeLint.Proofs.Pattern.Peers
import AttributeLint.Proofs.Pattern.Twins
import AttributeLint.Proofs.Pattern.Alongside
import AttributeLint.Proofs.Pattern.Lockstep
import AttributeLint.Proofs.Pattern.Meaning
import AttributeLint.Proofs.Filter.SurfaceForms
import AttributeLint.Proofs.Filter.Rearranged
import AttributeLint.Proofs.Filter.FirstFault
import AttributeLint.Proofs.Pattern.Classes
import AttributeLint.Proofs.Filter.Duality
import AttributeLint.Proofs.Filter.Polarity
import AttributeLint.Proofs.Syntax.Akin
import AttributeLint.Proofs.Rule.SameReading
import AttributeLint.Proofs.Rule.Metadata
import AttributeLint.Proofs.Rule.KeyOrder
import AttributeLint.Proofs.Rule.History
import AttributeLint.Proofs.Rule.FirstRefusal
import AttributeLint.Proofs.Pattern.Words
import AttributeLint.Proofs.Filter.PlainText
import AttributeLint.Proofs.Json.Limits
import AttributeLint.Proofs.Files.Paths
import AttributeLint.Proofs.Report.ReadBack
import AttributeLint.Proofs.Syntax.TagText
import AttributeLint.Proofs.Syntax.Visits
import AttributeLint.Proofs.Pattern.Lexemes
import AttributeLint.Proofs.Number.Nearest
import AttributeLint.Proofs.Number.ShortestDecimal
import AttributeLint.Proofs.Syntax.ScriptText
