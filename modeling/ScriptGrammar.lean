import ScriptGrammar.Command
import ScriptGrammar.Comment
import ScriptGrammar.Main
import ScriptGrammar.Proofs.Consumption
import ScriptGrammar.Proofs.ErrorFlags
import ScriptGrammar.Proofs.Markup
import ScriptGrammar.Proofs.OperatorChains
import ScriptGrammar.Proofs.Options
import ScriptGrammar.Proofs.Precedence
import ScriptGrammar.Proofs.Ranges
import ScriptGrammar.Proofs.Scanner.Calls
import ScriptGrammar.Proofs.Scanner.Modes
import ScriptGrammar.Proofs.TreeShape
import ScriptGrammar.Scanner.Doc
import ScriptGrammar.Proofs.Scanner.Faithful
import ScriptGrammar.Proofs.Parse.Formed
import ScriptGrammar.Proofs.Parse.Stamps
import ScriptGrammar.Proofs.Forms
import ScriptGrammar.Proofs.ErrorCause
import ScriptGrammar.Proofs.Leaves
import ScriptGrammar.Proofs.Scanner.Pieces
import ScriptGrammar.Proofs.Scanner.Strings
import ScriptGrammar.Proofs.Scanner.Words
import ScriptGrammar.Proofs.Scanner.Signs
import ScriptGrammar.Proofs.Scanner.Patterns
import ScriptGrammar.Proofs.Scanner.LineBreaks
import ScriptGrammar.Proofs.Scanner.Numbers
import ScriptGrammar.Proofs.Repeats
import ScriptGrammar.Proofs.Comments
import ScriptGrammar.Proofs.Scanner.Markers
import ScriptGrammar.Proofs.Scanner.Window
import ScriptGrammar.Proofs.Comments.LineEnds
import ScriptGrammar.Proofs.Scanner.Content
import ScriptGrammar.Proofs.Scanner.TagNames
import ScriptGrammar.Proofs.Scanner.DocTokens
import ScriptGrammar.Proofs.Scanner.DocTags
import ScriptGrammar.Proofs.Brackets
import ScriptGrammar.Proofs.Holes
import ScriptGrammar.Proofs.Interpolation
