import Monkey.Grammar
import Monkey.Main
import Monkey.Plain
import Monkey.Repl.Transcript
import Monkey.Syntax.Spans
import Monkey.Syntax.WellFormed
import Monkey.Proofs.Ensures
import Monkey.Proofs.Tokens
import Monkey.Proofs.ParserCost
import Monkey.Proofs.ProductionCost
import Monkey.Proofs.ParserTotal
import Monkey.Proofs.Lookahead
import Monkey.Proofs.SoundExpressions
import Monkey.Proofs.GrammarSound
import Monkey.Proofs.NodeErasure
import Monkey.Proofs.Arrives
import Monkey.Proofs.AcceptsExpressions
import Monkey.Proofs.GrammarComplete
import Monkey.Proofs.Scanning
import Monkey.Proofs.WrittenExpressions
import Monkey.Proofs.WrittenForm
import Monkey.Proofs.PlainData
import Monkey.Proofs.PlainEvaluation
import Monkey.Proofs.PlainValues
import Monkey.Proofs.ScopeWrites
import Monkey.Proofs.Signals
import Monkey.Proofs.EnvironmentChains
import Monkey.Proofs.LexicalScoping
import Monkey.Proofs.LongestMatch
import Monkey.Tiling
import Monkey.Proofs.Tiling
import Monkey.Proofs.SurvivingPrograms
import Monkey.Proofs.Dialogues
import Monkey.Proofs.Layout
import Monkey.Store.Beside
import Monkey.Balance
import Monkey.Pieces
import Monkey.Proofs.Accounts
import Monkey.Proofs.BalancedReads
import Monkey.Proofs.ClearedEvaluation
import Monkey.Proofs.Clearing
import Monkey.Proofs.DroppedStatements
import Monkey.Proofs.ErrorPositions
import Monkey.Proofs.LexingPieces
import Monkey.Proofs.ParsingPieces
import Monkey.Proofs.ClosedBlocks
import Monkey.Proofs.NodeRows
import Monkey.Proofs.NestedSpans
import Monkey.Proofs.Positions
import Monkey.Proofs.HashLiterals
import Monkey.Proofs.ExactArithmetic
import Monkey.Proofs.Chunks
import Monkey.Proofs.Equality
import Monkey.Proofs.ParsingEnds
import Monkey.Proofs.LazyViews
import Monkey.Proofs.OperatorLoop
