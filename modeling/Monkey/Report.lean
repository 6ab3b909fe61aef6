import Monkey.LineTable
import Monkey.Session

namespace Monkey

/-- A text to be written and the exit status that goes with it. -/
structure Report where
  status : Nat
  text : String

namespace Report

def lines (ls : List String) : String := ls.foldl (fun text l => text ++ l ++ "\n") ""

def tokenLine (t : Token) : String :=
  t.kind.label ++ "(" ++ Text.quote t.literal ++ ") @ " ++ toString t.span

/-- Every token of the source. -/
def tokens (label source : String) : Report :=
  let ts := lex source
  ⟨0, lines (s!"Tokens for '{label}' ({ts.length} tokens):" :: ts.map fun t => "  " ++ tokenLine t)⟩

/-- An error with the line and column at which it is in the source of the table. -/
def errorLine (label source : String) (table : LineTable) (e : ParseError) : String :=
  let (line, column) := table.position source e.span.start
  s!"{label}:{line}:{column}: {e.message}"

def errorLines (label source : String) (errors : List ParseError) : List String :=
  let table := LineTable.ofString source
  errors.map (errorLine label source table)

/-- Every statement of the source in its written form, or the parse errors. -/
def statements (label source : String) : Report :=
  let parsed := parse source
  if parsed.errors.isEmpty then
    let ss := parsed.program.statements
    ⟨0, lines (s!"Parse result for '{label}' ({ss.length} statements):" :: ss.map fun s => "  " ++ s.render)⟩
  else
    ⟨1, lines (s!"Errors in '{label}':" :: (errorLines label source parsed.errors).map ("  " ++ ·))⟩

/-- What a run has to tell: the parse errors or the runtime error that it ended in. -/
def ofOutcome? (label source : String) : Outcome → Option Report
  | .parseErrors errors => some ⟨1, lines (errorLines label source errors)⟩
  | .value v => some (if v.isError then ⟨1, v.inspect ++ "\n"⟩ else ⟨0, ""⟩)
  | .noValue => some ⟨0, ""⟩
  | .unfinished => none

/-- Evaluates the source in the session, with none for a run that did not end. -/
def run? (s : Session) (label source : String) : Option Report × Session :=
  let (outcome, s) := s.evalSource source
  (ofOutcome? label source outcome, s)

end Report

end Monkey
