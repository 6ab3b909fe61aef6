import Monkey.Session
import Monkey.Sink

namespace Monkey

namespace Repl

def prompt : String := ">> "

/-- A line of input, if it is text. -/
abbrev Line := Option String

/-- The bytes of a line without the carriage return that may stand before its line feed. -/
def endLine : List UInt8 → List UInt8
  | 13 :: reversed => reversed.reverse
  | reversed => reversed.reverse

def decode (bytes : List UInt8) : Line := String.fromUTF8? ⟨bytes.toArray⟩

/-- Cuts the bytes after each line feed. `reversed` holds those since the last one. Without a line feed
at its end, a last line keeps a carriage return. -/
def cutLines (lines : Array Line) (reversed : List UInt8) : List UInt8 → List Line
  | [] => (if reversed.isEmpty then lines else lines.push (decode reversed.reverse)).toList
  | 10 :: bytes => cutLines (lines.push (decode (endLine reversed))) [] bytes
  | b :: bytes => cutLines lines (b :: reversed) bytes

def linesOf (input : ByteArray) : List Line := cutLines #[] [] input.data.toList

/-- What a line brings: the lines for the error stream, then those for the output. -/
structure Reply where
  errors : List String := []
  values : List String := []

def Reply.ofOutcome? : Outcome → Option Reply
  | .parseErrors errors => some { errors := errors.map (·.message) }
  | .value v => some { values := [v.inspect] }
  | .noValue => some {}
  | .unfinished => none

/-- Evaluates a line, with no reply if that did not end. -/
def answer? (s : Session) (line : String) : Option Reply × Session :=
  let (outcome, s) := s.evalSource line
  (Reply.ofOutcome? outcome, s)

/-- What ends a dialogue before its input ends. -/
inductive Stop where
  | stream (e : StreamError)
  /-- A line was still under way when the budget for it was used up. -/
  | unfinished
  deriving DecidableEq

/-- The session with its two streams. -/
structure State where
  session : Session
  out : Sink := {}
  err : Sink := {}

abbrev Dialogue := ExceptT Stop (StateM State)

def ofWritten : Except StreamError Unit → Dialogue Unit
  | .ok () => pure ()
  | .error e => throw (.stream e)

def writeOut (text : String) : Dialogue Unit := do
  ofWritten (← modifyGet fun s =>
    let (r, out) := s.out.write text
    (r, { s with out }))

def writeErr (text : String) : Dialogue Unit := do
  ofWritten (← modifyGet fun s =>
    let (r, err) := s.err.write text
    (r, { s with err }))

def reply (line : String) : Dialogue Reply := do
  let r ← modifyGet fun s =>
    let (r, session) := answer? s.session line
    (r, { s with session })
  match r with
  | some r => return r
  | none => throw .unfinished

def respond : List Line → Dialogue Unit
  | [] => writeOut "\n"
  | none :: _ => throw (.stream .notText)
  | some line :: rest => do
    let r ← reply line
    r.errors.forM fun e => writeErr (e ++ "\n")
    r.values.forM fun v => writeOut (v ++ "\n")
    writeOut prompt
    respond rest

/-- The dialogue over the whole input. -/
def dialogue (input : ByteArray) : Dialogue Unit := do
  writeOut prompt
  respond (linesOf input)

/-- Runs the dialogue, with what ended it early if something did. -/
def run (input : ByteArray) (s : State) : Except Stop Unit × State := (dialogue input).run s

end Repl

end Monkey
