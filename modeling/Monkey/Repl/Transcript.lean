import Monkey.Repl

namespace Monkey

namespace Repl

/-- The streams that a dialogue writes to. What a program prints goes to neither. -/
inductive Channel where
  | out | err
  deriving DecidableEq

structure Write where
  channel : Channel
  text : String

/-- All that goes to the channel. -/
def textOn (c : Channel) : List Write → String
  | [] => ""
  | w :: ws => if w.channel = c then w.text ++ textOn c ws else textOn c ws

structure Transcript where
  writes : List Write := []
  /-- The session at the end. -/
  session : Session
  /-- What ended the dialogue before its input ended. -/
  stop : Option Stop := none

namespace Transcript

/-- All that is written to the channel. -/
def text (t : Transcript) (c : Channel) : String := textOn c t.writes

/-- How the dialogue ends. -/
def outcome (t : Transcript) : Except Stop Unit :=
  match t.stop with
  | none => .ok ()
  | some stop => .error stop

/-- The transcript with writes before all others. -/
def after (ws : List Write) (t : Transcript) : Transcript := { t with writes := ws ++ t.writes }

end Transcript

/-- The bytes of a line that a line feed ends, without a carriage return before that. -/
def withoutReturn (bytes : List UInt8) : List UInt8 :=
  if bytes.getLast? = some 13 then bytes.dropLast else bytes

/-- The lines in the pieces between line feeds. No line feed ends the last piece, which is no line if it is empty. -/
def linesOfPieces : List (List UInt8) → List Line
  | [] => []
  | [last] => if last = [] then [] else [String.fromUTF8? ⟨last.toArray⟩]
  | piece :: pieces => String.fromUTF8? ⟨(withoutReturn piece).toArray⟩ :: linesOfPieces pieces

def inputLines (input : ByteArray) : List Line := linesOfPieces (input.data.toList.splitOn 10)

/-- What is written after a prompt, given the lines to come: each line is evaluated in the session that the line before
it leaves, and then its value or its parse errors are written, and the next prompt. -/
def Transcript.ofLines (s : Session) : List Line → Transcript
  | [] => { writes := [⟨.out, "\n"⟩], session := s }
  | none :: _ => { session := s, stop := some (.stream .notText) }
  | some line :: rest =>
    match s.evalSource line with
    | (.value v, s) => (ofLines s rest).after [⟨.out, v.inspect ++ "\n"⟩, ⟨.out, ">> "⟩]
    | (.noValue, s) => (ofLines s rest).after [⟨.out, ">> "⟩]
    | (.parseErrors errors, s) =>
      (ofLines s rest).after (errors.map (fun e => ⟨.err, e.message ++ "\n"⟩) ++ [⟨.out, ">> "⟩])
    | (.unfinished, s) => { session := s, stop := some .unfinished }

/-- All that is written for an input. -/
def transcript (input : ByteArray) (s : Session) : Transcript :=
  (Transcript.ofLines s (inputLines input)).after [⟨.out, ">> "⟩]

end Repl

end Monkey
