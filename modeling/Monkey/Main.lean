import Monkey.CommandLine

namespace Monkey.CommandLine

def contentOf (path : String) : IO FileContent := do
  try return .bytes (← IO.FS.readBinFile path)
  catch
    | .noFileOrDirectory .. => return .missing
    | .inappropriateType _ code details => return .unreadable s!"{details} (os error {code})"
    | e => return .unreadable (toString e)

def write (r : Result) : IO Unit := do
  let out ← IO.getStdout
  let err ← IO.getStderr
  out.putStr r.out
  out.flush
  err.putStr r.err
  err.flush

/-- Reads up to a line feed or the end of input. -/
partial def readLine (input : IO.FS.Stream) (line : ByteArray) : IO ByteArray := do
  let b ← input.read 1
  if b.isEmpty then return line
  else if b[0]? == some 10 then return line ++ b
  else readLine input (line ++ b)

/-- Answers the lines of the input one by one. -/
partial def converse (input : IO.FS.Stream) (s : Session) : IO UInt32 := do
  match Repl.linesOf (← readLine input .empty) with
  | [] =>
    write { out := "\n" }
    return 0
  | none :: _ =>
    write (.failed (.stream .notText) "")
    return 1
  | some line :: _ =>
    match replyTo s line with
    | (.ok r, s) =>
      write r
      converse input s
    | (.error f, _) =>
      write (.failed f "")
      return 1

end Monkey.CommandLine

open Monkey CommandLine

def main (arguments : List String) : IO UInt32 := do
  match Command.ofArguments arguments with
  | .repl =>
    write { out := greeting ++ Repl.prompt }
    converse (← IO.getStdin) (.new .stdout)
  | .file command path =>
    let r := command.execute path (← contentOf path)
    write r
    return r.code.toUInt32
  | command =>
    let r := execute (fun _ => .missing) .empty command
    write r
    return r.code.toUInt32
