import Monkey.Repl
import Monkey.Report

namespace Monkey

namespace CommandLine

def version : String := "Monkey 0.1.0"

def usage : String :=
  Report.lines [
    "Monkey interpreter",
    "",
    "Usage: monkey [command] [options]",
    "",
    "Commands:",
    "  repl                 Start the interactive REPL (default)",
    "  run <file.mk>        Evaluate a Monkey program",
    "  lex <file.mk>        Tokenize and display tokens",
    "  parse <file.mk>      Parse and display each statement",
    "  help                 Show this help message",
    "  version              Show version information",
    "",
    "Environment:",
    "  MONKEY_LOG, RUST_LOG Tracing filter, e.g. monkey_eval=debug",
    "",
    "Examples:",
    "  monkey",
    "  monkey run fib.mk",
    "  monkey fib.mk",
    "  MONKEY_LOG=monkey_parse=trace monkey parse fib.mk"]

/-- Commands that take a file. -/
inductive FileCommand where
  | run | lex | parse
  deriving DecidableEq

def FileCommand.name : FileCommand → String
  | .run => "run"
  | .lex => "lex"
  | .parse => "parse"

inductive Command where
  | repl
  | file (command : FileCommand) (path : String)
  /-- The command takes a file, and none was given. -/
  | noFile (command : FileCommand)
  | help
  | version
  | unknown (word : String)
  deriving DecidableEq

/-- The last part of a path, if it can name a file. -/
def fileName? (path : String) : Option (List Char) :=
  let parts := (path.toList.splitOn '/').filter fun part => part != [] && part != ['.']
  match parts.getLast? with
  | some ['.', '.'] => none
  | last => last

/-- What follows the last dot of a path's last part. A dot in front does not count. -/
def extension? (path : String) : Option (List Char) :=
  match fileName? path with
  | none => none
  | some name =>
    let after := name.reverse.takeWhile (· != '.')
    if after.length + 1 < name.length then some after.reverse else none

/-- Whether a path is that of a program by its extension, in capitals or not. -/
def isProgramPath (path : String) : Bool :=
  (extension? path).any fun e => e.map Char.toLower == ['m', 'k']

def Command.ofFile (command : FileCommand) : List String → Command
  | path :: _ => .file command path
  | [] => .noFile command

def Command.ofArguments : List String → Command
  | [] | "repl" :: _ => .repl
  | "run" :: rest => .ofFile .run rest
  | "lex" :: rest => .ofFile .lex rest
  | "parse" :: rest => .ofFile .parse rest
  | "help" :: _ | "--help" :: _ | "-h" :: _ => .help
  | "version" :: _ | "--version" :: _ | "-V" :: _ => .version
  | word :: _ => if isProgramPath word then .file .run word else .unknown word

/-- What a path leads to. -/
inductive FileContent where
  | missing
  | unreadable (reason : String)
  | bytes (content : ByteArray)

/-- What keeps a command from being carried out. -/
inductive Failure where
  | missing (path : String)
  | notText (path : String)
  | unreadable (path reason : String)
  | stream (e : StreamError)
  | unfinished
  deriving DecidableEq

def Failure.message : Failure → String
  | .missing path => s!"cannot find file '{path}'"
  | .notText path => s!"'{path}' contains invalid UTF-8 data"
  | .unreadable path reason => s!"error reading '{path}': {reason}"
  | .stream e => e.message
  | .unfinished => "evaluation did not finish"

def readSource (path : String) : FileContent → Except Failure String
  | .missing => .error (.missing path)
  | .unreadable reason => .error (.unreadable path reason)
  | .bytes content =>
    match String.fromUTF8? content with
    | some source => .ok source
    | none => .error (.notText path)

/-- What a command has written when it is over, and its exit code. -/
structure Result where
  code : Nat := 0
  out : String := ""
  err : String := ""

namespace Result

def failed (f : Failure) (out : String) : Result := ⟨1, out, "error: " ++ f.message ++ "\n"⟩

end Result

def runFile (path source : String) : Result :=
  let (report, s) := Report.run? (.new .stdout) path source
  let out := s.state.printer.written
  match report with
  | some r => ⟨r.status, out, r.text⟩
  | none => .failed .unfinished out

def FileCommand.execute (command : FileCommand) (path : String) (content : FileContent) : Result :=
  match readSource path content with
  | .error f => .failed f ""
  | .ok source =>
    match command with
    | .run => runFile path source
    | .lex => { out := (Report.tokens path source).text }
    | .parse => let r := Report.statements path source; { code := r.status, out := r.text }

def greeting : String := version ++ " (ctrl-d to exit)\n"

/-- The reply to a line of a dialogue on the terminal, where printed text comes before the value. -/
def replyTo (s : Session) (line : String) : Except Failure Result × Session :=
  let (r, s) := Repl.answer? s line
  let (printed, s) := s.takePrinted
  match r with
  | some r => (.ok { out := printed ++ Report.lines r.values ++ Repl.prompt, err := Report.lines r.errors }, s)
  | none => (.error .unfinished, s)

/-- The whole dialogue on the terminal, after what was written before. -/
def terminal (s : Session) (before : Result) : List Repl.Line → Result
  | [] => { before with out := before.out ++ "\n" }
  | none :: _ => ⟨1, before.out, before.err ++ "error: " ++ (Failure.stream .notText).message ++ "\n"⟩
  | some line :: rest =>
    match replyTo s line with
    | (.ok r, s) => terminal s ⟨0, before.out ++ r.out, before.err ++ r.err⟩ rest
    | (.error f, _) => ⟨1, before.out, before.err ++ "error: " ++ f.message ++ "\n"⟩

/-- What a command writes, given what each path leads to and the whole input. -/
def execute (files : String → FileContent) (input : ByteArray) : Command → Result
  | .repl => terminal (.new .stdout) { out := greeting ++ Repl.prompt } (Repl.linesOf input)
  | .file command path => command.execute path (files path)
  | .noFile command => { code := 1, err := s!"Usage: monkey {command.name} <file.mk>\n" }
  | .help => { out := usage }
  | .version => { out := version ++ "\n" }
  | .unknown word => { code := 1, out := usage, err := s!"Unknown command: {word}\n\n" }

end CommandLine

end Monkey
