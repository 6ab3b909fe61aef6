import Monkey.Printer
import Monkey.RuntimeError

namespace Monkey

namespace Builtin

/-- Applies `f` to the one argument of `b`, which has to be an array. -/
def withArray (b : Builtin) (arguments : List Value) (f : List Value → Value) : Except RuntimeError Value :=
  match arguments with
  | [.array _ vs] => .ok (f vs)
  | [v] => .error (.argumentNotArray b.name v.kind)
  | _ => .error (.builtinArgumentCount arguments.length 1)

/-- The result of `b`; a new array gets the identity `fresh`. The length of a string is in bytes.
No argument changes. -/
def result (b : Builtin) (fresh : Identity) (arguments : List Value) : Except RuntimeError Value :=
  match b with
  | .len =>
    match arguments with
    | [.str _ s] => .ok (.int (.ofNat s.utf8ByteSize))
    | [.array _ vs] => .ok (.int (.ofNat vs.length))
    | [v] => .error (.argumentNotSupported b.name v.kind)
    | _ => .error (.builtinArgumentCount arguments.length 1)
  | .puts => .ok .null
  | .first => b.withArray arguments fun vs => vs.head?.getD .null
  | .last => b.withArray arguments fun vs => vs.getLast?.getD .null
  | .rest => b.withArray arguments fun
    | [] => .null
    | _ :: vs => .array fresh vs
  | .push =>
    match arguments with
    | [.array _ vs, v] => .ok (.array fresh (vs ++ [v]))
    | [v, _] => .error (.argumentNotArray b.name v.kind)
    | _ => .error (.builtinArgumentCount arguments.length 2)

/-- What is printed: by `puts` a line for each argument, by the others nothing. -/
def print (b : Builtin) (arguments : List Value) (printer : Printer) : Printer :=
  match b with
  | .puts => arguments.foldl (fun p v => p.println v.inspect) printer
  | _ => printer

end Builtin

end Monkey
