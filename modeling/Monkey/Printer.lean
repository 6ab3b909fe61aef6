namespace Monkey

inductive Printer.Target where
  | stdout | buffer | silent
  deriving DecidableEq, Inhabited

structure Printer where
  target : Printer.Target
  /-- All that has gone to the target. -/
  written : String := ""
  deriving Inhabited

namespace Printer

def println (p : Printer) (line : String) : Printer :=
  match p.target with
  | .silent => p
  | _ => { p with written := p.written ++ line ++ "\n" }

/-- What was kept of the printed lines: only a buffer keeps them. -/
def captured (p : Printer) : String :=
  match p.target with
  | .buffer => p.written
  | _ => ""

def clear (p : Printer) : Printer :=
  match p.target with
  | .buffer => { p with written := "" }
  | _ => p

end Printer

end Monkey
