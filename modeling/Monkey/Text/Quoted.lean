import Monkey.Text.Unprintable

namespace Monkey.Text

def hexDigits (n : Nat) : String := String.ofList (Nat.toDigits 16 n)

def escape (c : Char) : String :=
  match c with
  | '"' => "\\\""
  | '\\' => "\\\\"
  | '\n' => "\\n"
  | '\r' => "\\r"
  | '\t' => "\\t"
  | '\x00' => "\\0"
  | c => if isUnprintable c then "\\u\x7b" ++ hexDigits c.toNat ++ "\x7d" else c.toString

def quote (s : String) : String := s.toList.foldl (fun out c => out ++ escape c) "\"" ++ "\""

end Monkey.Text
