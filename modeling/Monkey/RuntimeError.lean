import Monkey.Value

namespace Monkey

inductive RuntimeError where
  | unknownName (name : String)
  | notAFunction (kind : Kind)
  /-- A function that was written in the program got the wrong number of arguments. -/
  | argumentCount (want got : Nat)
  | typeMismatch (left : Kind) (op : BinaryOp) (right : Kind)
  | unknownBinary (left : Kind) (op : BinaryOp) (right : Kind)
  | unknownUnary (op : UnaryOp) (operand : Kind)
  | divisionByZero
  /-- The result of the integer operation has no room. -/
  | overflow (operation : String)
  | notAKey (kind : Kind)
  | notIndexable (kind : Kind)
  | builtinArgumentCount (got want : Nat)
  | argumentNotSupported (function : String) (kind : Kind)
  | argumentNotArray (function : String) (kind : Kind)
  deriving DecidableEq

def RuntimeError.message : RuntimeError → String
  | .unknownName name => s!"identifier not found: {name}"
  | .notAFunction kind => s!"not a function: {kind.name}"
  | .argumentCount want got => s!"wrong number of arguments: want={want}, got={got}"
  | .typeMismatch left op right => s!"type mismatch: {left.name} {op.symbol} {right.name}"
  | .unknownBinary left op right => s!"unknown operator: {left.name} {op.symbol} {right.name}"
  | .unknownUnary op operand => s!"unknown operator: {op.symbol}{operand.name}"
  | .divisionByZero => "division by zero"
  | .overflow operation => s!"integer overflow in {operation}"
  | .notAKey kind => s!"unusable as hash key: {kind.name}"
  | .notIndexable kind => s!"index operator not supported: {kind.name}"
  | .builtinArgumentCount got want => s!"wrong number of arguments. got={got}, want={want}"
  | .argumentNotSupported function kind => s!"argument to `{function}` not supported, got {kind.name}"
  | .argumentNotArray function kind => s!"argument to `{function}` must be ARRAY, got {kind.name}"

end Monkey
