namespace Monkey

/-- What can go wrong with a stream. -/
inductive StreamError where
  /-- There was no room for all that was written. -/
  | full
  /-- What was read is no UTF-8. -/
  | notText
  deriving DecidableEq

def StreamError.message : StreamError → String
  | .full => "i/o error: sink full"
  | .notText => "i/o error: stream did not contain valid UTF-8"

structure Sink where
  /-- The number of bytes that there is room for, if that is limited. -/
  limit : Option Nat := none
  bytes : ByteArray := .empty

/-- Writes the text, or as much of it as there is room for. -/
def Sink.write (s : Sink) (text : String) : Except StreamError Unit × Sink :=
  let new := text.toUTF8
  match s.limit with
  | none => (.ok (), { s with bytes := s.bytes ++ new })
  | some limit =>
    let room := limit - s.bytes.size
    if new.size ≤ room then (.ok (), { s with bytes := s.bytes ++ new })
    else (.error .full, { s with bytes := s.bytes ++ new.extract 0 room })

end Monkey
