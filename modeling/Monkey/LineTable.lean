import Monkey.Rank
import Monkey.Span

namespace Monkey

/-- The byte offsets at which the lines of a text start, in ascending order. Lines are ended by line feeds. -/
structure LineTable where
  starts : Array Nat

namespace LineTable

/-- Goes through so many bytes of the text from the offset on. -/
@[specialize] def foldBytes {α : Type} (step : α → Nat → UInt8 → α) (source : String) (found : α) (offset : Nat) :
    (count : Nat) → offset + count ≤ source.utf8ByteSize → α
  | 0, _ => found
  | count + 1, within =>
    let byte := source.getUTF8Byte ⟨offset⟩ (by simp [String.Pos.Raw.lt_iff]; omega)
    foldBytes step source (step found offset byte) (offset + 1) count (by omega)

/-- A line starts behind a line feed. A start that is too large for a span is held at the largest offset. -/
@[inline] def addStart (starts : Array Nat) (offset : Nat) (byte : UInt8) : Array Nat :=
  if byte = 10 then starts.push (min (offset + 1) Span.maxOffset) else starts

def ofString (source : String) : LineTable := ⟨foldBytes addStart source #[0] 0 source.utf8ByteSize (by omega)⟩

def lineCount (t : LineTable) : Nat := t.starts.size

/-- The number of the line or character that comes after so many others, in 32 bits. A count that these cannot hold is
taken for the last but one number before one is added. -/
def ordinal (count : Nat) : UInt32 := (if count < UInt32.size then .ofNat count else .ofNat (UInt32.size - 2)) + 1

/-- The line of an offset, from 1: the last one that starts at or before it. -/
def lineAt (t : LineTable) (offset : Nat) : UInt32 := ordinal (rank t.starts offset - 1)

@[inline] def addCharacter (count _offset : Nat) (byte : UInt8) : Nat :=
  if byte.IsUTF8FirstByte then count + 1 else count

/-- The number of characters from the one offset to the other, or zero if there is no text between them. -/
def charactersBetween (source : String) (start stop : Nat) : Nat :=
  if text : start ≤ stop ∧ stop ≤ source.utf8ByteSize ∧
      (String.Pos.Raw.mk start).isValid source ∧ (String.Pos.Raw.mk stop).isValid source then
    foldBytes addCharacter source 0 start (stop - start) (by omega)
  else 0

/-- Line and column, both from 1, of an offset in the source that the table was made of. Columns count characters.
Beyond the end the column is that of the end, and inside a character it is 1. -/
def position (t : LineTable) (source : String) (offset : Nat) : UInt32 × UInt32 :=
  let line := t.lineAt offset
  let start := t.starts.getD (line - 1).toNat 0
  (line, ordinal (charactersBetween source start (min offset source.utf8ByteSize)))

end LineTable

end Monkey
