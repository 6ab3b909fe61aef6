namespace Monkey

/-- The bytes from `start` up to and without `stop`. -/
structure Span where
  start : Nat
  stop : Nat
  deriving DecidableEq, Inhabited

namespace Span

/-- The largest offset that a span can hold. -/
def maxOffset : Nat := UInt32.size - 1

/-- The span of a byte range. Offsets that are too large are held at the largest one. -/
def ofRange (start stop : Nat) : Span := ⟨min start maxOffset, min stop maxOffset⟩

/-- The empty span at an offset. -/
def point (offset : Nat) : Span := ⟨offset, offset⟩

/-- The span of a node that stands in no source text. -/
def origin : Span := ⟨0, 0⟩

def isEmpty (s : Span) : Bool := s.start == s.stop

/-- The number of bytes covered. -/
def length (s : Span) : Nat := s.stop - s.start

/-- The smallest span that covers both. -/
def merge (s t : Span) : Span := ⟨min s.start t.start, max s.stop t.stop⟩

protected def toString (s : Span) : String := s!"{s.start}..{s.stop}"

instance : ToString Span := ⟨Span.toString⟩

@[simp] theorem merge_start (s t : Span) : (s.merge t).start = min s.start t.start := rfl

@[simp] theorem merge_stop (s t : Span) : (s.merge t).stop = max s.stop t.stop := rfl

end Span

end Monkey
