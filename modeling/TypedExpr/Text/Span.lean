/-!
# Spans of text

A span counts characters, so that an offset points at the place a reader of the text sees.
Byte positions, which a renderer of the source needs, are computed from it.
-/

namespace TypedExpr

/-- A stretch of text: the position of its first character and its number of characters. -/
structure Span where
  start : Nat
  length : Nat
  deriving DecidableEq, Repr

namespace Span

/-- The position just past the span. -/
def stop (s : Span) : Nat := s.start + s.length

/-- The span covers no character. -/
def isEmpty (s : Span) : Bool := s.length == 0

/-- The byte position of a character position; past the end it is the number of bytes. -/
def byteOffset (text : String) (pos : Nat) : Nat :=
  (text.toList.take pos).foldl (fun n c => n + c.utf8Size) 0

/-- The bytes that a span covers in `text`, clamped to the text. -/
def byteRange (s : Span) (text : String) : Nat × Nat :=
  (byteOffset text s.start, byteOffset text s.stop)

def interval (s : Span) : String := "[" ++ toString s.start ++ ".." ++ toString s.stop ++ ")"

end Span
end TypedExpr
