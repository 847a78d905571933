/-!
# Spans of program text

A span is a half-open range of byte offsets into the UTF-8 form of a program
text.  Spans come from the lexer and are merged as statements are built from
tokens, so that every error can name its place.

Offsets are not assumed to be in order: a token list may come from elsewhere,
and the length of a span whose end lies before its start is zero.
-/

namespace SlotLang

/-- The byte offsets from `start` up to, not including, `stop`. -/
structure Span where
  /-- Offset of the first byte. -/
  start : Nat
  /-- Offset just after the last byte. -/
  stop : Nat
deriving DecidableEq, Repr

namespace Span

/-- The number of bytes under a span. -/
def length (span : Span) : Nat :=
  span.stop - span.start

/-- The smallest span that covers both. -/
def hull (a b : Span) : Span where
  start := min a.start b.start
  stop := max a.stop b.stop

/-- The empty span at an offset. -/
def empty (offset : Nat) : Span where
  start := offset
  stop := offset

end Span

end SlotLang
