/-!
Instants and windows of time, in milliseconds since 1970.
-/

namespace Carpark

abbrev Ms := Int

def minute : Ms := 60000

def hour : Ms := 60 * minute

structure Span where
  start : Ms
  stop : Ms
  deriving DecidableEq, Repr

namespace Span

def duration (s : Span) : Ms := s.stop - s.start

def overlaps (a b : Span) : Bool := a.start < b.stop && b.start < a.stop

def covers (s : Span) (t : Ms) : Bool := s.start ≤ t && t ≤ s.stop

end Span

end Carpark
