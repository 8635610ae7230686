import SharedGraph.SortedMap

/-! Serials order operations. Every site issues ascending serials for its own
operations; serials are texts compared as texts, and their issuers pad them so that
this is the order of issue. -/
namespace SharedGraph

structure Serial where
  text : String
  deriving DecidableEq, Repr

namespace Serial

instance : LT Serial := ⟨fun a b => a.text < b.text⟩

instance (a b : Serial) : Decidable (a < b) := inferInstanceAs (Decidable (a.text < b.text))

def isEmpty (serial : Serial) : Bool := serial.text.isEmpty

/-- An empty serial says as little as a missing one. -/
def effective (serial : Option Serial) : Option Serial := serial.filter fun given => !given.isEmpty

/-- Whether a write with the first serial replaces a write with the second. A write
without a serial never does, and one with a serial replaces any without. -/
def isNewer (written recorded : Option Serial) : Bool :=
  match effective written, effective recorded with
  | none, _ => false
  | some _, none => true
  | some new, some old => old < new

/-- The order of serials as a number: before, same or after. -/
def order (a b : Serial) : Int := if a < b then -1 else if b < a then 1 else 0

end Serial

/-- For each site the greatest serial that an object has accepted from it. -/
abbrev SiteSerials := SortedMap String Serial

namespace SiteSerials

/-- The gate: only what is newer than everything accepted from the site may pass, so
an operation that is delivered again is not applied again. -/
def admits (serials : SiteSerials) (site : String) (serial : Serial) : Bool :=
  match serials.get? site with
  | some accepted => accepted < serial
  | none => true

/-- Remembers an accepted serial. -/
def record (serials : SiteSerials) (site : String) (serial : Serial) : SiteSerials :=
  serials.insert site serial

end SiteSerials

end SharedGraph
