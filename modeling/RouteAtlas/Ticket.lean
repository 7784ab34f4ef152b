/-!
# Scan tickets

A project may be scanned again while an earlier scan still runs. Each scan takes a ticket before it
starts, and a result counts only if no later scan has been accepted, so a slow scan never replaces a
fresher catalogue.
-/

namespace RouteAtlas

/-- The number of a scan, in order of starting. -/
structure Ticket where
  generation : UInt64
deriving DecidableEq, Repr

/-- How many scans were started, and the latest one whose result was accepted. -/
structure TicketOffice where
  issued : UInt64 := 0
  accepted : UInt64 := 0
deriving DecidableEq, Repr, Inhabited

namespace TicketOffice

/-- Starts a scan. -/
def issue (o : TicketOffice) : Ticket × TicketOffice :=
  (⟨o.issued + 1⟩, { o with issued := o.issued + 1 })

/-- Hands in a finished scan. The answer is whether its result counts. -/
def accept (o : TicketOffice) (t : Ticket) : Bool × TicketOffice :=
  (o.accepted < t.generation, { o with accepted := max o.accepted t.generation })

end TicketOffice

end RouteAtlas
