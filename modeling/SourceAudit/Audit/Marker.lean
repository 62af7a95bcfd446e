/-!
Work markers: the letters `todo` in any case, wherever they stand.
-/

namespace SourceAudit.Audit

/-- Whether a text begins with a work marker. -/
def startsMarker : List Char → Bool
  | a :: b :: c :: d :: _ =>
    a.toLower = 't' && b.toLower = 'o' && c.toLower = 'd' && d.toLower = 'o'
  | _ => false

/-- Number of work markers, searched from left to right; a marker that is counted is stepped over
before the next one is searched. The first argument is the number of characters still to be stepped
over. -/
def countMarkersFrom : Nat → List Char → Nat
  | _, [] => 0
  | skip + 1, _ :: cs => countMarkersFrom skip cs
  | 0, c :: cs =>
    if startsMarker (c :: cs) then countMarkersFrom 3 cs + 1 else countMarkersFrom 0 cs

/-- Number of work markers of a text. -/
def countMarkers (text : List Char) : Nat := countMarkersFrom 0 text

end SourceAudit.Audit
