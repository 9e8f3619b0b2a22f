import ExprTyping.Session.Loop

/-!
# A line editor

A line editor that knows three keys: one that ends a line, one that interrupts, and one that ends
the input. All others add to the line.
-/

namespace ExprTyping.KeyEvent

/-- The interrupt key as a character. -/
def interruptKey : Char := '\x03'

/-- The key that ends the input, as a character. -/
def endKey : Char := '\x04'

/-- The events of some typed text, where `reversed` is the line so far, last character first. An
interrupt drops the line; the end key counts only on an empty line. -/
def eventsFrom (reversed : Text) : Text → List KeyEvent
  | [] => if reversed.isEmpty then [.ended] else [.line reversed.reverse, .ended]
  | g :: t =>
    if g = .char '\n' || g = .char '\r' then .line reversed.reverse :: eventsFrom [] t
    else if g = .char interruptKey then .interrupt :: eventsFrom [] t
    else if g = .char endKey then
      if reversed.isEmpty then [.ended] else eventsFrom reversed t
    else eventsFrom (g :: reversed) t

/-- The events of some typed text. -/
def ofText (t : Text) : List KeyEvent :=
  eventsFrom [] t

/-- The first event of a line as a terminal hands it over; the line is empty at the end of the
input. -/
def ofLine (line : Text) : KeyEvent :=
  (ofText line).headD .ended

end ExprTyping.KeyEvent
