import ExprTyping.Session.Basic

/-!
# The read loop

A session is fed from a keyboard line by line. An expression may take several lines: as long as
it goes on, its lines are kept in a buffer. An interrupt clears the buffer, and ends the loop if
there is nothing to clear. How keys are made into lines and interrupts is up to a line editor, so
the loop starts from the events that it gives.
-/

namespace ExprTyping

/-- What a line editor gives. -/
inductive KeyEvent where
  /-- A line. -/
  | line (t : Text)
  /-- The interrupt key. -/
  | interrupt
  /-- The end of the input. -/
  | ended
  deriving DecidableEq, Repr

/-- What was printed. -/
structure Printed where
  /-- The results. -/
  out : Text
  /-- The notices on the standard error, in the order in which they are written. -/
  err : List Notice

namespace Printed

/-- Nothing. -/
def nothing : Printed := ⟨[], []⟩

instance : Inhabited Printed := ⟨nothing⟩

instance : Append Printed := ⟨fun a b => ⟨a.out ++ b.out, a.err ++ b.err⟩⟩

end Printed

/-- The state of the loop between events. -/
structure Loop where
  /-- The session. -/
  session : Session
  /-- The lines of an expression that goes on. -/
  buffer : Text

namespace Loop

/-- What an event led to. -/
structure Turn where
  /-- The loop after it. -/
  loop : Loop
  /-- What was printed. -/
  printed : Printed
  /-- Whether the loop ends. -/
  ends : Bool

/-- A loop that has read nothing yet. -/
def start (s : Session) : Loop := ⟨s, []⟩

/-- Whether some input is a command. -/
def isCommand (buffer : Text) : Bool :=
  Text.startsWith (Text.trim buffer) ":"

variable [TreePrinter]

/-- Runs the buffer and says what the loop does next. An expression that goes on stays in the
buffer, and everything else leaves it. -/
def runBuffer (s : Session) (buffer : Text) : Turn :=
  let o := s.eval buffer
  match o.failure with
  | none => ⟨start o.session, ⟨o.out, []⟩, false⟩
  | some .incomplete =>
    -- A command ends with its line, even if the expression in it does not.
    if isCommand buffer then
      ⟨start o.session, ⟨o.out, [o.session.report Failure.incomplete.message]⟩, false⟩
    else ⟨⟨o.session, buffer⟩, ⟨o.out, []⟩, false⟩
  | some .quit => ⟨start o.session, ⟨o.out, []⟩, true⟩
  | some f => ⟨start o.session, ⟨o.out, [o.session.report f.message]⟩, false⟩

/-- Handles an event. -/
def step (l : Loop) : KeyEvent → Turn
  | .ended => ⟨l, .nothing, true⟩
  | .interrupt =>
    if l.buffer.isEmpty then ⟨l, .nothing, true⟩
    else ⟨start l.session, ⟨[], [.plain "Press ctrl-c again to quit.\n"]⟩, false⟩
  | .line t =>
    if l.buffer.isEmpty && (Text.trim t).isEmpty then ⟨l, .nothing, false⟩
    else runBuffer l.session (l.buffer ++ t ++ "\n")

/-- Handles events until the loop ends. -/
def runAll (l : Loop) : List KeyEvent → Loop × Printed
  | [] => (l, .nothing)
  | e :: es =>
    let turn := l.step e
    if turn.ends then (turn.loop, turn.printed)
    else
      let (final, printed) := runAll turn.loop es
      (final, turn.printed ++ printed)

end Loop

/-- Feeds a session from a keyboard and gives the session at the end and what was printed. A loop
that was cancelled before its start reads nothing. -/
def Session.feed [TreePrinter] (canceled : Bool) (s : Session) (keys : List KeyEvent) :
    Session × Printed × Option Failure :=
  if canceled then (s, .nothing, some .canceled)
  else
    let (final, printed) := (Loop.start s).runAll keys
    (final.session, printed, none)

end ExprTyping
