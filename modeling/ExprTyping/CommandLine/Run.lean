import ExprTyping.CommandLine.Options
import ExprTyping.Session.Loop

/-!
# The command

The command reads its options and a session file, opens a session, and checks what it is given:
each line of the standard input if that is no terminal, else an expression or files. If there is
nothing to check it feeds the session from the terminal.

All that the command can see of the world is `Surroundings`, so that it is a function. It ends in
two stages: `start` does everything up to the first use of the terminal, and says how often the
read loop runs; `run` lets the read loops have the events of a keyboard.
-/

namespace ExprTyping

/-- What the command can see. -/
structure Surroundings where
  /-- The content of the standard input. -/
  input : Text
  /-- Whether the standard input is a terminal. -/
  terminal : Bool
  /-- What reading a file gives. -/
  read : Text → Except FileError Text

/-- How the command ends. -/
inductive Ending where
  /-- It has printed something, and exits with a code. -/
  | exited (printed : Printed) (code : Nat)
  /-- It crashes with the library that reads session files. -/
  | crashed

namespace CommandLine

variable [TimePatterns] [SessionDecoder] [TreePrinter]

/-- A check printed something, or failed. -/
structure Checked where
  /-- What was printed. -/
  printed : Printed
  /-- Whether something failed. -/
  failed : Bool

namespace Checked

/-- Nothing was checked. -/
def nothing : Checked := ⟨.nothing, false⟩

instance : Append Checked := ⟨fun a b => ⟨a.printed ++ b.printed, a.failed || b.failed⟩⟩

/-- The checks of several sources. -/
def all (checks : List Checked) : Checked :=
  checks.foldr (· ++ ·) nothing

end Checked

/-! ## Opening a session -/

/-- Whether reading a file shows that there is one, even if it cannot be opened. -/
def isPresent : Except FileError Text → Bool
  | .ok _ => true
  | .error (.unopened _ _) => true
  | .error _ => false

/-- The session file that applies: the one that was asked for, else the usual one if there is such a
file, else none. -/
def configFor (w : Surroundings) (o : Options) : Except LoadFailure Config :=
  if !o.config.isEmpty then Config.load w.read o.config
  else if isPresent (w.read Config.defaultPath) then Config.load w.read Config.defaultPath
  else .ok .default

/-- Adds the declarations of the command line. -/
def declareAll (c : Config) : List Text → Except Diagnostic Config
  | [] => .ok c
  | declaration :: rest => do
    let (name, source) := Text.cut '=' declaration
    declareAll (← c.declare (Text.trim name) (source.getD [])) rest

/-- The session file with what the command line says on top of it. -/
def configure (w : Surroundings) (o : Options) : Except LoadFailure Config := do
  let c ← configFor w o
  let c := if o.domain.isEmpty then c else { c with domain := o.domain }
  let c := if o.timeFormat.isEmpty then c else { c with timeFormat := o.timeFormat }
  let c ← (declareAll c o.declarations).mapError LoadFailure.reported
  c.validate.mapError LoadFailure.reported
  return c

/-- The ending of a command that cannot go on. -/
def giveUp (message : Text) : Ending :=
  .exited ⟨[], [.plain (message ++ "\n")]⟩ 1

/-- The ending of a command whose session file cannot be loaded. -/
def endingOf : LoadFailure → Ending
  | .reported d => giveUp d.message
  | .crashed => .crashed

/-- Opens the session of the command. -/
def openSession (w : Surroundings) (o : Options) : Except Ending Session := do
  let c ← (configure w o).mapError endingOf
  (Session.ofConfig c).mapError fun f => giveUp f.message

/-! ## Checks -/

/-- The check of a source failed. -/
def reportFailure (s : Session) (f : Failure) : Checked :=
  ⟨⟨[], [s.report f.message]⟩, true⟩

/-- Checks one expression and prints its type or its typed tree. -/
def checkText (dump : Bool) (s : Session) (filename source : Text) : Checked :=
  match s.check filename source with
  | .ok t =>
    ⟨⟨(if dump then TreePrinter.dump t else Ty.renderOption t.ty) ++ "\n", []⟩, false⟩
  | .error .incomplete => reportFailure s (.incompleteSource filename)
  | .error f => reportFailure s f

/-- Checks the expression in a file. -/
def checkFile (w : Surroundings) (dump : Bool) (s : Session) (path : Text) : Checked :=
  match sourceOf w.read path with
  | .ok content => checkText dump s path content
  | .error f => reportFailure s f

/-- The lines of a text. A line break at the end opens no further line. -/
def lines : Text → List Text
  | [] => []
  | g :: t =>
    if g = .char '\n' then [] :: lines t
    else match lines t with
      | [] => [[g]]
      | line :: rest => (g :: line) :: rest

/-- The length in bytes from which on a line is too long. -/
def lineLimit : Nat := 65536

/-- Whether a line holds no expression: it is blank or a comment. -/
def isVoid (line : Text) : Bool :=
  line.isEmpty || Text.startsWith line "#"

/-- Checks lines from a line number on, each line that holds an expression by itself. A line that
is too long ends the checks. -/
def checkLinesFrom (dump : Bool) (s : Session) (number : Nat) : List Text → Checked
  | [] => .nothing
  | line :: rest =>
    -- Blank lines and comments count as lines, also towards the limit.
    if lineLimit ≤ Text.byteLength line then reportFailure s .lineTooLong
    else
      let source := Text.trim line
      let first :=
        if isVoid source then .nothing
        else checkText dump s ("<stdin>:" ++ Text.ofNat number) source
      first ++ checkLinesFrom dump s (number + 1) rest

/-- Checks each line of a text. -/
def checkLines (dump : Bool) (s : Session) (input : Text) : Checked :=
  checkLinesFrom dump s 1 (lines input)

/-! ## The command -/

/-- The command up to the first use of the terminal. -/
structure Started where
  /-- The session. -/
  session : Session
  /-- What was printed and whether something failed. -/
  checked : Checked
  /-- How often the read loop runs. -/
  loops : Nat

/-- The line that shows the version. -/
def versionLine : Notice := fun now =>
  Version.full now.date.year ++ "\n"

/-- What the read loop shows at its start. -/
def greeting : List Notice :=
  [versionLine, .plain "Press ctrl-c to quit or clear current buffer, :help for commands.\n"]

/-- Whether the command has nothing to do but to run the read loop. -/
def isIdle (w : Surroundings) (o : Options) : Bool :=
  w.terminal && o.expression.isEmpty && o.files.isEmpty && !o.version

/-- Does the checks. -/
def checkAll (w : Surroundings) (o : Options) (s : Session) : Checked :=
  if !w.terminal then checkLines o.dump s w.input
  else if !o.expression.isEmpty then checkText o.dump s "<string>" o.expression
  else .all (o.files.map (checkFile w o.dump s))

/-- The ending of a command whose options cannot be read. -/
def refuse (e : OptionsError) : Ending :=
  let message : List Notice := match e.message? with
    | some m => [.plain (m ++ "\n")]
    | none => []
  .exited ⟨[], message ++ [versionLine, .plain (Session.unlines Options.usageLines)]⟩
    (if e = .help then 0 else 2)

/-- Runs the command up to the first use of the terminal. -/
def start (w : Surroundings) (arguments : List Text) : Except Ending Started := do
  let o ← (Options.ofArguments arguments).mapError refuse
  let s ← openSession w o
  let version : Checked := ⟨⟨[], if o.version then [versionLine] else []⟩, false⟩
  return ⟨s, version ++ checkAll w o s,
    (if isIdle w o then 1 else 0) + (if o.interactive && w.terminal then 1 else 0)⟩

/-- Runs read loops one after the other, each with the events that a list has for it. -/
def runLoops (s : Session) (keys : List (List KeyEvent)) : Nat → Printed
  | 0 => .nothing
  | n + 1 =>
    let (s, printed, _) := s.feed false (keys.headD [])
    ⟨[], greeting⟩ ++ printed ++ runLoops s keys.tail n

/-- Runs the command. The read loops get the events of a keyboard, one after the other. -/
def run (w : Surroundings) (keys : List (List KeyEvent)) (arguments : List Text) : Ending :=
  match start w arguments with
  | .error ending => ending
  | .ok started =>
    .exited (started.checked.printed ++ runLoops started.session keys started.loops)
      (if started.checked.failed then 1 else 0)

end CommandLine

end ExprTyping
