import ExprTyping.Config
import ExprTyping.Expr.Traversal
import ExprTyping.Failure
import ExprTyping.Session.Command

/-!
# Sessions

A session holds the declared symbols and the domain between inputs. Running a command gives the
session after it, what it prints, and the failure if there was one; a command that fails leaves
the session as it was and prints nothing.
-/

namespace ExprTyping

/-- The state between inputs. -/
structure Session where
  /-- The declared symbols. -/
  env : Env Binary64
  /-- The domain. -/
  domain : Domain Binary64
  /-- The name of the source in diagnostics. -/
  filename : Text
  /-- What is written in front of reports, from the moment of the report. -/
  stamp : Option (Moment → Text)

/-- A text on the standard error. It can tell the moment at which it is written. -/
abbrev Notice := Moment → Text

/-- A notice that does not tell the moment. -/
def Notice.plain (text : Text) : Notice := fun _ => text

/-- What a command did. -/
structure Outcome where
  /-- The session after it. -/
  session : Session
  /-- What it printed. -/
  out : Text
  /-- Why it failed. -/
  failure : Option Failure

namespace Session

/-- Sets the pattern of the time in front of reports; an empty one switches it off. -/
def setTimeFormat [TimePatterns] (s : Session) (format : Text) : Except Failure Session :=
  if format.isEmpty then .ok { s with stamp := none }
  else match TimePatterns.compile format with
    | .ok stamp => .ok { s with stamp := some stamp }
    | .error message => .error (.timeFormat format message)

/-- Starts a session. -/
def ofConfig [TimePatterns] (c : Config) : Except Failure Session := do
  let env ← c.environment.mapError Failure.reported
  setTimeFormat ⟨env, c.domainValue, "<repl>", none⟩ c.timeFormat

/-- Reads and types an expression. -/
def check (s : Session) (filename source : Text) : Except Failure (Typed Binary64) :=
  (checkSource s.env s.domain filename source).mapError Failure.ofCheck

/-- The list of commands, one a line. -/
def helpLines : List Text := [
  "Enter an expression to print its type, or one of:",
  "  :help               show this message",
  "  :domain [name]      show or switch the domain (" ++
    Text.join ", " (Domain.builtinNames (β := Binary64)) ++ ")",
  "  :let name type      declare a symbol, e.g. :let x [0, inf)",
  "  :unset name         forget a symbol",
  "  :env                list declared symbols",
  "  :dump expr          print the typed tree of expr",
  "  :free expr          list the free symbols of expr",
  "  :quit               leave the session"]

/-- Lines as text, each with its end. -/
def unlines (lines : List Text) : Text :=
  Text.join [] (lines.map (· ++ "\n"))

/-- The declared symbols, one a line. -/
def symbolList (s : Session) : Text :=
  unlines (s.env.entries.map fun (name, t) => name ++ " : " ++ Ty.renderOption t)

/-- A command printed something. -/
def prints (s : Session) (out : Text) : Outcome := ⟨s, out, none⟩

/-- A command failed. -/
def fails (s : Session) (f : Failure) : Outcome := ⟨s, [], some f⟩

/-- A command changed the session. -/
def becomes (s : Session) : Outcome := ⟨s, [], none⟩

/-- Prints a result on a line of its own, if there is one. -/
def printsResult {α : Type} (s : Session) (render : α → Text) : Except Failure α → Outcome
  | .ok a => s.prints (render a ++ "\n")
  | .error f => s.fails f

/-- Runs a command. -/
def run [TreePrinter] (s : Session) : Command → Outcome
  | .typeOf source => s.printsResult (fun t => Ty.renderOption t.ty) (s.check s.filename source)
  | .help => s.prints (unlines helpLines)
  | .quit => s.fails .quit
  | .showDomain => s.prints (s.domain.name ++ "\n")
  | .switchDomain name =>
    match Domain.ofName? name with
    | some d => becomes { s with domain := d }
    | none => s.fails (.unknownDomain name)
  | .declare name source =>
    match parseType source with
    | .ok t => becomes { s with env := s.env.insert name (some t) }
    | .error d => s.fails (.reported d)
  | .declareNothing => s.fails .declareUsage
  | .forget name => becomes { s with env := s.env.erase name }
  | .forgetNothing => s.fails .forgetUsage
  | .listSymbols => s.prints s.symbolList
  | .dump source => s.printsResult TreePrinter.dump (s.check s.filename source)
  | .free source =>
    s.printsResult (fun e => Text.join " " e.freeSymbols)
      ((parseExpr "<string>" source).mapError Failure.ofCheck)
  | .unknown name => s.fails (.unknownCommand name)

/-- Runs an input. -/
def eval [TreePrinter] (s : Session) (line : Text) : Outcome :=
  s.run (Command.ofText line)

/-- The line that reports a message. -/
def report (s : Session) (message : Text) : Notice :=
  match s.stamp with
  | some stamp => fun now => "[" ++ stamp now ++ "] " ++ message ++ "\n"
  | none => .plain (message ++ "\n")

end Session

end ExprTyping
