import ExprTyping.Diagnostic

/-!
# Failures

Why an input of a session, or a check of the command, came to nothing.
-/

namespace ExprTyping

/-- Why an input has no result. -/
inductive Failure where
  /-- The expression goes on. -/
  | incomplete
  /-- The input asks to end the session. -/
  | quit
  /-- A diagnostic. -/
  | reported (d : Diagnostic)
  /-- A file cannot be opened. -/
  | file (error : FileError)
  /-- A declaration without a name or a type. -/
  | declareUsage
  /-- A request to forget nothing. -/
  | forgetUsage
  /-- A command that does not exist. -/
  | unknownCommand (name : Text)
  /-- A domain that does not exist. -/
  | unknownDomain (name : Text)
  /-- A time pattern that cannot be read. -/
  | timeFormat (format message : Text)
  /-- The session was cancelled. -/
  | canceled
  /-- A source holds only the beginning of an expression. -/
  | incompleteSource (filename : Text)
  /-- A line of the standard input is too long. -/
  | lineTooLong
  deriving Repr

namespace Failure

/-- The message of a failure. -/
def message : Failure → Text
  | .incomplete => "EOF"
  | .quit => "quit"
  | .reported d => d.message
  | .file error => error.message
  | .declareUsage => "usage: :let name type"
  | .forgetUsage => "usage: :unset name"
  | .unknownCommand name => "unknown command :" ++ name ++ ", try :help"
  | .unknownDomain name => unknownDomainMessage name
  | .timeFormat format message =>
    "invalid time format " ++ Text.quote format ++ ": " ++ message
  | .canceled => "context canceled"
  | .incompleteSource filename => filename ++ ": incomplete expression"
  | .lineTooLong => "bufio.Scanner: token too long"

/-- The failure of a check. -/
def ofCheck : CheckFailure → Failure
  | .incomplete => .incomplete
  | .reported d => .reported d

end Failure

/-- What reading an opened file gives: its content, or the failure of a place that can be opened
and holds nothing to read. -/
def sourceOf (read : Text → Except FileError Text) (path : Text) : Except Failure Text :=
  match read path with
  | .ok content => .ok content
  | .error (.directory p) =>
    .error (.reported ⟨.lex, path, .start, some (.file (.directory p))⟩)
  | .error e => .error (.file e)

/-- Reads an expression from a file. -/
def parseFile (read : Text → Except FileError Text) (path : Text) : Except Failure Expr := do
  let content ← sourceOf read path
  (parseExpr path content).mapError Failure.ofCheck

end ExprTyping
