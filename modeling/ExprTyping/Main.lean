import ExprTyping.CommandLine.Run
import ExprTyping.Linked
import ExprTyping.Session.Keyboard
import Std.Time.DateTime.Timestamp

/-!
# The program

Reads the world for the command and prints what the command says. At a terminal the read loop is
fed as lines are typed; everything else is a call of the pure command.
-/

namespace ExprTyping

/-- The time. -/
def currentMoment : IO Moment := do
  let stamp ← Std.Time.Timestamp.now
  return .ofFields 1970 1 1 0 0 stamp.toSecondsSinceUnixEpoch.val

/-- Writes a text to a stream. -/
def Text.writeTo (stream : IO.FS.Stream) (t : Text) : IO Unit := do
  stream.write ⟨(Text.toBytes t).toArray⟩
  stream.flush

/-- Prints the results and the notices of the command. Every notice has its own moment. -/
def Printed.put (p : Printed) : IO Unit := do
  p.out.writeTo (← IO.getStdout)
  for notice in p.err do
    (notice (← currentMoment)).writeTo (← IO.getStderr)

/-- Reads a file. -/
def readPath (path : Text) : IO (Except FileError Text) := do
  try
    let bytes ← IO.FS.readBinFile (Text.toString path)
    return .ok (Text.ofBytes bytes.toList)
  catch
    | .noFileOrDirectory .. => return .error (.missing path)
    -- The name is known where opening fails, and no longer where reading does.
    | .inappropriateType (some _) .. => return .error (.notDirectory path)
    | .inappropriateType none .. => return .error (.directory path)
    | .permissionDenied .. => return .error (.unopened path "permission denied")
    | e => return .error (.unopened path (Text.ofString (toString e)))

/-- Reads the files that a command line mentions, and the usual session file. -/
def readMentioned (arguments : List Text) : IO (Text → Except FileError Text) := do
  let mentioned := match Options.ofArguments arguments with
    | .ok o => if o.config.isEmpty then o.files else o.config :: o.files
    | .error _ => []
  let contents ← (Config.defaultPath :: mentioned).mapM fun path => do
    return (path, ← readPath path)
  return fun path => (contents.lookup path).getD (.error (.missing path))

/-- Reads a stream to its end. -/
partial def readToEnd (s : IO.FS.Stream) (sofar : ByteArray) : IO ByteArray := do
  let chunk ← s.read 65536
  if chunk.isEmpty then return sofar else readToEnd s (sofar ++ chunk)

/-- Feeds the read loop from the terminal. -/
partial def converse (input : IO.FS.Stream) (l : Loop) : IO Session := do
  Printed.put ⟨if l.buffer.isEmpty then "> " else "...> ", []⟩
  let turn := l.step (.ofLine (Text.ofString (← input.getLine)))
  turn.printed.put
  if turn.ends then return turn.loop.session else converse input turn.loop

/-- Runs read loops at the terminal. -/
def converseTimes (input : IO.FS.Stream) (s : Session) : Nat → IO Unit
  | 0 => return
  | n + 1 => do
    Printed.put ⟨[], CommandLine.greeting⟩
    let s ← converse input (.start s)
    converseTimes input s n

end ExprTyping

open ExprTyping in
/-- The command line. -/
def main (arguments : List String) : IO UInt32 := do
  let arguments := arguments.map Text.ofString
  let input ← IO.getStdin
  let terminal ← input.isTty
  let bytes ← if terminal then pure .empty else readToEnd input .empty
  let w : Surroundings :=
    ⟨Text.ofBytes bytes.toList, terminal, ← readMentioned arguments⟩
  match CommandLine.start w arguments with
  | .error (.exited printed code) =>
    printed.put
    return code.toUInt32
  | .error .crashed =>
    IO.eprintln "the session file cannot be read"
    return 2
  | .ok started =>
    started.checked.printed.put
    converseTimes input started.session started.loops
    return if started.checked.failed then 1 else 0
