import ExprTyping.Bindings
import ExprTyping.Clock.Moment
import ExprTyping.Expr.Typed

/-!
# Libraries

The tool leaves some work to libraries: writing the time by a pattern, reading session files, and
showing typed trees in full. What a library does is not fixed here. A definition that calls one has
it as an instance argument, and so has every statement about the definition, which thus holds for
all libraries. `ExprTyping.Linked` has those that the program is built with.
-/

namespace ExprTyping

/-- A library of time patterns. -/
class TimePatterns where
  /-- Reads a pattern. The result is what the pattern writes at a moment, or the message of an
  error. -/
  compile : Text → Except Text (Moment → Text)

/-- The fields of a session file. Those that the file does not set are empty. -/
structure SessionFields where
  /-- The name of the domain. -/
  domain : Text
  /-- The time pattern. -/
  timeFormat : Text
  /-- The annotations of the declared symbols. -/
  env : Bindings Text

/-- Why a library does not read a session file. -/
inductive DecodeFailure where
  /-- The file is refused with a message. -/
  | refused (message : Text)
  /-- The library crashes. -/
  | crashed
  deriving DecidableEq, Repr

/-- A library that reads session files. -/
class SessionDecoder where
  /-- The fields that the content of a file sets. -/
  decode : Text → Except DecodeFailure SessionFields

/-- A library that shows values in full. -/
class TreePrinter where
  /-- A typed tree with all that its nodes hold. -/
  dump : Typed Binary64 → Text

end ExprTyping
