import ExprTyping.Clock.Pattern
import ExprTyping.Expr.Dump
import ExprTyping.Yaml.SessionFile

/-!
# The libraries of the program

What the program is linked with. The definitions and the theory of the tool do not depend on them.
-/

namespace ExprTyping

instance : TimePatterns where
  compile format := match Pattern.ofText format with
    | .ok p => .ok p.render
    | .error e => .error e.message

instance : SessionDecoder where
  decode := Yaml.SessionFile.decode

instance : TreePrinter where
  dump := Typed.dump

end ExprTyping
