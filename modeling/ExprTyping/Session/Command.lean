import ExprTyping.Text.Blank

/-!
# Commands of a session

An input of a session is a command if it starts with a colon, and an expression otherwise. The
name of a command ends at the first blank; what follows is its argument.
-/

namespace ExprTyping

/-- What an input asks for. -/
inductive Command where
  /-- The type of an expression. -/
  | typeOf (source : Text)
  /-- The list of commands. -/
  | help
  /-- The end of the session. -/
  | quit
  /-- The name of the domain. -/
  | showDomain
  /-- Another domain. -/
  | switchDomain (name : Text)
  /-- A symbol with the type of an annotation. -/
  | declare (name source : Text)
  /-- A declaration without a name or an annotation. -/
  | declareNothing
  /-- That a symbol is declared no longer. -/
  | forget (name : Text)
  /-- A request to forget without a name. -/
  | forgetNothing
  /-- The declared symbols. -/
  | listSymbols
  /-- The typed tree of an expression. -/
  | dump (source : Text)
  /-- The free symbols of an expression. -/
  | free (source : Text)
  /-- A command that does not exist. -/
  | unknown (name : Text)
  deriving DecidableEq, Repr

namespace Command

/-- The declaration in the argument of a command: a name up to the first blank, and an
annotation. -/
def declaration (argument : Text) : Command :=
  match Text.cut ' ' argument with
  | (_, none) => .declareNothing
  | (name, some source) =>
    if name.isEmpty || (Text.trim source).isEmpty then .declareNothing
    else .declare name source

/-- The command with a name and an argument. -/
def named (name argument : Text) : Command :=
  let is (words : List String) := words.any fun word => Text.ofString word == name
  if is ["help", "h", "?"] then .help
  else if is ["quit", "q", "exit"] then .quit
  else if is ["domain"] then
    if argument.isEmpty then .showDomain else .switchDomain argument
  else if is ["let"] then declaration argument
  else if is ["unset"] then
    if argument.isEmpty then .forgetNothing else .forget argument
  else if is ["env"] then .listSymbols
  else if is ["dump"] then .dump argument
  else if is ["free"] then .free argument
  else .unknown name

/-- What an input asks for. -/
def ofText (line : Text) : Command :=
  match Text.trim line with
  | .char ':' :: rest =>
    let (name, argument) := Text.cut ' ' rest
    named name (Text.trim (argument.getD []))
  | source => .typeOf source

end Command

end ExprTyping
