import ExprTyping.Config
import ExprTyping.Version

/-!
# Options of the command

Options come first on the command line, with one dash or two, and end at the first argument that
is none or behind a double dash. A switch is on if it is given, unless a value says otherwise;
a setting takes the value behind its equals sign or the next argument.
-/

namespace ExprTyping

/-- An option that is on or off. -/
inductive Switch where
  /-- Go on with a session after the checks. -/
  | interactive
  /-- Print typed trees. -/
  | dump
  /-- Print the version. -/
  | version
  deriving DecidableEq, Repr

/-- An option with a value. -/
inductive Setting where
  /-- The domain. -/
  | domain
  /-- The session file. -/
  | config
  /-- An expression to check. -/
  | expression
  /-- The declaration of a symbol. -/
  | declaration
  /-- The time pattern for diagnostics. -/
  | timeFormat
  deriving DecidableEq, Repr

/-- The switch with a name. -/
def Switch.ofName? (name : Text) : Option Switch :=
  if name = Text.ofString "i" then some .interactive
  else if name = Text.ofString "dump" then some .dump
  else if name = Text.ofString "v" then some .version
  else none

/-- The setting with a name. -/
def Setting.ofName? (name : Text) : Option Setting :=
  if name = Text.ofString "d" then some .domain
  else if name = Text.ofString "c" then some .config
  else if name = Text.ofString "e" then some .expression
  else if name = Text.ofString "s" then some .declaration
  else if name = Text.ofString "T" then some .timeFormat
  else none

/-- What the command line says. An empty setting counts as not given. -/
structure Options where
  /-- The domain. -/
  domain : Text := []
  /-- The session file. -/
  config : Text := []
  /-- The expression to check. -/
  expression : Text := []
  /-- The declarations, each a name and a type with an equals sign between them. -/
  declarations : List Text := []
  /-- The time pattern for diagnostics. -/
  timeFormat : Text := []
  /-- Whether a session follows the checks. -/
  interactive : Bool := false
  /-- Whether typed trees are printed. -/
  dump : Bool := false
  /-- Whether the version is printed. -/
  version : Bool := false
  /-- The files to check. -/
  files : List Text := []
  deriving DecidableEq, Repr

/-- Why a command line cannot be read. -/
inductive OptionsError where
  /-- Dashes with no name behind them. -/
  | badSyntax (argument : Text)
  /-- An option that does not exist. -/
  | undefined (name : Text)
  /-- A setting without a value. -/
  | missingValue (name : Text)
  /-- A switch with a value that is no truth value. -/
  | invalidSwitch (name value : Text)
  /-- A declaration without an equals sign. -/
  | invalidDeclaration (name value : Text)
  /-- The list of options was asked for. -/
  | help
  deriving DecidableEq, Repr

namespace OptionsError

/-- The message in front of the list of options. -/
def message? : OptionsError → Option Text
  | .badSyntax argument => some ("bad flag syntax: " ++ argument)
  | .undefined name => some ("flag provided but not defined: -" ++ name)
  | .missingValue name => some ("flag needs an argument: -" ++ name)
  | .invalidSwitch name value =>
    some ("invalid boolean value " ++ Text.quote value ++ " for -" ++ name ++ ": parse error")
  | .invalidDeclaration name value =>
    some ("invalid value " ++ Text.quote value ++ " for flag -" ++ name ++
      ": expected name=type but got " ++ Text.quote value)
  | .help => none

end OptionsError

/-- What an argument is, by its form. -/
inductive Argument where
  /-- No option. -/
  | operand
  /-- The mark that ends the options. -/
  | mark
  /-- Dashes with no name behind them. -/
  | malformed
  /-- An option, with the value behind its equals sign. -/
  | option (name : Text) (value : Option Text)
  deriving DecidableEq, Repr

namespace Argument

/-- Splits what follows the dashes into a name and a value. -/
def ofBody : Text → Argument
  | [] => .malformed
  | g :: t =>
    if g = .char '-' || g = .char '=' then .malformed
    else
      let (name, value) := Text.cut '=' t
      .option (g :: name) value

/-- What an argument is. -/
def ofText : Text → Argument
  | [.char '-', .char '-'] => .mark
  | .char '-' :: .char '-' :: body => ofBody body
  | .char '-' :: g :: body => ofBody (g :: body)
  | _ => .operand

end Argument

namespace Options

/-- The truth value that a text names. -/
def truth? (t : Text) : Option Bool :=
  let among (words : List String) := words.any fun word => Text.ofString word == t
  if among ["1", "t", "T", "TRUE", "true", "True"] then some true
  else if among ["0", "f", "F", "FALSE", "false", "False"] then some false
  else none

/-- Turns a switch on or off. -/
def turn (o : Options) (on : Bool) : Switch → Options
  | .interactive => { o with interactive := on }
  | .dump => { o with dump := on }
  | .version => { o with version := on }

/-- Turns a switch on, or as its value says. -/
def flip (o : Options) (name : Text) (s : Switch) : Option Text → Except OptionsError Options
  | none => .ok (o.turn true s)
  | some value =>
    match truth? value with
    | some on => .ok (o.turn on s)
    | none => .error (.invalidSwitch name value)

/-- Gives a setting a value. Declarations add up; of all other settings the last one counts. -/
def assign (o : Options) (name value : Text) : Setting → Except OptionsError Options
  | .domain => .ok { o with domain := value }
  | .config => .ok { o with config := value }
  | .expression => .ok { o with expression := value }
  | .timeFormat => .ok { o with timeFormat := value }
  | .declaration =>
    if value.contains (.char '=') then .ok { o with declarations := o.declarations ++ [value] }
    else .error (.invalidDeclaration name value)

/-- The error of an option that is neither a switch nor a setting. -/
def undefined (name : Text) : OptionsError :=
  if name = Text.ofString "help" || name = Text.ofString "h" then .help else .undefined name

/-- Reads arguments on top of what was read before. -/
def readFrom (o : Options) : List Text → Except OptionsError Options
  | [] => .ok o
  | argument :: rest =>
    match Argument.ofText argument with
    | .operand => .ok { o with files := argument :: rest }
    | .mark => .ok { o with files := rest }
    | .malformed => .error (.badSyntax argument)
    | .option name value =>
      match Switch.ofName? name, Setting.ofName? name with
      | some s, _ => do readFrom (← o.flip name s value) rest
      | none, none => .error (undefined name)
      | none, some s =>
        -- Without an equals sign the next argument is the value, whatever it looks like.
        match value, rest with
        | some v, rest => do readFrom (← o.assign name v s) rest
        | none, v :: rest => do readFrom (← o.assign name v s) rest
        | none, [] => .error (.missingValue name)
termination_by arguments => arguments.length

/-- Reads a command line. -/
def ofArguments (arguments : List Text) : Except OptionsError Options :=
  readFrom {} arguments

/-- The list of options, below the version. -/
def usageLines : List Text := [
  "",
  "Usage: exprcheck [options] [file ...]",
  "  -T string",
  "    \tstrftime format to prefix diagnostics with, e.g. " ++ Config.usualTimeFormat,
  "  -c string",
  "    \tsession config file, defaults to ./" ++ Config.defaultPath ++ " when present",
  "  -d string",
  "    \tdomain to check in (scalar, matrix, interval)",
  "  -dump",
  "    \tprint the typed tree instead of the type",
  "  -e string",
  "    \tcheck expression 'expr'",
  "  -i\tenter interactive mode after checking",
  "  -s value",
  "    \tdeclare a symbol as name=type, may be repeated",
  "  -v\tshow version information"]

end Options

end ExprTyping
