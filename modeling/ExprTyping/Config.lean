import ExprTyping.Diagnostic
import ExprTyping.Libraries

/-!
# Session files

A session file chooses the domain, declares the types of symbols by annotations, and may set a
time pattern for diagnostics. `Config` holds what it says as text; `Config.validate` checks that
the domain exists and that the pattern and all annotations can be read, and `Config.environment`
gives the declared symbols their types.
-/

namespace ExprTyping

/-- What a session starts from. -/
structure Config where
  /-- The name of the domain. -/
  domain : Text
  /-- The time pattern for diagnostics; empty for none. -/
  timeFormat : Text
  /-- The annotations of the declared symbols. -/
  env : Bindings Text
  /-- The file it was read from, for diagnostics. -/
  path : Text

/-- Why a session file cannot be loaded. -/
inductive LoadFailure where
  /-- A diagnostic. -/
  | reported (d : Diagnostic)
  /-- The library that reads session files crashed. -/
  | crashed
  deriving Repr

namespace Config

/-- The domain of a session that chooses none. -/
def defaultDomain : Text := "scalar"

/-- A usual time pattern for diagnostics. -/
def usualTimeFormat : Text := "%H:%M:%S"

/-- The session file that is read if no other is given. -/
def defaultPath : Text := "exprcheck.yaml"

/-- What a session starts from if there is no session file. -/
def default : Config := ⟨defaultDomain, [], .empty, []⟩

instance : Inhabited Config := ⟨default⟩

/-- A diagnostic about a session file. -/
def fault (path : Text) (cause : Cause) : Diagnostic :=
  ⟨.config, path, .nowhere, some cause⟩

/-! ## Declared types -/

/-- Reads the annotation of a symbol. -/
def declaredType (path name source : Text) : Except Diagnostic (Ty Binary64) :=
  (parseType source).mapError fun d =>
    fault path (.declaration name (d.cause.getD (.plain d.message)))

/-- Gives types to symbols, one after the other. -/
def declareAll (path : Text) (env : Env Binary64) :
    List (Text × Text) → Except Diagnostic (Env Binary64)
  | [] => .ok env
  | (name, source) :: rest => do
    let t ← declaredType path name source
    declareAll path (env.insert name (some t)) rest

/-- The declared symbols with their types. -/
def environment (c : Config) : Except Diagnostic (Env Binary64) :=
  declareAll c.path .empty c.env.entries

/-- Declares a symbol, if its annotation can be read. -/
def declare (c : Config) (name source : Text) : Except Diagnostic Config := do
  let _ ← declaredType c.path name source
  return { c with env := c.env.insert name source }

/-! ## Validation -/

/-- Checks that the domain exists. -/
def validateDomain (c : Config) : Except Diagnostic Unit :=
  match (Domain.ofName? c.domain : Option (Domain Binary64)) with
  | some _ => .ok ()
  | none => .error (fault c.path (.unknownDomain c.domain))

/-- Checks that the time pattern, if there is one, can be read. -/
def validateTimeFormat [TimePatterns] (c : Config) : Except Diagnostic Unit :=
  if c.timeFormat.isEmpty then .ok ()
  else match TimePatterns.compile c.timeFormat with
    | .ok _ => .ok ()
    | .error message => .error (fault c.path (.timeFormat c.timeFormat message))

/-- Checks the domain, the time pattern and the annotations, in this order. -/
def validate [TimePatterns] (c : Config) : Except Diagnostic Unit := do
  c.validateDomain
  c.validateTimeFormat
  let _ ← c.environment
  return ()

/-- The domain; one that does not exist is replaced by the default. -/
def domainValue (c : Config) : Domain Binary64 :=
  (Domain.ofName? c.domain).getD .scalar

/-! ## Reading -/

/-- What the content of a session file says, with no domain if it chooses none. -/
def read [SessionDecoder] (path content : Text) : Except LoadFailure Config :=
  match SessionDecoder.decode content with
  | .ok fields => .ok ⟨fields.domain, fields.timeFormat, fields.env, path⟩
  | .error (.refused message) => .error (.reported (fault path (.malformedConfig message)))
  | .error .crashed => .error .crashed

/-- Chooses the default domain if none is chosen. -/
def withDefaults (c : Config) : Config :=
  if c.domain.isEmpty then { c with domain := defaultDomain } else c

/-- Reads and checks the content of a session file. -/
def ofText [TimePatterns] [SessionDecoder] (path content : Text) : Except LoadFailure Config := do
  -- The default is chosen before the checks, which refuse an empty domain.
  let c := (← read path content).withDefaults
  c.validate.mapError LoadFailure.reported
  return c

/-- Loads a session file. -/
def load [TimePatterns] [SessionDecoder] (files : Text → Except FileError Text) (path : Text) :
    Except LoadFailure Config := do
  let content ← (files path).mapError fun e => .reported (fault path (.unreadableConfig e))
  ofText path content

end Config

end ExprTyping
