import ExprTyping.File
import ExprTyping.Grammar.TypeText
import ExprTyping.Grammar.Expression
import ExprTyping.Infer
import ExprTyping.Text.Quoted

/-!
# Diagnostics

What the tool reports: the stage that failed, the place, and the cause. The stages have error
types of their own; a cause is any of them, and its message is put into words here and nowhere
else. A source that is merely unfinished is no diagnostic, so that an interactive reader can ask
for more.
-/

namespace ExprTyping

/-- The stage that failed. -/
inductive Stage where
  | type
  | parse
  | lex
  | config
  /-- A number that stands for no stage. -/
  | unknown (code : Int) (outside : ¬(0 ≤ code ∧ code < 4))
  deriving DecidableEq, Repr

namespace Stage

/-- All stages, in the order of their numbers. -/
def all : List Stage := [.type, .parse, .lex, .config]

/-- The stage with a number. -/
def ofCode (code : Int) : Stage :=
  if h : 0 ≤ code ∧ code < 4 then
    all.get ⟨code.toNat, show code.toNat < 4 by omega⟩
  else .unknown code h

/-- The name of a stage. -/
def name : Stage → String
  | .type => "type"
  | .parse => "parse"
  | .lex => "lex"
  | .config => "config"
  | .unknown _ _ => "unknown"

end Stage

/-- What went wrong. -/
inductive Cause where
  /-- A message from elsewhere. -/
  | plain (text : Text)
  /-- A word could not be read. -/
  | scan (error : ScanError)
  /-- The source could not be read. -/
  | file (error : FileError)
  /-- A word at a wrong place in an expression. -/
  | exprText (error : ExprError)
  /-- A word at a wrong place in an annotation. -/
  | typeText (error : TypeTextError)
  /-- An empty place in a tree. -/
  | missingNode
  /-- A node has no type. -/
  | typing (error : TypeError Binary64)
  /-- The session file could not be read. -/
  | unreadableConfig (error : FileError)
  /-- The session file is refused with a message. -/
  | malformedConfig (message : Text)
  /-- The session file names a domain that does not exist. -/
  | unknownDomain (name : Text)
  /-- The session file has a time format that is no pattern. -/
  | timeFormat (format message : Text)
  /-- The session file declares a symbol with a bad annotation. -/
  | declaration (name : Text) (cause : Cause)
  deriving Repr

/-- The message of a scan error. -/
def ScanError.message : ScanError → Text
  | .unexpectedChar c => "unexpected character " ++ [Glyph.char c]
  | .malformedNumber read => "malformed number near " ++ Text.quote (Text.ofChars read)
  | .realOutOfRange => "parse float: value out of range"
  | .realMalformed => "parse float: invalid syntax"
  | .integerOutOfRange => "parse int: value out of range"
  | .integerMalformed => "parse int: invalid syntax"

/-- The kind of a word in quotes. -/
def Tok.quotedKind (t : Tok) : Text :=
  Text.quote t.kind

/-- The message of an error in the order of words. -/
def ExprError.message : ExprError → Text
  | .unexpectedSymbol found => "unexpected symbol " ++ (found.kind : Text)
  | .expectedClose found =>
    "expected " ++ Tok.closeParen.quotedKind ++ " but consumed " ++ found.quotedKind
  | .unexpectedAfter found => "unexpected " ++ (found.kind : Text) ++ " after expression"

/-- The message of an error in an annotation. -/
def TypeTextError.message : TypeTextError → Text
  | .unexpectedSymbol found => "unexpected symbol " ++ (found.kind : Text) ++ " in type"
  | .unknownType name => "unknown type " ++ name
  | .expected wanted found =>
    "expected " ++ Text.quote wanted ++ " but consumed " ++ found.quotedKind
  | .expectedClose found => "expected ] or ) but consumed " ++ found.quotedKind
  | .expectedBound found => "expected interval bound but consumed " ++ found.quotedKind
  | .nonpositiveDimension => "matrix dimensions must be positive"
  | .invalidInterval error => error.message
  | .unexpectedAfter found => "unexpected " ++ (found.kind : Text) ++ " after type"
  | .incomplete source => "incomplete type " ++ Text.quote source

/-- That a domain does not exist, with those that do. -/
def unknownDomainMessage (name : Text) : Text :=
  "unknown domain " ++ Text.quote name ++ ", expected one of [" ++
    Text.join " " (Domain.builtinNames (β := Binary64)) ++ "]"

/-- The message of a cause. -/
def Cause.message : Cause → Text
  | .plain text => text
  | .scan error => error.message
  | .file error => error.message
  | .exprText error => error.message
  | .typeText error => error.message
  | .missingNode => "unexpected node <nil>"
  | .typing error => error.message
  | .unreadableConfig error => "reading config: " ++ error.message
  | .malformedConfig message => "parsing config: " ++ message
  | .unknownDomain name => unknownDomainMessage name
  | .timeFormat format message =>
    "invalid time_format " ++ Text.quote format ++ ": " ++ message
  | .declaration name cause => "env " ++ name ++ ": " ++ cause.message

/-- The typing error at the bottom of a cause. -/
def Cause.typeError? : Cause → Option (TypeError Binary64)
  | .typing error => some error
  | .typeText (.invalidInterval error) => some error
  | .declaration _ cause => cause.typeError?
  | _ => none

/-- A report: the stage, the place, and the cause if one is known. -/
structure Diagnostic where
  /-- The stage that failed. -/
  stage : Stage
  /-- The source. -/
  filename : Text
  /-- The place in the source. -/
  pos : Pos
  /-- What went wrong. -/
  cause : Option Cause
  deriving Repr

namespace Diagnostic

/-- The message of the cause, or what stands for an unknown one. -/
def causeMessage (d : Diagnostic) : Text :=
  match d.cause with
  | some cause => cause.message
  | none => "<nil>"

/-- Whether there is a message: only the stages that say more than the cause can do without
one. -/
def hasMessage (d : Diagnostic) : Bool :=
  d.cause.isSome ||
    match d.stage with
    | .type => true
    | .parse => true
    | .config => true
    | _ => false

/-- The source and the place in it. -/
def place (d : Diagnostic) : Text :=
  d.filename ++ ":" ++ d.pos.render

/-- The message. A typing error of a tree that was read from no source has no place. -/
def message (d : Diagnostic) : Text :=
  match d.stage with
  | .type =>
    if d.pos.line = 0 then "Type Error: " ++ d.causeMessage
    else "Type Error: " ++ d.place ++ " " ++ d.causeMessage
  | .parse => "Parse Error: " ++ d.place ++ " " ++ d.causeMessage
  | .lex => "Lex Error: " ++ d.causeMessage
  | .config => "Config Error: " ++ d.filename ++ " " ++ d.causeMessage
  | .unknown _ _ => d.causeMessage

/-- The typing error at the bottom of the cause. -/
def typeError? (d : Diagnostic) : Option (TypeError Binary64) :=
  d.cause.bind Cause.typeError?

/-- A word could not be read. -/
def ofScan (filename : Text) (f : ScanFault) : Diagnostic :=
  ⟨.lex, filename, f.pos, some (.scan f.error)⟩

/-- No annotation was read. -/
def ofTypeText : TypeTextFailure → Diagnostic
  | .scan f => ofScan "<type>" f
  | .misplaced error pos => ⟨.parse, "<type>", pos, some (.typeText error)⟩
  | .ended => ⟨.parse, "<type>", .nowhere, some (.typeText (.incomplete []))⟩

/-- Inference stopped. -/
def ofInfer (filename : Text) (f : InferFault Binary64) : Diagnostic :=
  match f.error with
  | .missingNode => ⟨.type, filename, f.pos, some .missingNode⟩
  | .typing error => ⟨.type, filename, f.pos, some (.typing error)⟩

end Diagnostic

/-- Why a source has no typed expression. -/
inductive CheckFailure where
  /-- The source ended too early. -/
  | incomplete
  /-- A reported failure. -/
  | reported (d : Diagnostic)
  deriving Repr

/-- The failure of reading an expression from a named source. -/
def CheckFailure.ofExpr (filename : Text) : ExprFailure → CheckFailure
  | .incomplete => .incomplete
  | .scan f => .reported (.ofScan filename f)
  | .misplaced error pos => .reported ⟨.parse, filename, pos, some (.exprText error)⟩

/-- Reads an expression from a named source. -/
def parseExpr (filename source : Text) : Except CheckFailure Expr :=
  (Expr.ofText source).mapError (CheckFailure.ofExpr filename)

/-- Reads and types an expression from a named source. -/
def checkSource (env : Env Binary64) (d : Domain Binary64) (filename source : Text) :
    Except CheckFailure (Typed Binary64) := do
  let e ← parseExpr filename source
  (infer env d e).mapError fun f => .reported (.ofInfer filename f)

/-- Reads a type annotation. -/
def parseType (source : Text) : Except Diagnostic (Ty Binary64) :=
  (Ty.ofText source).mapError Diagnostic.ofTypeText

end ExprTyping
