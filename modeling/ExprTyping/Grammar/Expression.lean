import ExprTyping.Expr.Basic
import ExprTyping.Token.Scan

/-!
# Reading expressions

Operators bind by priority, from `or` over `and`, the comparisons, sums and products to the minus
sign; `not` takes everything that binds tighter than `and`. Operators of one priority group to the
left. Two operands side by side are multiplied.

A machine reads the items of a source one after the other. Between two items it holds a stack of
frames, each of which waits for its right operand, and perhaps an operand that is complete so far.
A frame has a limit: an operator that binds tighter than the limit of the innermost frame extends
the operand, any other one completes that frame first.

- `Machine.step` takes in one token;
- `Machine.finish` closes all frames at the end of the source;
- `Expr.ofItems` is the whole reading. A source that could go on to be an expression is
  incomplete, which is no error of its own.
-/

namespace ExprTyping

/-- What can be wrong with the order of words in an expression. -/
inductive ExprError where
  /-- A word that cannot start an operand. -/
  | unexpectedSymbol (found : Tok)
  /-- A word other than the closing parenthesis that is due. -/
  | expectedClose (found : Tok)
  /-- A word behind a complete expression. -/
  | unexpectedAfter (found : Tok)
  deriving DecidableEq, Repr

/-- Why no expression was read. -/
inductive ExprFailure where
  /-- The source ended too early. -/
  | incomplete
  /-- A word could not be read. -/
  | scan (fault : ScanFault)
  /-- A word at a wrong place. -/
  | misplaced (error : ExprError) (pos : Pos)
  deriving DecidableEq, Repr

namespace Tok

/-- The binary operator of a word, with its priority. -/
def binary? : Tok → Option (Op × Nat)
  | .or => some (.or, 1)
  | .and => some (.and, 2)
  | .eq => some (.eq, 3)
  | .lt => some (.lt, 3)
  | .le => some (.le, 3)
  | .gt => some (.gt, 3)
  | .ge => some (.ge, 3)
  | .ne => some (.ne, 3)
  | .plus => some (.add, 10)
  | .minus => some (.sub, 10)
  | .times => some (.mul, 11)
  | .divide => some (.truediv, 11)
  | _ => none

/-- Whether a word starts an operand that may stand directly behind another one. -/
def startsOperand : Tok → Bool
  | .ident _ => true
  | .integer _ => true
  | .real _ => true
  | .openParen => true
  | _ => false

end Tok

/-- The priority of multiplication by standing side by side. -/
def juxtapositionPriority : Nat := 11

/-- An unfinished part of an expression that waits for its right operand. -/
inductive Frame where
  /-- An open parenthesis. -/
  | paren
  /-- A minus sign. -/
  | negation (pos : Pos)
  /-- A `not`. -/
  | complement (pos : Pos)
  /-- A binary operator with its left operand; `priority` is that of the operator. -/
  | binary (op : Op) (priority : Nat) (pos : Pos) (left : Expr)
  deriving Repr

namespace Frame

/-- Operators that bind tighter than this belong to the operand of the frame. -/
def limit : Frame → Nat
  | .paren => 0
  | .negation _ => 12
  | .complement _ => 2
  | .binary _ priority _ _ => priority

end Frame

/-- An expression under a minus sign: a literal takes the sign in, anything else is a call. -/
def Expr.negated (pos : Pos) : Expr → Expr
  | .lit _ l => .lit pos l.negate
  | e => .call pos .neg [e]

/-- The frames from the innermost outwards. -/
abbrev Stack := List Frame

/-- The limit of the innermost frame; outside all frames every operator extends the operand. -/
def Stack.limit : Stack → Nat
  | [] => 0
  | f :: _ => f.limit

/-- The state between two items. -/
inductive Machine where
  /-- The innermost frame waits for the start of its operand. -/
  | wanting (stack : Stack)
  /-- The operand of the innermost frame is complete so far. -/
  | having (stack : Stack) (operand : Expr)
  deriving Repr

namespace Machine

/-- Reading starts with an operand wanted and no frame. -/
def start : Machine := .wanting []

/-- Takes in a token where an operand has to start. -/
def stepWanting (stack : Stack) (t : Token) : Except ExprFailure Machine :=
  match t.tok with
  | .minus => .ok (.wanting (.negation t.pos :: stack))
  | .not => .ok (.wanting (.complement t.pos :: stack))
  | .openParen => .ok (.wanting (.paren :: stack))
  | .real x => .ok (.having stack (.lit t.pos (.ofReal x)))
  | .integer n => .ok (.having stack (.lit t.pos (.ofInt n)))
  | .ident name => .ok (.having stack (.sym t.pos name))
  | found => .error (.misplaced (.unexpectedSymbol found) t.pos)

/-- The binary operator that a token applies to an operand under a limit: the operator of the
token itself, or multiplication if the token starts another operand. -/
def extension? (limit : Nat) (t : Tok) : Option (Op × Nat) :=
  match t.binary? with
  | some (op, priority) => if limit < priority then some (op, priority) else none
  | none =>
    if t.startsOperand && limit < juxtapositionPriority then some (.mul, juxtapositionPriority)
    else none

/-- Takes in a token behind an operand: the innermost frame whose limit lets the token extend its
operand does so, and the frames inside it are completed first. -/
def stepHaving : Stack → Expr → Token → Except ExprFailure Machine
  | stack, operand, t =>
    match extension? (Stack.limit stack) t.tok with
    | some (op, priority) =>
      -- Side by side, the token is no operator but the start of the right operand.
      let waiting := .binary op priority t.pos operand :: stack
      if t.tok.startsOperand then stepWanting waiting t else .ok (.wanting waiting)
    | none =>
      match stack with
      | [] => .error (.misplaced (.unexpectedAfter t.tok) t.pos)
      | .paren :: outer =>
        if t.tok = .closeParen then .ok (.having outer operand)
        else .error (.misplaced (.expectedClose t.tok) t.pos)
      -- The token binds less tightly than the frame: the frame is complete, and the next one
      -- outwards has its turn.
      | .negation pos :: outer => stepHaving outer (operand.negated pos) t
      | .complement pos :: outer => stepHaving outer (.call pos .not [operand]) t
      | .binary op _ pos left :: outer => stepHaving outer (.call pos op [left, operand]) t

/-- Takes in one token. -/
def step : Machine → Token → Except ExprFailure Machine
  | .wanting stack, t => stepWanting stack t
  | .having stack operand, t => stepHaving stack operand t

/-- Completes all frames around an operand; an open parenthesis cannot be completed. -/
def close : Stack → Expr → Except ExprFailure Expr
  | [], operand => .ok operand
  | .paren :: _, _ => .error .incomplete
  | .negation pos :: outer, operand => close outer (operand.negated pos)
  | .complement pos :: outer, operand => close outer (.call pos .not [operand])
  | .binary op _ pos left :: outer, operand => close outer (.call pos op [left, operand])

/-- The expression read when the source ends. -/
def finish : Machine → Except ExprFailure Expr
  | .wanting _ => .error .incomplete
  | .having stack operand => close stack operand

/-- Reads the remaining items. -/
def run : Machine → List Item → Except ExprFailure Expr
  | m, [] => m.finish
  | _, .fault f :: _ => .error (.scan f)
  | m, .token t :: items =>
    match m.step t with
    | .ok m₁ => m₁.run items
    | .error e => .error e

end Machine

/-- Reads one expression that takes up all items. -/
def Expr.ofItems (items : List Item) : Except ExprFailure Expr :=
  Machine.start.run items

/-- Reads one expression that takes up the whole source. -/
def Expr.ofText (source : Text) : Except ExprFailure Expr :=
  Expr.ofItems source.items

end ExprTyping
