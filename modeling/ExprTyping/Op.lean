/-!
# Operators

The operators a call can apply. Trees may also come from elsewhere with a number in place of an
operator; a number outside the vocabulary is kept as it is, with the proof that it is outside.
-/

namespace ExprTyping

/-- An operator. -/
inductive Op where
  | add
  | sub
  | mul
  | truediv
  | neg
  | eq
  | ne
  | lt
  | le
  | gt
  | ge
  | and
  | or
  | not
  /-- A number that stands for no operator. -/
  | unknown (code : Int) (outside : ¬(0 ≤ code ∧ code < 14))
  deriving DecidableEq, Repr, Inhabited

namespace Op

/-- The whole vocabulary, in the order of its numbers. -/
def all : List Op :=
  [.add, .sub, .mul, .truediv, .neg, .eq, .ne, .lt, .le, .gt, .ge, .and, .or, .not]

/-- The operator with a number. -/
def ofCode (code : Int) : Op :=
  if h : 0 ≤ code ∧ code < 14 then
    all.get ⟨code.toNat, show code.toNat < 14 by omega⟩
  else .unknown code h

/-- The number of an operator. -/
def code : Op → Int
  | .add => 0
  | .sub => 1
  | .mul => 2
  | .truediv => 3
  | .neg => 4
  | .eq => 5
  | .ne => 6
  | .lt => 7
  | .le => 8
  | .gt => 9
  | .ge => 10
  | .and => 11
  | .or => 12
  | .not => 13
  | .unknown code _ => code

/-- Whether this is an operator of the vocabulary. -/
def isKnown : Op → Bool
  | .unknown _ _ => false
  | _ => true

/-- The name of an operator. -/
def name : Op → String
  | .add => "add"
  | .sub => "sub"
  | .mul => "mul"
  | .truediv => "truediv"
  | .neg => "neg"
  | .eq => "eq"
  | .ne => "ne"
  | .lt => "lt"
  | .le => "le"
  | .gt => "gt"
  | .ge => "ge"
  | .and => "and"
  | .or => "or"
  | .not => "not"
  | .unknown _ _ => "op(?)"

/-- The operator with a name. -/
def ofName? (name : String) : Option Op :=
  all.find? fun op => op.name == name

/-- How many operands an operator takes. -/
def arity : Op → Nat
  | .neg => 1
  | .not => 1
  | _ => 2

end Op

end ExprTyping
