import ExprTyping.Grammar.Expression
import ExprTyping.Proofs.NumeralReading

/-!
# Writing expressions with few parentheses

An expression is written with its operators between or in front of their operands. Parentheses
stand around an operand only where its place demands them, which depends on the outermost operator
of the operand alone; more may be asked for around any subterm.

- `Place.demands` is the table of parentheses that are needed;
- `Expr.print` writes an expression;
- `Expr.Printable` are the expressions that a source can hold;
- `Literal.reads_render` and `Op.exists_reads_symbol`: the words of literals and operators.
-/

namespace ExprTyping

/-! ## Operators -/

namespace Op

/-- How tight an operator with two operands binds. -/
def priority : Op → Nat
  | .or => 1
  | .and => 2
  | .eq => 3
  | .ne => 3
  | .lt => 3
  | .le => 3
  | .gt => 3
  | .ge => 3
  | .add => 10
  | .sub => 10
  | _ => 11

theorem priority_pos (op : Op) : 0 < op.priority := by
  cases op <;> exact Nat.zero_lt_succ _

theorem priority_le (op : Op) : op.priority ≤ 11 := by
  cases op <;> exact Nat.le_of_ble_eq_true rfl

/-- How an operator is written. -/
def symbol : Op → String
  | .add => "+"
  | .sub => "-"
  | .mul => "*"
  | .truediv => "/"
  | .neg => "-"
  | .eq => "=="
  | .ne => "!="
  | .lt => "<"
  | .le => "<="
  | .gt => ">"
  | .ge => ">="
  | .and => "and"
  | .or => "or"
  | .not => "not"
  | .unknown _ _ => "op(?)"

/-- The sign of an operator with two operands is read as that operator. -/
theorem exists_reads_symbol {op : Op} (hknown : op.isKnown) (harity : op.arity = 2) :
    ∃ tok, Reads op.symbol [tok] ∧ tok.binary? = some (op, op.priority) := by
  cases op with
  | add => exact ⟨.plus, reads_alone rfl (by decide) (by decide), rfl⟩
  | sub => exact ⟨.minus, reads_alone rfl (by decide) (by decide), rfl⟩
  | mul => exact ⟨.times, reads_alone rfl (by decide) (by decide), rfl⟩
  | truediv => exact ⟨.divide, reads_alone rfl (by decide) (by decide), rfl⟩
  | lt => exact ⟨.lt, reads_alone rfl (by decide) (by decide), rfl⟩
  | gt => exact ⟨.gt, reads_alone rfl (by decide) (by decide), rfl⟩
  | eq => exact ⟨.eq, reads_withEquals rfl (by decide) (by decide), rfl⟩
  | ne => exact ⟨.ne, reads_withEquals rfl (by decide) (by decide), rfl⟩
  | le => exact ⟨.le, reads_withEquals rfl (by decide) (by decide), rfl⟩
  | ge => exact ⟨.ge, reads_withEquals rfl (by decide) (by decide), rfl⟩
  | and => exact ⟨.and, reads_name (by decide) (by decide) (List.all_eq_true.1 rfl), rfl⟩
  | or => exact ⟨.or, reads_name (by decide) (by decide) (List.all_eq_true.1 rfl), rfl⟩
  | neg => cases harity
  | not => cases harity
  | unknown code outside => cases hknown

theorem reads_symbol_neg : Reads (Op.neg.symbol) [.minus] :=
  reads_alone rfl (by decide) (by decide)

theorem reads_symbol_not : Reads (Op.not.symbol) [.not] :=
  reads_name (by decide) (by decide) (List.all_eq_true.1 rfl)

end Op

/-! ## Literals -/

namespace Literal

/-- The word of a literal without a sign. -/
def tok (l : Literal) : Tok :=
  match l.kind with
  | .int => .integer l.int
  | _ => .real l.float

/-- The literal without the number that does not count. -/
def bare (l : Literal) : Literal :=
  match l.kind with
  | .int => ⟨.int, l.int, .zero⟩
  | kind => ⟨kind, 0, l.float⟩

/-- Whether a literal has a kind that numerals have. -/
def IsPlain (l : Literal) : Prop :=
  l.kind = .int ∨ l.kind = .real

/-- Whether a source can hold a literal. The smallest integer has no numeral: its magnitude is
beyond 64 bits, and a minus sign is a word of its own. -/
def Printable (l : Literal) : Prop :=
  match l.kind with
  | .int => -(2 ^ 63 - 1) ≤ l.int.toInt
  | .real => l.float.isNaN = false ∧ l.float.isInfinite = false
  | .other _ _ => False

instance : DecidablePred Literal.Printable
  | ⟨.int, n, _⟩ => inferInstanceAs (Decidable (-(2 ^ 63 - 1) ≤ n.toInt))
  | ⟨.real, _, x⟩ => inferInstanceAs (Decidable (x.isNaN = false ∧ x.isInfinite = false))
  | ⟨.other _ _, _, _⟩ => inferInstanceAs (Decidable False)

theorem Printable.isPlain {l : Literal} (h : l.Printable) : l.IsPlain := by
  obtain ⟨kind, n, x⟩ := l
  cases kind with
  | int => exact .inl rfl
  | real => exact .inr rfl
  | other code outside => cases h

theorem negate_negate (l : Literal) : l.negate.negate = l := by
  obtain ⟨kind, n, x⟩ := l
  have hfloat : x.neg.neg = x := by
    cases x with
    | nan => rfl
    | num s k => rw [Binary64.neg, Binary64.neg, Bool.not_not]
  rw [negate, negate, Int64.neg_neg, hfloat]

theorem bare_negate {l m : Literal} (h : l.bare = m.bare) : l.negate.bare = m.negate.bare := by
  obtain ⟨k, n, x⟩ := l
  obtain ⟨k', n', x'⟩ := m
  cases k <;> cases k' <;> cases h <;> rfl

theorem reads_ofNat {m : Nat} (h : m < 2 ^ 63) :
    Reads (Text.ofNat m) [.integer (Int64.ofNat m)] := by
  have hdigits : ∀ c ∈ Nat.toDigits 10 m, c.isDigit := fun c hc =>
    Nat.isDigit_of_mem_toDigits (by decide) (by decide) hc
  have hreads := reads_integer Nat.toDigits_ne_nil hdigits (by rwa [Numeral.natOfDigits_toDigits])
  rwa [Numeral.natOfDigits_toDigits] at hreads

theorem render_real (n : Int64) (x : Binary64) :
    (Literal.mk .real n x).render = Text.ofChars (Numeral.realChars x.toChars) := by
  unfold render Numeral.realChars
  dsimp only
  split
  · rfl
  · exact (List.map_append ..).symm

theorem realChars_minus (cs : List Char) :
    Numeral.realChars ('-' :: cs) = '-' :: Numeral.realChars cs := by
  unfold Numeral.realChars
  have hshow : showsReal ('-' :: cs) = showsReal cs := rfl
  rw [hshow]
  split <;> rfl

theorem reads_magnitude {k : Fin (Binary64.infinityOrd + 1)} (h : k.val ≠ Binary64.infinityOrd) :
    Reads (Text.ofChars (Numeral.realChars (Binary64.magnitudeChars k))) [.real (.num false k)] := by
  have hk : Binary64.ofOrd false k.val = .num false k := by
    unfold Binary64.ofOrd
    congr
    exact Nat.min_eq_left (by omega)
  obtain ⟨n, hplain, hwritten, hvalue⟩ := Numeral.denotes_magnitudeChars (k := k.val) (by omega)
  rw [hk] at hvalue
  rw [← hvalue]
  refine reads_real hplain hwritten ?_
  rw [hvalue]
  exact beq_false_of_ne h

theorem reads_ofInt {n : Int64} (h : -(2 ^ 63 - 1) ≤ n.toInt) :
    Reads (Text.ofInt n.toInt) [.integer n] ∨ Reads (Text.ofInt n.toInt) [.minus, .integer (-n)] := by
  have hlt := n.toInt_lt
  have hback := n.ofInt_toInt
  -- A numeral is read without its sign, so its range is that of the magnitude.
  cases hn : n.toInt with
  | ofNat m =>
    rw [hn, Int.ofNat_eq_natCast] at hlt hback
    rw [Int64.ofInt_eq_ofNat] at hback
    left
    have hreads := reads_ofNat (m := m) (by omega)
    rwa [hback] at hreads
  | negSucc m =>
    rw [hn] at h hback
    have hopposite : Int64.ofNat (m + 1) = -n := by
      rw [← hback, Int.negSucc_eq, ← Int64.ofInt_eq_ofNat, Int64.ofInt_neg, Int64.neg_neg]
      rfl
    right
    have hreads := reads_ofNat (m := m + 1) (by omega)
    rw [hopposite] at hreads
    exact hreads.minus

/-- A literal is read as its numeral, or as a minus sign and the numeral of the opposite
literal. -/
theorem reads_render {l : Literal} (h : l.Printable) :
    Reads l.render [l.tok] ∨ Reads l.render [.minus, l.negate.tok] := by
  obtain ⟨kind, n, x⟩ := l
  cases kind with
  | int => exact reads_ofInt h
  | other code outside => cases h
  | real =>
    rw [render_real]
    cases x with
    | nan => cases h.1
    | num s k =>
      have hfinite : k.val ≠ Binary64.infinityOrd := ne_of_beq_false h.2
      have hreads := reads_magnitude hfinite
      -- The sign is no part of the numeral, and it does not change whether `.0` is added.
      cases s with
      | false =>
        left
        rwa [Binary64.toChars, if_neg hfinite]
      | true =>
        right
        rw [Binary64.toChars, if_neg hfinite, if_pos rfl, realChars_minus]
        exact hreads.minus

end Literal

/-! ## Expressions -/

/-- What the place of an operand can see of it. -/
inductive Head where
  /-- A literal, a symbol or something under a minus sign. -/
  | tight
  /-- Something under `not`. -/
  | complement
  /-- The call of an operator with two operands. -/
  | binary (priority : Nat)
  deriving DecidableEq, Repr

/-- The place of an operand. -/
inductive Place where
  /-- In front of a binary operator. -/
  | left (op : Op)
  /-- Behind a binary operator. -/
  | right (op : Op)
  /-- Behind `not`. -/
  | complement
  /-- Behind a minus sign. -/
  | negation
  deriving DecidableEq, Repr

/-- Whether an operand has to stand in parentheses at a place. -/
def Place.demands : Place → Head → Bool
  | .left op, .binary q => q < op.priority
  | .right op, .binary q => q ≤ op.priority
  | .left op, .complement => 2 < op.priority
  | .right op, .complement => 2 < op.priority
  | .complement, .binary q => q ≤ 2
  | .negation, .binary _ => true
  | .negation, .complement => true
  | _, _ => false

/-- The place behind an operator with one operand. -/
def Op.place : Op → Place
  | .neg => .negation
  | _ => .complement

/-- Words with `n` pairs of parentheses around them. -/
def enclose : Nat → List Text → List Text
  | 0, ws => ws
  | n + 1, ws => "(" :: (enclose n ws ++ [(")" : Text)])

namespace Expr

/-- The outermost operator of an expression. -/
def head : Expr → Head
  | .call _ op [_, _] => .binary op.priority
  | .call _ .not [_] => .complement
  | _ => .tight

/-- The words of an expression. Around the subterm at a path, which gives the number of the
argument at each call from the root downwards, stand `extra` more pairs of parentheses than its
place demands. -/
def words : Expr → (extra : List Nat → Nat) → List Text
  | .lit _ l, _ => [l.render]
  | .sym _ name, _ => [name]
  | .call _ op [e], extra =>
    op.symbol :: enclose ((op.place.demands e.head).toNat + extra [0])
      (e.words fun path => extra (0 :: path))
  | .call _ op [l, r], extra =>
    enclose (((Place.left op).demands l.head).toNat + extra [0])
        (l.words fun path => extra (0 :: path)) ++
      (op.symbol : Text) :: enclose (((Place.right op).demands r.head).toNat + extra [1])
        (r.words fun path => extra (1 :: path))
  | _, _ => []

/-- The text of an expression, with a blank between words. -/
def print (e : Expr) (extra : List Nat → Nat) : Text :=
  Text.join " " (enclose (extra []) (e.words extra))

mutual

/-- The expression without its positions. -/
def bare : Expr → Expr
  | .lit _ l => .lit .nowhere l.bare
  | .sym _ name => .sym .nowhere name
  | .call _ op args => .call .nowhere op (bareAll args)
  | .missing => .missing

/-- Expressions without their positions. -/
def bareAll : List Expr → List Expr
  | [] => []
  | e :: es => e.bare :: bareAll es

end

/-- Whether a source can hold an expression: its calls have as many arguments as their operators
take, its symbols are read as the names they are, and no minus sign stands in front of a literal,
which would take it in. -/
inductive Printable : Expr → Prop
  | lit (pos : Pos) {l : Literal} : l.Printable → Printable (.lit pos l)
  | sym (pos : Pos) {name : Text} {start : Pos} :
      name.items = [.token ⟨.ident name, start⟩] → Printable (.sym pos name)
  | unary (pos : Pos) {op : Op} {e : Expr} : op.isKnown → op.arity = 1 →
      (op = .neg → ∀ start l, e ≠ .lit start l) → Printable e → Printable (.call pos op [e])
  | binary (pos : Pos) {op : Op} {l r : Expr} : op.isKnown → op.arity = 2 →
      Printable l → Printable r → Printable (.call pos op [l, r])

end Expr

end ExprTyping
