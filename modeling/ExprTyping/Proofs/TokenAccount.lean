import ExprTyping.Proofs.FreeSymbols
import ExprTyping.Proofs.Phrases
import Mathlib.Logic.Function.Iterate

/-!
# What becomes of each token

Every token of an expression is accounted for by what stands around it, without a reading of the
whole. A token behind an operand is a binary operator, a closing parenthesis or the start of a
further operand, which puts up a product. Elsewhere a minus sign is a sign, and it goes into a
numeral if only parentheses and further signs stand in between.

A `Spot` is a token with all tokens before and behind it, and `Spot.marks` are the nodes that it
leaves in the tree. From left to right, they are the nodes of the tree in the order of writing, a
binary call between its arguments:

- `Phrase.isFolded_append`: looking ahead from a sign tells whether its operand is a literal;
- `Phrase.leaves`: the marks of the tokens of a phrase, wherever it stands;
- `parseExpr_accounts`: nothing is lost, doubled or reordered.
-/

namespace ExprTyping

/-! ## The marks of a tree -/

/-- What a token leaves in a tree: a leaf, or the operator and the position of a call. -/
inductive Mark where
  | leaf (e : Expr)
  | call (op : Op) (pos : Pos)

namespace Mark

/-- The leaf of a mark. -/
def leaf? : Mark → Option Expr
  | .leaf e => some e
  | .call _ _ => none

/-- The call of a mark. -/
def call? : Mark → Option (Op × Pos)
  | .leaf _ => none
  | .call op pos => some (op, pos)

/-- The mark of a call with those of its arguments, in the order of writing. -/
def among (m : Mark) : List (List Mark) → List Mark
  | [left, right] => left ++ m :: right
  | args => m :: args.flatten

theorem among_perm (m : Mark) (args : List (List Mark)) :
    (m.among args).Perm (m :: args.flatten) := by
  unfold among
  split
  · simp
  · exact List.Perm.refl _

theorem filterMap_leaf?_among (op : Op) (pos : Pos) (args : List (List Mark)) :
    ((call op pos).among args).filterMap leaf? = args.flatten.filterMap leaf? := by
  unfold among
  split <;> simp [leaf?, List.filterMap_cons]

end Mark

namespace Expr

/-- Whether a node is no call. -/
def isLeaf : Expr → Bool
  | .call _ _ _ => false
  | _ => true

/-- Whether an expression is a literal. -/
def isLiteral : Expr → Bool
  | .lit _ _ => true
  | _ => false

/-- The operator that a node calls, and where. -/
def call? : Expr → Option (Op × Pos)
  | .call pos op _ => some (op, pos)
  | _ => none

/-- The operators of all calls. -/
def ops (e : Expr) : List Op :=
  (e.nodes.filterMap call?).map Prod.fst

mutual

/-- The marks of all nodes in the order of writing: that of a call stands between those of its two
arguments, or in front of any other number of them. -/
def marks : Expr → List Mark
  | .lit p l => [.leaf (.lit p l)]
  | .sym p name => [.leaf (.sym p name)]
  | .call p op args => (Mark.call op p).among (marksAll args)
  | .missing => []

/-- The marks of several expressions. -/
def marksAll : List Expr → List (List Mark)
  | [] => []
  | e :: es => e.marks :: marksAll es

end

mutual

/-- The leaves have the same order in writing as in a visit. -/
theorem filterMap_leaf?_marks : ∀ e : Expr, e.marks.filterMap Mark.leaf? = e.nodes.filter isLeaf
  | .lit p l => rfl
  | .sym p name => rfl
  | .call p op args => by
    change ((Mark.call op p).among (marksAll args)).filterMap Mark.leaf? = _
    rw [Mark.filterMap_leaf?_among, filterMap_leaf?_marksAll args]
    rfl
  | .missing => rfl

theorem filterMap_leaf?_marksAll : ∀ es : List Expr,
    (marksAll es).flatten.filterMap Mark.leaf? = (visitAll (fun _ => true) es).filter isLeaf
  | [] => rfl
  | e :: es => by
    have hfirst := filterMap_leaf?_marks e
    have hrest := filterMap_leaf?_marksAll es
    rw [marksAll, List.flatten_cons, List.filterMap_append, hfirst, hrest, visitAll,
      List.filter_append, nodes]

end

mutual

/-- There is one mark for each call, though in another order than in a visit. -/
theorem filterMap_call?_marks : ∀ e : Expr,
    (e.marks.filterMap Mark.call?).Perm (e.nodes.filterMap call?)
  | .lit _ _ => .refl _
  | .sym _ _ => .refl _
  | .call p op args =>
    ((Mark.among_perm _ _).filterMap _).trans ((filterMap_call?_marksAll args).cons (op, p))
  | .missing => .refl _

theorem filterMap_call?_marksAll : ∀ es : List Expr,
    ((marksAll es).flatten.filterMap Mark.call?).Perm
      ((visitAll (fun _ => true) es).filterMap call?)
  | [] => .refl _
  | e :: es => by
    rw [marksAll, List.flatten_cons, List.filterMap_append, visitAll, List.filterMap_append]
    exact (filterMap_call?_marks e).append (filterMap_call?_marksAll es)

end

theorem marks_unary (p : Pos) (op : Op) (e : Expr) :
    (call p op [e]).marks = .call op p :: e.marks := by
  simp [marks, marksAll, Mark.among]

theorem marks_binary (p : Pos) (op : Op) (l r : Expr) :
    (call p op [l, r]).marks = l.marks ++ .call op p :: r.marks :=
  rfl

/-- A literal under signs, given from the innermost outwards: each negates the value, and the
outermost gives the position. No other expression changes. -/
def underSigns (signs : List Pos) : Expr → Expr
  | .lit p l => .lit (signs.getLast?.getD p) (Literal.negate^[signs.length] l)
  | e => e

theorem underSigns_nil (e : Expr) : e.underSigns [] = e := by
  cases e <;> rfl

theorem underSigns_of_not_isLiteral {e : Expr} (h : e.isLiteral = false) (signs : List Pos) :
    e.underSigns signs = e := by
  cases e <;> first | rfl | cases h

/-- The innermost sign may be taken in first. -/
theorem underSigns_cons {e : Expr} (h : e.isLiteral) (p : Pos) (signs : List Pos) :
    e.underSigns (p :: signs) = (e.negated p).underSigns signs := by
  cases e with
  | lit q l => simp [underSigns, negated, List.getLast?_cons]
  | _ => cases h

theorem isLiteral_negated (e : Expr) (p : Pos) : (e.negated p).isLiteral = e.isLiteral := by
  cases e <;> rfl

theorem negated_of_not_isLiteral {e : Expr} (h : e.isLiteral = false) (p : Pos) :
    e.negated p = .call p .neg [e] := by
  cases e <;> first | rfl | cases h

/-- Only leaves have names. -/
theorem filterMap_symbolName?_filter (nodes : List Expr) :
    (nodes.filter isLeaf).filterMap symbolName? = nodes.filterMap symbolName? := by
  rw [List.filterMap_filter]
  refine List.filterMap_congr fun n _ => ?_
  cases n <;> rfl

/-- The names that are kept are the ones that occur for the first time. -/
theorem distinct_eq_eraseDups (names : List Text) : distinct names = names.eraseDups := by
  have step : ∀ (names seen : List Text),
      names.foldl (fun seen n => if seen.contains n then seen else seen ++ [n]) seen =
        seen ++ (names.filter fun n => !seen.contains n).eraseDups := by
    intro names
    induction names with
    | nil => simp
    | cons n names ih =>
      intro seen
      rw [List.foldl_cons, ih, List.filter_cons]
      by_cases h : seen.contains n
      · rw [if_pos h, if_neg (by simpa using h)]
      · -- What is new behind `n` is what was new before and is not `n`.
        have hfilter : (names.filter fun m => !(seen ++ [n]).contains m) =
            (names.filter fun m => !seen.contains m).filter fun m => m != n := by
          rw [List.filter_filter]
          refine List.filter_congr fun m _ => ?_
          rw [Bool.eq_iff_iff]
          simp [and_comm]
        rw [if_neg h, if_pos (by simpa using h), hfilter, List.eraseDups_cons,
          List.append_assoc]
        rfl
  rw [distinct, step]
  simp

end Expr

/-! ## The spots of a text -/

namespace Tok

/-- Whether an operand can end with a word. -/
def endsOperand (t : Tok) : Bool :=
  t.isAtom || t == .closeParen

/-- Whether a word is a numeral. -/
def isNumeral : Tok → Bool
  | .integer _ => true
  | .real _ => true
  | _ => false

/-- The name that a word is. -/
def name? : Tok → Option Text
  | .ident name => some name
  | _ => none

theorem ne_closeParen_of_binary {t : Tok} {op : Op} {priority : Nat}
    (h : t.binary? = some (op, priority)) : t ≠ .closeParen := by
  rintro rfl
  cases h

theorem ne_closeParen_of_startsOperand {t : Tok} (h : t.startsOperand) : t ≠ .closeParen := by
  rintro rfl
  cases h

theorem startsOperand_of_binary {t : Tok} {op : Op} {priority : Nat}
    (h : t.binary? = some (op, priority)) : t.startsOperand = false := by
  cases t <;> first | rfl | cases h

theorem endsOperand_of_binary {t : Tok} {op : Op} {priority : Nat}
    (h : t.binary? = some (op, priority)) : t.endsOperand = false := by
  cases t <;> first | rfl | cases h

end Tok

/-- Whether tokens, the nearest first, end with an operand. -/
def isBehindOperand : List Token → Bool
  | [] => false
  | t :: _ => t.tok.endsOperand

/-- The minus signs directly in front of an operand, from the innermost outwards, with the tokens
before it, the nearest first, and those behind it. A pair of parentheses around the operand is
passed over, and a minus behind another operand is no sign. -/
def signs : List Token → List Token → List Pos
  | [], _ => []
  | t :: before, after =>
    match t.tok, after with
    | .openParen, right :: after => if right.tok = .closeParen then signs before after else []
    | .minus, after => if isBehindOperand before then [] else t.pos :: signs before after
    | _, _ => []

/-- Whether tokens start with so many closing parentheses. -/
def closes : Nat → List Token → Bool
  | 0, _ => true
  | _ + 1, [] => false
  | n + 1, t :: ts => t.tok == .closeParen && closes n ts

/-- Whether the operand that starts here is a numeral, perhaps under signs and in parentheses, of
which `opened` have been opened before. -/
def isFolded (opened : Nat) : List Token → Bool
  | [] => false
  | t :: after =>
    match t.tok with
    | .minus => isFolded opened after
    | .openParen => isFolded (opened + 1) after
    | tok => tok.isNumeral && closes opened after

/-- A token with its surroundings: the tokens before it, the nearest first, and those behind it. -/
structure Spot where
  before : List Token
  token : Token
  after : List Token

namespace Spot

/-- The leaf that a token becomes, if it is a numeral or a name: its value at its position, or for
a numeral under signs what these make of it. -/
def leaf? (s : Spot) : Option Expr :=
  s.token.atom?.map (Expr.underSigns (signs s.before s.after))

/-- The operator that is written at a spot: a `not`, or a binary operator. -/
def operator? (s : Spot) : Option Op :=
  match s.token.tok with
  | .not => some .not
  | .minus => if isBehindOperand s.before then some .sub else none
  | tok => tok.binary?.map Prod.fst

/-- Whether an operand starts directly behind another one. -/
def isJuxtaposition (s : Spot) : Bool :=
  isBehindOperand s.before && s.token.tok.startsOperand

/-- Whether a token is a sign that goes into no numeral. -/
def isUnfoldedSign (s : Spot) : Bool :=
  s.token.tok == .minus && !isBehindOperand s.before && !isFolded 0 s.after

/-- The operators that a token calls. -/
def ops (s : Spot) : List Op :=
  s.operator?.toList ++ (if s.isJuxtaposition then [.mul] else []) ++
    (if s.isUnfoldedSign then [.neg] else [])

/-- The calls of a token, which stand at its position. -/
def calls (s : Spot) : List (Op × Pos) :=
  s.ops.map (·, s.token.pos)

/-- What a token leaves in the tree, the call in front of the leaf. -/
def marks (s : Spot) : List Mark :=
  s.ops.map (.call · s.token.pos) ++ s.leaf?.toList.map .leaf

end Spot

/-- The spots of tokens that stand between others. -/
def spotsIn (before : List Token) : List Token → List Token → List Spot
  | [], _ => []
  | t :: ts, after => ⟨before, t, ts ++ after⟩ :: spotsIn (t :: before) ts after

/-- The spots of all tokens of a text. -/
def spots (ts : List Token) : List Spot :=
  spotsIn [] ts []

theorem spotsIn_append (before ts us after : List Token) :
    spotsIn before (ts ++ us) after =
      spotsIn before ts (us ++ after) ++ spotsIn (ts.reverse ++ before) us after := by
  induction ts generalizing before with
  | nil => rfl
  | cons t ts ih => simp [spotsIn, ih]

theorem map_token_spotsIn (before ts after : List Token) :
    (spotsIn before ts after).map Spot.token = ts := by
  induction ts generalizing before with
  | nil => rfl
  | cons t ts ih => simp [spotsIn, ih]

/-- Only closing parentheses behind an operand matter for the signs in front of it. -/
theorem signs_of_not_close {t : Token} (ht : t.tok ≠ .closeParen) (before after : List Token) :
    signs before (t :: after) = signs before [] := by
  induction before with
  | nil => rfl
  | cons s before ih =>
    unfold signs
    cases s.tok <;> simp [ht, ih]

/-- No sign stands directly behind an operand. -/
theorem signs_of_isBehindOperand {before : List Token} (h : isBehindOperand before)
    (after : List Token) : signs before after = [] := by
  cases before with
  | nil => rfl
  | cons t before =>
    change t.tok.endsOperand = true at h
    unfold signs
    cases ht : t.tok <;> first | rfl | (rw [ht] at h; cases h)

/-- A binary operator is no sign. -/
theorem signs_of_binary {t : Token} {op : Op} {priority : Nat}
    (ht : t.tok.binary? = some (op, priority)) {before : List Token}
    (hbefore : isBehindOperand before = true) (after : List Token) :
    signs (t :: before) after = [] := by
  unfold signs
  split
  · next htok =>
    rw [htok] at ht
    cases ht
  · rw [if_pos hbefore]
  · rfl

theorem closes_of_not_close {t : Token} (ht : t.tok ≠ .closeParen) {opened : Nat}
    (h : 0 < opened) (after : List Token) : closes opened (t :: after) = false := by
  cases opened with
  | zero => exact absurd h (Nat.lt_irrefl 0)
  | succ opened => simp [closes, ht]

/-! ## The marks of a spot -/

namespace Spot

variable {t : Token} (before after : List Token)

/-- The product that tokens put up where they start an operand behind another one. -/
def joint (before : List Token) : List Token → List Mark
  | [] => []
  | t :: _ => if isBehindOperand before then [.call .mul t.pos] else []

theorem joint_of_not_isBehindOperand {before : List Token} (h : isBehindOperand before = false)
    (ts : List Token) : joint before ts = [] := by
  cases ts <;> simp [joint, h]

/-- A token that starts an operand calls nothing but a product. -/
theorem map_ops_of_startsOperand (h : t.tok.startsOperand) :
    (Spot.mk before t after).ops.map (.call · t.pos) = joint before [t] := by
  have hminus : t.tok ≠ .minus := by
    intro hminus
    rw [hminus] at h
    cases h
  have hoperator : (Spot.mk before t after).operator? = none := by
    unfold operator?
    split
    · next hnot =>
      rw [hnot] at h
      cases h
    · next hsign => exact absurd hsign hminus
    · rw [Tok.binary?_of_startsOperand h]
      rfl
  simp [ops, hoperator, isJuxtaposition, isUnfoldedSign, h, hminus, joint, apply_ite]

theorem marks_atom {e : Expr} (h : t.atom? = some e) :
    (Spot.mk before t after).marks =
      joint before [t] ++ (e.underSigns (signs before after)).marks := by
  have hleaf : (Spot.mk before t after).leaf? = some (e.underSigns (signs before after)) := by
    rw [leaf?, h, Option.map_some]
  have hatom : t.tok.isAtom ∧ ∀ ps, (e.underSigns ps).marks = [.leaf (e.underSigns ps)] := by
    unfold Token.atom? at h
    split at h <;> cases h <;> simp [*, Tok.isAtom, Expr.underSigns, Expr.marks]
  rw [marks, hleaf, hatom.2,
    map_ops_of_startsOperand before after (Tok.startsOperand_iff.2 (.inl hatom.1))]
  rfl

theorem marks_openParen (h : t.tok = .openParen) :
    (Spot.mk before t after).marks = joint before [t] := by
  have hleaf : (Spot.mk before t after).leaf? = none := by simp [leaf?, Token.atom?, h]
  rw [marks, hleaf, map_ops_of_startsOperand before after (Tok.startsOperand_iff.2 (.inr h))]
  exact List.append_nil _

theorem marks_closeParen (h : t.tok = .closeParen) : (Spot.mk before t after).marks = [] := by
  have hstarts : Tok.startsOperand .closeParen = false := rfl
  simp [marks, ops, operator?, isJuxtaposition, isUnfoldedSign, leaf?, Token.atom?, h,
    Tok.binary?, hstarts]

theorem marks_sign (h : t.tok = .minus) (hbefore : isBehindOperand before = false) :
    (Spot.mk before t after).marks = if isFolded 0 after then [] else [.call .neg t.pos] := by
  cases hfolded : isFolded 0 after <;>
    simp [marks, ops, operator?, isJuxtaposition, isUnfoldedSign, leaf?, Token.atom?, h, hbefore,
      hfolded]

theorem marks_not (h : t.tok = .not) :
    (Spot.mk before t after).marks = [.call .not t.pos] := by
  have hstarts : Tok.startsOperand .not = false := rfl
  simp [marks, ops, operator?, isJuxtaposition, isUnfoldedSign, leaf?, Token.atom?, h, hstarts]

theorem marks_binary {op : Op} {priority : Nat} (h : t.tok.binary? = some (op, priority))
    (hbefore : isBehindOperand before = true) :
    (Spot.mk before t after).marks = [.call op t.pos] := by
  have hjoined : (Spot.mk before t after).isJuxtaposition = false := by
    rw [isJuxtaposition, Tok.startsOperand_of_binary h, Bool.and_false]
  cases ht : t.tok <;> rw [ht] at h <;> cases h <;>
    simp [marks, ops, operator?, hjoined, isUnfoldedSign, leaf?, Token.atom?, ht, hbefore,
      Tok.binary?]

end Spot

/-! ## The marks of a phrase -/

namespace Phrase

variable {loose : Bool} {ts : List Token} {e : Expr}

theorem isBehindOperand_append (h : Phrase loose ts e) (before : List Token) :
    isBehindOperand (ts.reverse ++ before) = true := by
  induction h generalizing before with
  | @atom t e ht =>
    change t.tok.endsOperand = true
    unfold Token.atom? at ht
    split at ht <;> simp_all [Tok.endsOperand, Tok.isAtom]
  | parens _ hright _ _ => simp [isBehindOperand, Tok.endsOperand, hright]
  | negation _ _ ih => simp [ih]
  | complement _ _ ih => simp [ih]
  | binary _ _ _ _ ih => simp [ih]
  | adjacent _ _ _ _ ih => simpa using ih _

/-- Looking ahead over a phrase finds a numeral exactly if the tree is a literal, and then the
parentheses opened before have to be closed behind it. Those of a loose phrase are not closed
before its operator. -/
theorem isFolded_append (h : Phrase loose ts e) {opened : Nat}
    (hopened : loose = true → 0 < opened) (after : List Token) :
    isFolded opened (ts ++ after) = (e.isLiteral && closes opened after) := by
  induction h generalizing opened after with
  | @atom t e ht =>
    unfold Token.atom? at ht
    split at ht <;> cases ht <;> simp [isFolded, *, Tok.isNumeral, Expr.isLiteral]
  | @parens _ left right ts e hleft hright _ ih =>
    have hinner := ih (fun _ => Nat.succ_pos opened) (right :: after)
    simp [isFolded, hleft, hinner, closes, hright]
  | @negation t ts e ht _ ih =>
    have hoperand : isFolded opened (ts ++ after) = _ := ih nofun after
    simp [isFolded, ht, hoperand, Expr.isLiteral_negated]
  | complement ht _ _ => simp [isFolded, ht, Tok.isNumeral, Expr.isLiteral]
  | @binary _ _ t op priority ls rs l r ht _ _ ih _ =>
    have hclose := Tok.ne_closeParen_of_binary ht
    have hleft := ih (fun _ => hopened rfl) (t :: (rs ++ after))
    rw [closes_of_not_close hclose (hopened rfl), Bool.and_false] at hleft
    simpa [Expr.isLiteral] using hleft
  | @adjacent _ _ t ls rs l r ht _ _ ih _ =>
    have hclose := Tok.ne_closeParen_of_startsOperand ht
    have hleft := ih (fun _ => hopened rfl) (t :: (rs ++ after))
    rw [closes_of_not_close hclose (hopened rfl), Bool.and_false] at hleft
    simpa [Expr.isLiteral] using hleft

theorem exists_cons (h : Phrase loose ts e) : ∃ t us, ts = t :: us := by
  cases ts with
  | nil => cases h.isBehindOperand_append []
  | cons t us => exact ⟨t, us, rfl⟩

theorem head?_append (h : Phrase loose ts e) (us : List Token) :
    (ts ++ us).head? = ts.head? := by
  obtain ⟨t, ts, rfl⟩ := h.exists_cons
  rfl

theorem joint_append (h : Phrase loose ts e) (before us : List Token) :
    Spot.joint before (ts ++ us) = Spot.joint before ts := by
  obtain ⟨t, ts, rfl⟩ := h.exists_cons
  rfl

end Phrase

/-- Whether tokens leave the marks of a tree, wherever they stand. A literal takes in the signs in
front of it, and behind another operand the first token puts up a product. Where a loose phrase
stands, there is no sign in front. -/
def Leaves (loose : Bool) (ts : List Token) (e : Expr) : Prop :=
  ∀ before after : List Token,
    (isBehindOperand before = true → ∀ t ∈ ts.head?, t.tok.startsOperand = true) →
    (loose = true → signs before [] = []) →
    (spotsIn before ts after).flatMap Spot.marks =
      Spot.joint before ts ++ (e.underSigns (signs before after)).marks

namespace Leaves

variable {loose : Bool} {ts : List Token} {e : Expr}

/-- Behind no operand, no product is put up. -/
theorem inside (h : Leaves loose ts e) {before : List Token}
    (hbefore : isBehindOperand before = false) (hloose : loose = true → signs before [] = [])
    (after : List Token) :
    (spotsIn before ts after).flatMap Spot.marks =
      (e.underSigns (signs before after)).marks := by
  rw [h before after (by simp [hbefore]) hloose, Spot.joint_of_not_isBehindOperand hbefore,
    List.nil_append]

/-- The first of two operands: the token behind it keeps the signs in front of both away from
it. -/
theorem first (h : Leaves loose ts e) (hphrase : Phrase loose ts e) {t : Token}
    (ht : t.tok ≠ .closeParen) {before us : List Token}
    (hstart : isBehindOperand before = true → ∀ s ∈ (ts ++ us).head?, s.tok.startsOperand = true)
    (hsigns : signs before [] = []) (after : List Token) :
    (spotsIn before ts (t :: after)).flatMap Spot.marks =
      Spot.joint before (ts ++ us) ++ e.marks := by
  rw [hphrase.head?_append] at hstart
  rw [h before (t :: after) hstart (fun _ => hsigns), signs_of_not_close ht, hsigns,
    e.underSigns_nil, hphrase.joint_append]

theorem parens (h : Leaves loose ts e) {left right : Token} (hleft : left.tok = .openParen)
    (hright : right.tok = .closeParen) : Leaves false (left :: (ts ++ [right])) e := by
  intro before after _ _
  have hbehind : isBehindOperand (left :: before) = false := by
    simp [isBehindOperand, hleft, Tok.endsOperand, Tok.isAtom]
  have hsigns : signs (left :: before) (right :: after) = signs before after := by
    simp [signs, hleft, hright]
  -- Inside the parenthesis no sign is in front of a loose phrase.
  have hinner := h.inside hbehind (fun _ => by simp [signs, hleft]) (right :: after)
  rw [hsigns] at hinner
  simp [spotsIn, spotsIn_append, hinner, Spot.marks_openParen _ _ hleft,
    Spot.marks_closeParen _ _ hright, Spot.joint]

/-- A word that cannot stand behind an operand does not. -/
theorem isBehindOperand_eq_false {t : Token} {before : List Token}
    (hstart : isBehindOperand before = true → ∀ s ∈ (t :: ts).head?, s.tok.startsOperand = true)
    (ht : t.tok.startsOperand = false) : isBehindOperand before = false := by
  rw [Bool.eq_false_iff]
  intro hbefore
  have hstarts := hstart hbefore t rfl
  rw [ht] at hstarts
  cases hstarts

theorem negation (h : Leaves false ts e) (hphrase : Phrase false ts e) {t : Token}
    (ht : t.tok = .minus) : Leaves false (t :: ts) (e.negated t.pos) := by
  intro before after hstart _
  have hbefore := isBehindOperand_eq_false hstart (by rw [ht]; rfl)
  have hbehind : isBehindOperand (t :: before) = false := by
    simp [isBehindOperand, ht, Tok.endsOperand, Tok.isAtom]
  have hsigns : signs (t :: before) after = t.pos :: signs before after := by
    simp [signs, ht, hbefore]
  have hoperand := h.inside hbehind (by simp) after
  -- Looking ahead tells whether the operand is a literal, which takes the sign in.
  have hfolded : isFolded 0 (ts ++ after) = (e.isLiteral && true) :=
    hphrase.isFolded_append (by simp) after
  rw [Spot.joint_of_not_isBehindOperand hbefore, spotsIn, List.flatMap_cons, hoperand, hsigns,
    Spot.marks_sign _ _ ht hbefore, hfolded]
  cases hliteral : e.isLiteral with
  | true => simp [Expr.underSigns_cons hliteral]
  | false =>
    rw [Expr.underSigns_of_not_isLiteral hliteral, Expr.negated_of_not_isLiteral hliteral]
    simp [Expr.underSigns, Expr.marks_unary]

theorem complement (h : Leaves loose ts e) {t : Token} (ht : t.tok = .not) :
    Leaves false (t :: ts) (.call t.pos .not [e]) := by
  intro before after hstart _
  have hbefore := isBehindOperand_eq_false hstart (by rw [ht]; rfl)
  have hbehind : isBehindOperand (t :: before) = false := by
    simp [isBehindOperand, ht, Tok.endsOperand, Tok.isAtom]
  have hsigns (after : List Token) : signs (t :: before) after = [] := by simp [signs, ht]
  have hoperand := h.inside hbehind (fun _ => hsigns []) after
  rw [hsigns, Expr.underSigns_nil] at hoperand
  rw [Spot.joint_of_not_isBehindOperand hbefore, spotsIn, List.flatMap_cons, hoperand,
    Spot.marks_not _ _ ht]
  simp [Expr.underSigns, Expr.marks_unary]

variable {looseLeft looseRight : Bool} {t : Token} {ls rs : List Token} {l r : Expr}

theorem binary (hl : Leaves looseLeft ls l) (hphrase : Phrase looseLeft ls l)
    (hr : Leaves looseRight rs r) {op : Op} {priority : Nat}
    (ht : t.tok.binary? = some (op, priority)) :
    Leaves true (ls ++ t :: rs) (.call t.pos op [l, r]) := by
  intro before after hstart hloose
  have hbefore := hphrase.isBehindOperand_append before
  have hbehind : isBehindOperand (t :: (ls.reverse ++ before)) = false :=
    Tok.endsOperand_of_binary ht
  have hleft := hl.first hphrase (Tok.ne_closeParen_of_binary ht) hstart (hloose rfl) (rs ++ after)
  -- A minus behind the left operand is no sign of the right one.
  have hsigns := signs_of_binary ht hbefore
  have hright := hr.inside hbehind (fun _ => hsigns []) after
  rw [hsigns, Expr.underSigns_nil] at hright
  rw [spotsIn_append, List.flatMap_append, spotsIn, List.flatMap_cons, List.cons_append, hleft,
    hright, Spot.marks_binary _ _ ht hbefore]
  simp [Expr.underSigns, Expr.marks_binary]

theorem adjacent (hl : Leaves looseLeft ls l) (hphrase : Phrase looseLeft ls l)
    (hr : Leaves looseRight (t :: rs) r) (ht : t.tok.startsOperand) :
    Leaves true (ls ++ t :: rs) (.call t.pos .mul [l, r]) := by
  intro before after hstart hloose
  have hbefore := hphrase.isBehindOperand_append before
  have hleft := hl.first hphrase (Tok.ne_closeParen_of_startsOperand ht) hstart (hloose rfl)
    (rs ++ after)
  have hsigns := signs_of_isBehindOperand hbefore
  have hright := hr (ls.reverse ++ before) after (by simp [ht]) (fun _ => hsigns [])
  rw [hsigns, Expr.underSigns_nil] at hright
  rw [spotsIn_append, List.flatMap_append, List.cons_append, hleft, hright]
  simp [Spot.joint, hbefore, Expr.underSigns, Expr.marks_binary]

end Leaves

/-- The tokens of a phrase leave the marks of its tree. -/
theorem Phrase.leaves {loose : Bool} {ts : List Token} {e : Expr} (h : Phrase loose ts e) :
    Leaves loose ts e := by
  induction h with
  | atom ht =>
    intro before after _ _
    simp [spotsIn, Spot.marks_atom before after ht]
  | parens hleft hright _ ih => exact ih.parens hleft hright
  | negation ht h ih => exact ih.negation h ht
  | complement ht _ ih => exact ih.complement ht
  | binary ht hl _ ihl ihr => exact ihl.binary hl ihr ht
  | adjacent ht hl _ ihl ihr => exact ihl.adjacent hl ihr ht

/-! ## The account of a text -/

namespace Spot

theorem filterMap_leaf?_marks (s : Spot) : s.marks.filterMap Mark.leaf? = s.leaf?.toList := by
  have hops : (s.ops.map (Mark.call · s.token.pos)).filterMap Mark.leaf? = [] := by
    simp [List.filterMap_map, Function.comp_def, Mark.leaf?]
  rw [marks, List.filterMap_append, hops]
  cases s.leaf? <;> rfl

theorem filterMap_call?_marks (s : Spot) : s.marks.filterMap Mark.call? = s.calls := by
  have hleaf : (s.leaf?.toList.map Mark.leaf).filterMap Mark.call? = [] := by
    cases s.leaf? <;> rfl
  rw [marks, List.filterMap_append, hleaf, List.append_nil, List.filterMap_map]
  exact congrFun (List.filterMap_eq_map (f := (·, s.token.pos))) s.ops

/-- The name of the leaf that a token becomes is the name that the token is. -/
theorem leaf?_bind_symbolName? (s : Spot) :
    s.leaf?.bind Expr.symbolName? = s.token.tok.name? := by
  unfold leaf? Token.atom?
  split <;> simp_all [Tok.name?, Expr.underSigns, Expr.symbolName?]

/-- The calls of some tokens: one for each operator that is written, and those without one. -/
theorem count_ops (ss : List Spot) (op : Op) :
    (ss.flatMap ops).count op =
      ss.countP (fun s => s.operator? = some op) +
        (if op = .mul then ss.countP isJuxtaposition else 0) +
        (if op = .neg then ss.countP isUnfoldedSign else 0) := by
  induction ss with
  | nil => simp
  | cons s ss ih =>
    have hwritten : s.operator?.toList.count op = if s.operator? = some op then 1 else 0 := by
      cases s.operator? <;> simp [List.count_singleton]
    -- A call without an operator counts for one operator only.
    have hsilent (b : Bool) (o : Op) : (if b then [o] else []).count op =
        if op = o then (if b then 1 else 0) else 0 := by
      cases b <;> simp [List.count_singleton, @eq_comm _ o op]
    rw [List.flatMap_cons, List.count_append, ih, ops, List.count_append, List.count_append,
      hwritten, hsilent, hsilent]
    simp only [List.countP_cons, decide_eq_true_eq]
    grind

end Spot

/-- How a tree accounts for tokens. -/
structure Accounts (ts : List Token) (e : Expr) : Prop where
  /-- In the order of writing, the nodes are what the tokens leave one after the other. -/
  marks : e.marks = (spots ts).flatMap Spot.marks
  /-- The leaves are the numerals and names in their order, each with its value and position, apart
  from the signs that go into a numeral. -/
  leaves : e.nodes.filter Expr.isLeaf = (spots ts).filterMap Spot.leaf?
  /-- Each call stands at its operator or sign, or at the first token of its right operand. -/
  calls : (e.nodes.filterMap Expr.call?).Perm ((spots ts).flatMap Spot.calls)
  /-- There are as many calls of an operator as it is written, with the juxtapositions for a product
  and the signs that go into no numeral for a negation. -/
  counts : ∀ op, e.ops.count op =
    (spots ts).countP (fun s => s.operator? = some op) +
      (if op = .mul then (spots ts).countP Spot.isJuxtaposition else 0) +
      (if op = .neg then (spots ts).countP Spot.isUnfoldedSign else 0)
  /-- The free symbols are the names, each where it occurs first. -/
  names : e.freeSymbols = (ts.filterMap fun t => t.tok.name?).eraseDups

theorem Accounts.of_marks {ts : List Token} {e : Expr}
    (h : e.marks = (spots ts).flatMap Spot.marks) : Accounts ts e := by
  have hleaves : e.nodes.filter Expr.isLeaf = (spots ts).filterMap Spot.leaf? := by
    rw [← e.filterMap_leaf?_marks, h, List.filterMap_flatMap, List.filterMap_eq_flatMap_toList]
    simp only [Spot.filterMap_leaf?_marks]
  have hcalls : (e.nodes.filterMap Expr.call?).Perm ((spots ts).flatMap Spot.calls) := by
    have hmarks := e.filterMap_call?_marks.symm
    rw [h, List.filterMap_flatMap] at hmarks
    simpa only [Spot.filterMap_call?_marks] using hmarks
  refine ⟨h, hleaves, hcalls, fun op => ?_, ?_⟩
  · have hops : ((spots ts).flatMap Spot.calls).map Prod.fst = (spots ts).flatMap Spot.ops := by
      simp [List.map_flatMap, Spot.calls, Function.comp_def]
    rw [Expr.ops, (hcalls.map Prod.fst).count_eq, hops, Spot.count_ops]
  · rw [Expr.freeSymbols, Expr.distinct_eq_eraseDups]
    congr 1
    calc e.nodes.filterMap Expr.symbolName?
        = (e.nodes.filter Expr.isLeaf).filterMap Expr.symbolName? :=
          (Expr.filterMap_symbolName?_filter _).symm
      _ = (spots ts).filterMap fun s => s.token.tok.name? := by
          simp only [hleaves, List.filterMap_filterMap, Spot.leaf?_bind_symbolName?]
      _ = ((spots ts).map Spot.token).filterMap fun t => t.tok.name? := by
          rw [List.filterMap_map]
          rfl
      _ = ts.filterMap fun t => t.tok.name? := by rw [spots, map_token_spotsIn]

/-- A tree that is read accounts for the tokens of its source: nothing is lost, doubled or
reordered. -/
theorem parseExpr_accounts {filename source : Text} {e : Expr}
    (h : parseExpr filename source = .ok e) :
    ∃ ts : List Token, source.items = ts.map .token ∧ Accounts ts e := by
  obtain ⟨ts, loose, hitems, hphrase⟩ := exists_phrase_of_parseExpr h
  -- Nothing stands around the whole text.
  have hbefore : isBehindOperand [] = false := rfl
  have hmarks := hphrase.leaves.inside hbefore (fun _ => rfl) []
  exact ⟨ts, hitems, .of_marks (hmarks.trans (congrArg Expr.marks e.underSigns_nil)).symm⟩

/-- Two signs go into the numeral, a parenthesis in between; a third one is behind an operand, and
the last one stands in front of a name. Both products are written without an operator. -/
theorem parseExpr_accounts_signs :
    let source : Text := "-(-2) x - -y x"
    let e : Expr := .call ⟨1, 9⟩ .sub
      [.call ⟨1, 7⟩ .mul [.lit ⟨1, 1⟩ (.ofInt 2), .sym ⟨1, 7⟩ "x"],
        .call ⟨1, 14⟩ .mul [.call ⟨1, 11⟩ .neg [.sym ⟨1, 12⟩ "y"], .sym ⟨1, 14⟩ "x"]]
    parseExpr "input" source = .ok e ∧ e.ops = [.sub, .mul, .mul, .neg] ∧
      e.freeSymbols = [Text.ofString "x", Text.ofString "y"] ∧
      ∃ ts : List Token, source.items = ts.map .token ∧ Accounts ts e := by
  intro source e
  have hitems : source.items =
      [.token ⟨.minus, ⟨1, 1⟩⟩, .token ⟨.openParen, ⟨1, 2⟩⟩, .token ⟨.minus, ⟨1, 3⟩⟩,
        .token ⟨.integer 2, ⟨1, 4⟩⟩, .token ⟨.closeParen, ⟨1, 5⟩⟩, .token ⟨.ident "x", ⟨1, 7⟩⟩,
        .token ⟨.minus, ⟨1, 9⟩⟩, .token ⟨.minus, ⟨1, 11⟩⟩, .token ⟨.ident "y", ⟨1, 12⟩⟩,
        .token ⟨.ident "x", ⟨1, 14⟩⟩] := by
    decide +kernel
  have hrun : Machine.start.run source.items = .ok e := by
    rw [hitems]
    rfl
  have h : parseExpr "input" source = .ok e := parseExpr_eq_ok.2 hrun
  exact ⟨h, rfl, by decide, parseExpr_accounts h⟩

end ExprTyping
