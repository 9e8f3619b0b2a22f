import ExprTyping.Proofs.RoundTrip

/-!
# The tokens that a tree stands for

`Phrase` relates tokens to the trees that they can stand for, again without priorities, but with
every parenthesis, sign and operator at its place. The one trace of the priorities that is kept is
that nothing binds tighter than a minus sign: a phrase with an operator outside all parentheses is
loose, and no loose phrase stands directly under a minus sign.

A state of the reading machine stands for the tokens read so far: `Stack.Holds` splits them among
the frames, and `Stack.HoldsOperand` adds the phrase of the operand.

- `Stack.HoldsOperand.complete` and `Stack.HoldsOperand.close`: completing a frame moves its tokens
  over to the operand;
- `Machine.holds_step`: one token more;
- `Machine.phrase_of_run`: the whole run, from these.
-/

namespace ExprTyping

/-- The tree of a numeral or a name. -/
def Token.atom? (t : Token) : Option Expr :=
  match t.tok with
  | .integer n => some (.lit t.pos (.ofInt n))
  | .real x => some (.lit t.pos (.ofReal x))
  | .ident name => some (.sym t.pos name)
  | _ => none

/-- Tokens and a tree that they can stand for. The flag says whether the phrase is loose, that is,
whether an operator joins two operands outside all parentheses and all words in front. -/
inductive Phrase : Bool → List Token → Expr → Prop
  | atom {t : Token} {e : Expr} : t.atom? = some e → Phrase false [t] e
  | parens {loose : Bool} {left right : Token} {ts : List Token} {e : Expr} :
      left.tok = .openParen → right.tok = .closeParen → Phrase loose ts e →
      Phrase false (left :: (ts ++ [right])) e
  | negation {t : Token} {ts : List Token} {e : Expr} :
      t.tok = .minus → Phrase false ts e → Phrase false (t :: ts) (e.negated t.pos)
  | complement {loose : Bool} {t : Token} {ts : List Token} {e : Expr} :
      t.tok = .not → Phrase loose ts e → Phrase false (t :: ts) (.call t.pos .not [e])
  | binary {looseLeft looseRight : Bool} {t : Token} {op : Op} {priority : Nat}
      {ls rs : List Token} {l r : Expr} :
      t.tok.binary? = some (op, priority) → Phrase looseLeft ls l → Phrase looseRight rs r →
      Phrase true (ls ++ t :: rs) (.call t.pos op [l, r])
  | adjacent {looseLeft looseRight : Bool} {t : Token} {ls rs : List Token} {l r : Expr} :
      t.tok.startsOperand → Phrase looseLeft ls l → Phrase looseRight (t :: rs) r →
      Phrase true (ls ++ t :: rs) (.call t.pos .mul [l, r])

/-! ## The tokens of a stack -/

/-- Whether tokens start with the one that is due, if any. -/
def Starts (due : Option Token) (ts : List Token) : Prop :=
  ∀ t ∈ due, ts.head? = some t

theorem starts_none (ts : List Token) : Starts none ts :=
  nofun

theorem Starts.append {due : Option Token} {ts : List Token} (h : Starts due ts)
    (us : List Token) : Starts due (ts ++ us) := by
  intro t ht
  rw [List.head?_append, h t ht]
  rfl

/-- The tokens read for the frames of a stack, and the token with which the operand inside them is
due to start. Only behind a product without a sign is such a token due: it has been seen, and it
has put up the frame, but it belongs to the right operand. -/
inductive Stack.Holds : Stack → List Token → Option Token → Prop
  | nil : Stack.Holds [] [] none
  | paren {outer : Stack} {us : List Token} {due : Option Token} {t : Token} :
      Stack.Holds outer us due → Starts due [t] → t.tok = .openParen →
      Stack.Holds (.paren :: outer) (us ++ [t]) none
  | negation {outer : Stack} {us : List Token} {due : Option Token} {t : Token} :
      Stack.Holds outer us due → Starts due [t] → t.tok = .minus →
      Stack.Holds (.negation t.pos :: outer) (us ++ [t]) none
  | complement {outer : Stack} {us : List Token} {due : Option Token} {t : Token} :
      Stack.Holds outer us due → Starts due [t] → t.tok = .not →
      Stack.Holds (.complement t.pos :: outer) (us ++ [t]) none
  | binary {outer : Stack} {us : List Token} {due : Option Token} {loose : Bool}
      {ls : List Token} {l : Expr} {t : Token} {op : Op} {priority : Nat} :
      Stack.Holds outer us due → Phrase loose ls l → Starts due ls → Stack.limit outer < 12 →
      t.tok.binary? = some (op, priority) →
      Stack.Holds (.binary op priority t.pos l :: outer) (us ++ (ls ++ [t])) none
  | adjacent {outer : Stack} {us : List Token} {due : Option Token} {loose : Bool}
      {ls : List Token} {l : Expr} {t : Token} {priority : Nat} :
      Stack.Holds outer us due → Phrase loose ls l → Starts due ls → Stack.limit outer < 12 →
      t.tok.startsOperand →
      Stack.Holds (.binary .mul priority t.pos l :: outer) (us ++ ls) (some t)

/-- The tokens read for the frames of a stack and for the operand inside them. A loose operand
cannot stand under a minus sign. -/
def Stack.HoldsOperand (stack : Stack) (ts : List Token) (e : Expr) : Prop :=
  ∃ us vs due loose, ts = us ++ vs ∧ Stack.Holds stack us due ∧ Phrase loose vs e ∧
    Starts due vs ∧ (loose = true → Stack.limit stack < 12)

namespace Stack.HoldsOperand

variable {outer stack : Stack} {ts : List Token} {e : Expr}

/-- A frame that is completed leaves its tokens to the operand. -/
theorem complete {f : Frame} (h : Stack.HoldsOperand (f :: outer) ts e) (hf : f ≠ .paren) :
    Stack.HoldsOperand outer ts (f.complete e) := by
  obtain ⟨us, vs, due, loose, rfl, hstack, he, hstarts, hloose⟩ := h
  cases hstack with
  | paren => exact absurd rfl hf
  | @negation _ us due t houter hdue ht =>
    -- The limit of the frame is 12, so the operand is not loose.
    obtain rfl : loose = false := by simpa [limit, Frame.limit] using hloose
    exact ⟨us, t :: vs, due, false, by simp, houter, .negation ht he, hdue.append vs, nofun⟩
  | @complement _ us due t houter hdue ht =>
    exact ⟨us, t :: vs, due, false, by simp, houter, .complement ht he, hdue.append vs, nofun⟩
  | @binary _ us due _ ls l t op priority houter hl hdue hlimit ht =>
    exact ⟨us, ls ++ t :: vs, due, true, by simp, houter, .binary ht hl he, hdue.append _,
      fun _ => hlimit⟩
  | @adjacent _ us due _ ls l t priority houter hl hdue hlimit ht =>
    obtain ⟨more, rfl⟩ := List.head?_eq_some_iff.1 (hstarts t rfl)
    exact ⟨us, ls ++ t :: more, due, true, by simp, houter, .adjacent ht hl he, hdue.append _,
      fun _ => hlimit⟩

/-- A closing parenthesis leaves a tight operand, whatever stands inside. -/
theorem close {t : Token} (ht : t.tok = .closeParen)
    (h : Stack.HoldsOperand (.paren :: outer) ts e) :
    Stack.HoldsOperand outer (ts ++ [t]) e := by
  obtain ⟨us, vs, due, loose, rfl, hstack, he, -, -⟩ := h
  cases hstack with
  | @paren _ us due left houter hdue hleft =>
    exact ⟨us, left :: (vs ++ [t]), due, false, by simp, houter, .parens hleft ht he,
      hdue.append (vs ++ [t]), nofun⟩

/-- Outside all frames, all tokens belong to the operand. -/
theorem phrase (h : Stack.HoldsOperand [] ts e) : ∃ loose, Phrase loose ts e := by
  obtain ⟨us, vs, due, loose, rfl, hstack, he, -, -⟩ := h
  cases hstack with
  | nil => exact ⟨loose, he⟩

end Stack.HoldsOperand

/-! ## The tokens of the machine -/

namespace Machine

/-- The tokens that a state stands for. -/
def Holds : Machine → List Token → Prop
  | .wanting stack, ts => Stack.Holds stack ts none
  | .having stack operand, ts => Stack.HoldsOperand stack ts operand

theorem priority_of_extension? {limit priority : Nat} {op : Op} {t : Tok}
    (h : extension? limit t = some (op, priority)) :
    limit < 12 ∧ (t.binary? = some (op, priority) ∨ t.startsOperand ∧ op = .mul) := by
  unfold extension? at h
  split at h
  · next op' priority' hbinary =>
    obtain ⟨hlimit, h⟩ := Option.ite_none_right_eq_some.1 h
    obtain ⟨rfl, rfl⟩ := Prod.mk.inj (Option.some.inj h)
    have hpriority : priority' ≤ 11 := by
      revert hbinary
      cases t <;> simp [Tok.binary?] <;> omega
    exact ⟨by omega, .inl hbinary⟩
  · next hbinary =>
    obtain ⟨hext, h⟩ := Option.ite_none_right_eq_some.1 h
    obtain ⟨rfl, rfl⟩ := Prod.mk.inj (Option.some.inj h)
    rw [Bool.and_eq_true, decide_eq_true_eq] at hext
    exact ⟨hext.2.trans (by decide), .inr ⟨hext.1, rfl⟩⟩

theorem holds_stepWanting {stack : Stack} {us : List Token} {due : Option Token} {t : Token}
    {m : Machine} (hstack : Stack.Holds stack us due) (hdue : Starts due [t])
    (h : stepWanting stack t = .ok m) : m.Holds (us ++ [t]) := by
  -- A numeral or a name is an operand of its own.
  have hatom {e : Expr} (he : t.atom? = some e) : Stack.HoldsOperand stack (us ++ [t]) e :=
    ⟨us, [t], due, false, rfl, hstack, .atom he, hdue, nofun⟩
  unfold stepWanting at h
  split at h
  case h_1 ht => cases h; exact .negation hstack hdue ht
  case h_2 ht => cases h; exact .complement hstack hdue ht
  case h_3 ht => cases h; exact .paren hstack hdue ht
  case h_4 x ht => cases h; exact hatom (by simp [Token.atom?, ht])
  case h_5 n ht => cases h; exact hatom (by simp [Token.atom?, ht])
  case h_6 name ht => cases h; exact hatom (by simp [Token.atom?, ht])
  case h_7 => cases h

theorem holds_stepHaving {stack : Stack} {operand : Expr} {t : Token} {m : Machine}
    {ts : List Token} (hstack : Stack.HoldsOperand stack ts operand)
    (h : stepHaving stack operand t = .ok m) : m.Holds (ts ++ [t]) := by
  fun_induction stepHaving stack operand t with
  | case1 stack operand t op priority hext waiting hs =>
    obtain ⟨us, vs, due, loose, rfl, hstack, hphrase, hstarts, -⟩ := hstack
    obtain ⟨hlimit, hbinary | ⟨-, rfl⟩⟩ := priority_of_extension? hext
    · rw [Tok.binary?_of_startsOperand hs] at hbinary
      cases hbinary
    · -- The frame is put up without a token, and the token is then due.
      have hdue : Starts (some t) [t] := by simp [Starts]
      exact holds_stepWanting (.adjacent hstack hphrase hstarts hlimit hs) hdue h
  | case2 stack operand t op priority hext waiting hs =>
    obtain ⟨us, vs, due, loose, rfl, hstack, hphrase, hstarts, -⟩ := hstack
    obtain ⟨hlimit, hbinary | ⟨hs', -⟩⟩ := priority_of_extension? hext
    · cases h
      rw [List.append_assoc]
      exact .binary hstack hphrase hstarts hlimit hbinary
    · exact absurd hs' hs
  | case3 operand t hext => cases h
  | case4 operand t outer hclose hext =>
    cases h
    exact hstack.close hclose
  | case5 operand t outer hclose hext => cases h
  -- A completed frame changes nothing about the tokens.
  | case6 operand t pos outer hext ih => exact ih (hstack.complete (by simp)) h
  | case7 operand t pos outer hext ih => exact ih (hstack.complete (by simp)) h
  | case8 operand t op priority pos left outer hext ih => exact ih (hstack.complete (by simp)) h

/-- A token that is taken in is added to the tokens of the state. -/
theorem holds_step {m next : Machine} {t : Token} {ts : List Token} (hm : m.Holds ts)
    (h : m.step t = .ok next) : next.Holds (ts ++ [t]) := by
  cases m with
  | wanting stack => exact holds_stepWanting hm (starts_none _) h
  | having stack operand => exact holds_stepHaving hm h

theorem phrase_of_close {stack : Stack} {operand e : Expr} {ts : List Token}
    (hstack : Stack.HoldsOperand stack ts operand) (h : close stack operand = .ok e) :
    ∃ loose, Phrase loose ts e := by
  fun_induction close stack operand with
  | case1 operand =>
    cases h
    exact hstack.phrase
  | case2 outer operand => cases h
  | case3 pos outer operand ih => exact ih (hstack.complete (by simp)) h
  | case4 pos outer operand ih => exact ih (hstack.complete (by simp)) h
  | case5 op priority pos left outer operand ih => exact ih (hstack.complete (by simp)) h

/-- Where a run ends in an expression, its items are tokens, and these and the ones before stand
for the expression. -/
theorem phrase_of_run {m : Machine} {items : List Item} {e : Expr} {before : List Token}
    (hm : m.Holds before) (h : m.run items = .ok e) :
    ∃ ts loose, items = ts.map .token ∧ Phrase loose (before ++ ts) e := by
  fun_induction run m items generalizing before with
  | case1 m =>
    cases m with
    | wanting stack => cases h
    | having stack operand =>
      obtain ⟨loose, hphrase⟩ := phrase_of_close hm h
      exact ⟨[], loose, rfl, by rwa [List.append_nil]⟩
  | case2 m fault items => cases h
  | case3 m t items next hstep ih =>
    obtain ⟨ts, loose, rfl, hphrase⟩ := ih (holds_step hm hstep) h
    exact ⟨t :: ts, loose, rfl, by simpa using hphrase⟩
  | case4 m t items failure hstep => cases h

end Machine

/-- The tokens of a source that is read stand for its tree. -/
theorem exists_phrase_of_parseExpr {filename source : Text} {e : Expr}
    (h : parseExpr filename source = .ok e) :
    ∃ ts loose, source.items = ts.map .token ∧ Phrase loose ts e := by
  have hstart : Machine.start.Holds [] := Stack.Holds.nil
  exact Machine.phrase_of_run hstart (parseExpr_eq_ok.1 h)

end ExprTyping
