import ExprTyping.Proofs.Printing
import ExprTyping.Proofs.Sentence

/-!
# Reading what was written

Where the reading machine wants an operand, the words of an expression lead it to a state that
holds the expression, except that some of its frames may still be open at the right edge. Which
frames these are depends on the outermost operator of the expression: none of them has a smaller
limit. A word behind the expression that binds no tighter than these limits, a closing parenthesis
or the end of the source completes them.

- `Machine.Parses` says this for a list of words;
- `Machine.Parses.paren`, `Machine.Parses.binary`, `Machine.Parses.complement` and
  `Machine.Parses.negation` are the steps along the expression;
- `Expr.exists_parses` follows an expression and its words;
- `parseExpr_print`: what was written is read again.
-/

namespace ExprTyping

/-! ## Completing frames -/

/-- The operand that a frame makes of its right operand. -/
def Frame.complete : Frame → Expr → Expr
  | .paren, e => e
  | .negation pos, e => e.negated pos
  | .complement pos, e => .call pos .not [e]
  | .binary op _ pos left, e => .call pos op [left, e]

/-- The operand that frames make of the operand inside them. -/
def Stack.complete : Stack → Expr → Expr
  | [], e => e
  | f :: outer, e => Stack.complete outer (f.complete e)

theorem Stack.complete_append (inner outer : Stack) (e : Expr) :
    Stack.complete (inner ++ outer) e = Stack.complete outer (Stack.complete inner e) := by
  induction inner generalizing e with
  | nil => rfl
  | cons f inner ih => exact ih (f.complete e)

namespace Expr

/-- An expression that agrees with a literal up to positions is a literal. -/
theorem exists_lit_of_bare {e : Expr} {pos : Pos} {l : Literal} (h : e.bare = (lit pos l).bare) :
    ∃ start m, e = .lit start m ∧ m.bare = l.bare := by
  cases e with
  | lit start m => exact ⟨start, m, rfl, (Expr.lit.inj h).2⟩
  | sym start name => cases h
  | call start op args => cases h
  | missing => cases h

theorem bare_negated {e : Expr} (h : ∀ start l, e ≠ .lit start l) (pos : Pos) :
    (e.negated pos).bare = .call .nowhere .neg [e.bare] := by
  cases e with
  | lit start l => exact absurd rfl (h start l)
  | sym start name => rfl
  | call start op args => rfl
  | missing => rfl

end Expr

namespace Machine

theorem extension?_of_le {limit priority : Nat} {op : Op} {t : Tok}
    (h : t.binary? = some (op, priority)) (hle : priority ≤ limit) : extension? limit t = none := by
  unfold extension?
  rw [h]
  exact if_neg (Nat.not_lt.2 hle)

theorem extension?_of_lt {limit priority : Nat} {op : Op} {t : Tok}
    (h : t.binary? = some (op, priority)) (hlt : limit < priority) :
    extension? limit t = some (op, priority) := by
  unfold extension?
  rw [h]
  exact if_pos hlt

/-- A binary operator that binds tighter than the innermost frame waits for its right operand. -/
theorem stepHaving_binary {stack : Stack} {t : Token} {op : Op} {priority : Nat}
    (h : t.tok.binary? = some (op, priority)) (hlt : stack.limit < priority) (operand : Expr) :
    stepHaving stack operand t = .ok (.wanting (.binary op priority t.pos operand :: stack)) := by
  have hoperand : ¬ t.tok.startsOperand := by
    intro hstarts
    rw [Tok.binary?_of_startsOperand hstarts] at h
    cases h
  unfold stepHaving
  dsimp only
  rw [extension?_of_lt h hlt]
  exact if_neg hoperand

/-- A token that does not extend the operand of a frame completes it. -/
theorem stepHaving_cons {f : Frame} {t : Token} (hpos : 0 < f.limit)
    (hnone : extension? f.limit t.tok = none) (outer : Stack) (operand : Expr) :
    stepHaving (f :: outer) operand t = stepHaving outer (f.complete operand) t := by
  have hlimit : extension? (Stack.limit (f :: outer)) t.tok = none := hnone
  rw [stepHaving.eq_def]
  dsimp only
  rw [hlimit]
  cases f with
  | paren => cases hpos
  | negation pos => rfl
  | complement pos => rfl
  | binary op priority pos left => rfl

/-- A token that extends no operand of the inner frames completes them all. -/
theorem stepHaving_append {inner : Stack} {t : Token}
    (h : ∀ f ∈ inner, 0 < f.limit ∧ extension? f.limit t.tok = none) (outer : Stack)
    (operand : Expr) :
    stepHaving (inner ++ outer) operand t = stepHaving outer (inner.complete operand) t := by
  induction inner generalizing operand with
  | nil => rfl
  | cons f inner ih =>
    obtain ⟨hpos, hnone⟩ := h f List.mem_cons_self
    rw [List.cons_append, stepHaving_cons hpos hnone]
    exact ih (fun g hg => h g (List.mem_cons_of_mem f hg)) _

/-- The end of the source completes all frames. -/
theorem close_eq_ok {stack : Stack} (h : ∀ f ∈ stack, 0 < f.limit) (operand : Expr) :
    close stack operand = .ok (stack.complete operand) := by
  induction stack generalizing operand with
  | nil => rfl
  | cons f outer ih =>
    have hpos := h f List.mem_cons_self
    have hclose : close (f :: outer) operand = close outer (f.complete operand) := by
      cases f with
      | paren => cases hpos
      | negation pos => rfl
      | complement pos => rfl
      | binary op priority pos left => rfl
    rw [hclose]
    exact ih (fun g hg => h g (List.mem_cons_of_mem f hg)) _

theorem run_wanting {stack : Stack} {next : Machine} {t : Token}
    (h : stepWanting stack t = .ok next) (items : List Item) :
    (wanting stack).run (.token t :: items) = next.run items := by
  rw [run, step, h]

theorem run_having {stack : Stack} {operand : Expr} {next : Machine} {t : Token}
    (h : stepHaving stack operand t = .ok next) (items : List Item) :
    (having stack operand).run (.token t :: items) = next.run items := by
  rw [run, step, h]

/-! ## Words that are an operand -/

/-- Whether words are read as the expression `t` inside every frame whose limit is below `opening`.
Inside it, frames that wait for the end of `t` may be left, with limits of at least `closing`. -/
def Parses (toks : List Tok) (opening closing : Nat) (t : Expr) : Prop :=
  ∀ (ts : List Token) (outer : Stack), ts.map Token.tok = toks → outer.limit < opening →
    ∃ (inner : Stack) (operand : Expr), (∀ f ∈ inner, closing ≤ f.limit) ∧
      (inner.complete operand).bare = t.bare ∧
      ∀ rest, (wanting outer).run (ts.map .token ++ rest) = (having (inner ++ outer) operand).run rest

variable {toks : List Tok} {opening closing : Nat} {t : Expr}

theorem Parses.mono {opening' closing' : Nat} (h : Parses toks opening closing t)
    (hopening : opening' ≤ opening) (hclosing : closing' ≤ closing) :
    Parses toks opening' closing' t := by
  intro ts outer hts hlimit
  obtain ⟨inner, operand, hinner, hbare, hrun⟩ := h ts outer hts (by omega)
  exact ⟨inner, operand, fun f hf => hclosing.trans (hinner f hf), hbare, hrun⟩

/-- A word that is an operand on its own. -/
theorem parses_word {tok : Tok} (opening closing : Nat)
    (h : ∀ (outer : Stack) (pos : Pos), ∃ operand,
      stepWanting outer ⟨tok, pos⟩ = .ok (.having outer operand) ∧ operand.bare = t.bare) :
    Parses [tok] opening closing t := by
  intro ts outer hts _
  obtain ⟨⟨tok', pos⟩, rfl, htok⟩ := List.map_eq_singleton_iff.1 hts
  obtain rfl : tok' = tok := htok
  obtain ⟨operand, hstep, hbare⟩ := h outer pos
  exact ⟨[], operand, List.forall_mem_nil _, hbare, run_wanting hstep⟩

theorem parses_sym (pos : Pos) (name : Text) (opening closing : Nat) :
    Parses [.ident name] opening closing (.sym pos name) :=
  parses_word opening closing fun _ start => ⟨.sym start name, rfl, rfl⟩

theorem parses_lit (pos : Pos) {l : Literal} (h : l.IsPlain)
    (opening closing : Nat) : Parses [l.tok] opening closing (.lit pos l) := by
  obtain ⟨kind, n, x⟩ := l
  rcases h with rfl | rfl
  · exact parses_word opening closing fun _ start => ⟨.lit start (.ofInt n), rfl, rfl⟩
  · exact parses_word opening closing fun _ start => ⟨.lit start (.ofReal x), rfl, rfl⟩

/-- An operand in parentheses. Nothing of it is left open. -/
theorem Parses.paren (h : Parses toks opening closing t) (hopening : 0 < opening)
    (hclosing : 0 < closing) (opening' closing' : Nat) :
    Parses (.openParen :: (toks ++ [.closeParen])) opening' closing' t := by
  intro ts outer hts _
  obtain ⟨⟨tok, pos⟩, ts', rfl, htok, hts'⟩ := List.map_eq_cons_iff.1 hts
  obtain rfl : tok = .openParen := htok
  obtain ⟨us, vs, rfl, hus, hvs⟩ := List.map_eq_append_iff.1 hts'
  obtain ⟨⟨tok, last⟩, rfl, htok⟩ := List.map_eq_singleton_iff.1 hvs
  obtain rfl : tok = .closeParen := htok
  obtain ⟨inner, operand, hinner, hbare, hrun⟩ := h us (.paren :: outer) hus hopening
  -- The closing parenthesis extends no operand, so it completes all frames up to its own.
  have hclose : stepHaving (inner ++ .paren :: outer) operand ⟨.closeParen, last⟩ =
      .ok (.having outer (inner.complete operand)) := by
    rw [stepHaving_append]
    · rfl
    · intro f hf
      exact ⟨hclosing.trans_le (hinner f hf), rfl⟩
  refine ⟨[], inner.complete operand, List.forall_mem_nil _, hbare, fun rest => ?_⟩
  rw [List.map_cons, List.map_append, List.cons_append, List.append_assoc, run_wanting rfl, hrun]
  exact run_having hclose rest

/-- Inside a frame that waits for it, an operand leaves the frame open as the outermost one. -/
theorem Parses.inside {f : Frame} (h : Parses toks (f.limit + 1) f.limit t) {ts : List Token}
    (hts : ts.map Token.tok = toks) (outer : Stack) :
    ∃ (inner : Stack) (operand e : Expr), (∀ g ∈ inner, f.limit ≤ g.limit) ∧ e.bare = t.bare ∧
      inner.complete operand = f.complete e ∧
      ∀ rest, (wanting (f :: outer)).run (ts.map .token ++ rest) =
        (having (inner ++ outer) operand).run rest := by
  obtain ⟨inner, operand, hinner, hbare, hrun⟩ := h ts (f :: outer) hts (Nat.lt_succ_self f.limit)
  refine ⟨inner ++ [f], operand, inner.complete operand, ?_, hbare, ?_, fun rest => ?_⟩
  · exact List.forall_mem_append.2 ⟨hinner, List.forall_mem_singleton.2 (Nat.le_refl _)⟩
  · rw [Stack.complete_append]
    rfl
  · rw [hrun, List.append_assoc]
    rfl

/-- Two operands with a binary operator between them. -/
theorem Parses.binary {ltoks rtoks : List Tok} {tok : Tok} {op : Op} {l r : Expr} {priority : Nat}
    (pos : Pos) (htok : tok.binary? = some (op, priority)) (hpos : 0 < priority)
    (hl : Parses ltoks priority priority l) (hr : Parses rtoks (priority + 1) priority r) :
    Parses (ltoks ++ tok :: rtoks) priority priority (.call pos op [l, r]) := by
  intro ts outer hts hlimit
  obtain ⟨us, vs, rfl, hus, hvs⟩ := List.map_eq_append_iff.1 hts
  obtain ⟨⟨tok', start⟩, ws, rfl, htok', hws⟩ := List.map_eq_cons_iff.1 hvs
  obtain rfl : tok' = tok := htok'
  obtain ⟨linner, left, hlinner, hlbare, hlrun⟩ := hl us outer hus hlimit
  -- The operator completes what the left operand left open, and it extends the result.
  have hstep : stepHaving (linner ++ outer) left ⟨tok', start⟩ =
      .ok (.wanting (.binary op priority start (linner.complete left) :: outer)) := by
    rw [stepHaving_append]
    · exact stepHaving_binary htok hlimit _
    · intro f hf
      exact ⟨hpos.trans_le (hlinner f hf), extension?_of_le htok (hlinner f hf)⟩
  -- The frame of the operator stays open, for an operator behind it may bind tighter.
  obtain ⟨rinner, right, e, hrinner, hrbare, hcomplete, hrrun⟩ :=
    Parses.inside (f := .binary op priority start (linner.complete left)) hr hws outer
  refine ⟨rinner, right, hrinner, ?_, fun rest => ?_⟩
  · rw [hcomplete]
    change Expr.call .nowhere op [(linner.complete left).bare, e.bare] = _
    rw [hlbare, hrbare]
    rfl
  · rw [List.map_append, List.map_cons, List.append_assoc, List.cons_append, hlrun,
      run_having hstep, hrrun]

/-- A word in front of an operand opens a frame, and the end of the operand completes it. -/
theorem Parses.under {tok : Tok} {e : Expr} {limit : Nat} (frame : Pos → Frame)
    (hstep : ∀ outer pos, stepWanting outer ⟨tok, pos⟩ = .ok (.wanting (frame pos :: outer)))
    (hlimit : ∀ pos, (frame pos).limit = limit)
    (hcomplete : ∀ pos e', e'.bare = t.bare → ((frame pos).complete e').bare = e.bare)
    (h : Parses toks (limit + 1) limit t) (opening : Nat) :
    Parses (tok :: toks) opening limit e := by
  intro ts outer hts _
  obtain ⟨⟨tok', pos⟩, us, rfl, htok, hus⟩ := List.map_eq_cons_iff.1 hts
  obtain rfl : tok' = tok := htok
  obtain rfl := hlimit pos
  obtain ⟨inner, operand, e', hinner, hbare, hframe, hrun⟩ := h.inside hus outer
  refine ⟨inner, operand, hinner, ?_, fun rest => ?_⟩
  · rw [hframe]
    exact hcomplete pos e' hbare
  · rw [List.map_cons, List.cons_append, run_wanting (hstep outer pos), hrun]

/-- An operand behind `not`. -/
theorem Parses.complement (pos : Pos) (h : Parses toks 3 2 t) (opening : Nat) :
    Parses (.not :: toks) opening 2 (.call pos .not [t]) := by
  refine Parses.under .complement (fun _ _ => rfl) (fun _ => rfl) ?_ h opening
  intro start e he
  change Expr.call .nowhere .not [e.bare] = _
  rw [he]
  rfl

/-- An operand other than a literal behind a minus sign. -/
theorem Parses.negation (pos : Pos) (hlit : ∀ start l, t ≠ .lit start l) (h : Parses toks 13 12 t)
    (opening : Nat) : Parses (.minus :: toks) opening 12 (.call pos .neg [t]) := by
  refine Parses.under .negation (fun _ _ => rfl) (fun _ => rfl) ?_ h opening
  intro start e he
  -- What was read is no literal either, so it does not take the sign in.
  have hne : ∀ q l, e ≠ .lit q l := by
    rintro q l rfl
    obtain ⟨q', l', rfl, -⟩ := Expr.exists_lit_of_bare he.symm
    exact hlit q' l' rfl
  change (e.negated start).bare = _
  rw [Expr.bare_negated hne, he]
  rfl

/-- A numeral behind a minus sign. -/
theorem parses_minus (pos : Pos) {l : Literal} (h : l.IsPlain)
    (opening : Nat) : Parses [.minus, l.negate.tok] opening 12 (.lit pos l) := by
  -- A sign leaves the kind of a literal as it is.
  have hnumeral : Parses [l.negate.tok] 13 12 (.lit pos l.negate) :=
    parses_lit pos (l := l.negate) h 13 12
  refine Parses.under .negation (fun _ _ => rfl) (fun _ => rfl) ?_ hnumeral opening
  intro start e he
  obtain ⟨q, m, rfl, hm⟩ := Expr.exists_lit_of_bare he
  change Expr.lit .nowhere m.negate.bare = .lit .nowhere l.bare
  rw [Literal.bare_negate hm, Literal.negate_negate]

end Machine

/-! ## Places -/

/-- An expression with this head is complete inside every frame whose limit is below this one. -/
def Head.opening : Head → Nat
  | .binary priority => priority
  | _ => 13

/-- The frames left open at the right edge of an expression with this head have at least this
limit. -/
def Head.closing : Head → Nat
  | .tight => 12
  | .complement => 2
  | .binary priority => priority

/-- The limits of the frames around an operand at this place are below this one. -/
def Place.opening : Place → Nat
  | .left op => op.priority
  | .right op => op.priority + 1
  | .complement => 3
  | .negation => 13

/-- The word behind an operand at this place completes frames with at least this limit. -/
def Place.closing : Place → Nat
  | .left op => op.priority
  | .right op => op.priority
  | .complement => 2
  | .negation => 12

/-- A place that demands no parentheses needs none. -/
theorem Place.le_of_demands_eq_false {place : Place} {head : Head}
    (h : place.demands head = false) :
    place.opening ≤ head.opening ∧ place.closing ≤ head.closing := by
  cases place with
  | left op =>
    have hpriority := op.priority_le
    cases head <;> simp [demands, opening, closing, Head.opening, Head.closing] at h ⊢ <;> omega
  | right op =>
    have hpriority := op.priority_le
    cases head <;> simp [demands, opening, closing, Head.opening, Head.closing] at h ⊢ <;> omega
  | complement =>
    cases head <;> simp [demands, opening, closing, Head.opening, Head.closing] at h ⊢
    omega
  | negation => cases head <;> simp [demands, opening, closing, Head.opening, Head.closing] at h ⊢

theorem Expr.head_pos (e : Expr) : 0 < e.head.opening ∧ 0 < e.head.closing := by
  unfold head
  split
  · next op _ _ => exact ⟨op.priority_pos, op.priority_pos⟩
  · exact ⟨by decide, by decide⟩
  · exact ⟨by decide, by decide⟩

/-- Whether the words of a text are read as the expression `t`, with limits as in
`Machine.Parses`. -/
def Spells (ws : List Text) (opening closing : Nat) (t : Expr) : Prop :=
  ∃ toks : List (List Tok), List.Forall₂ Reads ws toks ∧
    Machine.Parses toks.flatten opening closing t

namespace Spells

variable {ws : List Text} {opening closing : Nat} {t : Expr}

theorem paren (h : Spells ws opening closing t) (hopening : 0 < opening) (hclosing : 0 < closing)
    (opening' closing' : Nat) :
    Spells ("(" :: (ws ++ [(")" : Text)])) opening' closing' t := by
  obtain ⟨toks, hreads, hparses⟩ := h
  have hopen : Reads "(" [.openParen] := reads_alone rfl (by decide) (by decide)
  have hclose : Reads ")" [.closeParen] := reads_alone rfl (by decide) (by decide)
  refine ⟨[.openParen] :: (toks ++ [[.closeParen]]), ?_, ?_⟩
  · exact .cons hopen (List.rel_append hreads (.cons hclose .nil))
  · rw [List.flatten_cons, List.flatten_append]
    exact hparses.paren hopening hclosing opening' closing'

theorem enclose (h : Spells ws opening closing t) (hopening : 0 < opening)
    (hclosing : 0 < closing) (n : Nat) : Spells (ExprTyping.enclose n ws) opening closing t := by
  induction n with
  | zero => exact h
  | succ n ih => exact ih.paren hopening hclosing opening closing

/-- With the parentheses that its place demands, and any number of others, an expression can be
the operand there. -/
theorem operand (h : Spells ws t.head.opening t.head.closing t) (place : Place) (extra : Nat) :
    Spells (ExprTyping.enclose ((place.demands t.head).toNat + extra) ws) place.opening
      place.closing t := by
  obtain ⟨hopening, hclosing⟩ := t.head_pos
  have henclosed := h.enclose hopening hclosing extra
  cases hdemands : place.demands t.head with
  | true =>
    -- The pair that is demanded goes outermost, and nothing of the operand is left open.
    rw [Bool.toNat_true, Nat.add_comm]
    exact henclosed.paren hopening hclosing _ _
  | false =>
    obtain ⟨hopening', hclosing'⟩ := Place.le_of_demands_eq_false hdemands
    obtain ⟨toks, hreads, hparses⟩ := henclosed
    rw [Bool.toNat_false, Nat.zero_add]
    exact ⟨toks, hreads, hparses.mono hopening' hclosing'⟩

end Spells

/-! ## Expressions -/

theorem Op.eq_of_arity_eq_one {op : Op} (h : op.arity = 1) : op = .neg ∨ op = .not := by
  cases op with
  | neg => exact .inl rfl
  | not => exact .inr rfl
  | _ => cases h

/-- The words of an expression are read as the expression. -/
theorem Expr.Printable.spells {t : Expr} (h : t.Printable) (extra : List Nat → Nat) :
    Spells (t.words extra) t.head.opening t.head.closing t := by
  -- The subterms are written with the requests for their own paths, so `extra` varies.
  induction h generalizing extra with
  | @lit pos l hl =>
    rcases Literal.reads_render hl with hreads | hreads
    · exact ⟨[[l.tok]], .cons hreads .nil, Machine.parses_lit pos hl.isPlain _ _⟩
    · exact ⟨[[.minus, l.negate.tok]], .cons hreads .nil, Machine.parses_minus pos hl.isPlain _⟩
  | @sym pos name start hname =>
    exact ⟨[[.ident name]], .cons (reads_of_items hname) .nil, Machine.parses_sym pos name _ _⟩
  | @unary pos op e hknown harity hlit _ ih =>
    obtain ⟨toks, hreads, hparses⟩ :=
      (ih fun path => extra (0 :: path)).operand op.place (extra [0])
    rcases Op.eq_of_arity_eq_one harity with rfl | rfl
    · exact ⟨[.minus] :: toks, .cons Op.reads_symbol_neg hreads,
        hparses.negation pos (hlit rfl) _⟩
    · exact ⟨[.not] :: toks, .cons Op.reads_symbol_not hreads, hparses.complement pos _⟩
  | @binary pos op l r hknown harity _ _ ihl ihr =>
    obtain ⟨tok, htok, hbinary⟩ := Op.exists_reads_symbol hknown harity
    obtain ⟨ltoks, hlreads, hlparses⟩ :=
      (ihl fun path => extra (0 :: path)).operand (.left op) (extra [0])
    obtain ⟨rtoks, hrreads, hrparses⟩ :=
      (ihr fun path => extra (1 :: path)).operand (.right op) (extra [1])
    refine ⟨ltoks ++ [tok] :: rtoks, List.rel_append hlreads (.cons htok hrreads), ?_⟩
    rw [List.flatten_append, List.flatten_cons]
    exact hlparses.binary pos hbinary op.priority_pos hrparses

/-- Reading undoes writing: an expression that a source can hold, written with the parentheses that
its operators demand and any others around its subterms, is read as itself up to positions and up
to the numbers of its literals that do not count. -/
theorem parseExpr_print {t : Expr} (h : t.Printable) (extra : List Nat → Nat) (filename : Text) :
    ∃ e, parseExpr filename (t.print extra) = .ok e ∧ e.bare = t.bare := by
  obtain ⟨hopening, hclosing⟩ := t.head_pos
  obtain ⟨toks, hreads, hparses⟩ := (h.spells extra).enclose hopening hclosing (extra [])
  obtain ⟨ts, hts, hitems⟩ := (Reads.join hreads).items
  obtain ⟨inner, operand, hinner, hbare, hrun⟩ := hparses ts [] hts hopening
  refine ⟨inner.complete operand, parseExpr_eq_ok.2 ?_, hbare⟩
  -- No frame is outside, and none that is left open is a parenthesis.
  have hend := hrun []
  rw [List.append_nil, List.append_nil] at hend
  change Machine.start.run (Text.items (t.print extra)) = _
  calc Machine.start.run (Text.items (t.print extra))
      = (Machine.having inner operand).run [] := by rw [Expr.print, hitems]; exact hend
    _ = .ok (inner.complete operand) :=
        Machine.close_eq_ok (fun f hf => hclosing.trans_le (hinner f hf)) operand

/-- The right operand of a difference keeps its parentheses, and a symbol may have some. -/
theorem parseExpr_print_difference :
    let t : Expr := .call .nowhere .sub [.sym .nowhere "x", .call .nowhere .sub
      [.call .nowhere .not [.sym .nowhere "y"], .lit .nowhere ⟨.int, -2, .infinity⟩]]
    let extra (path : List Nat) : Nat := if path = [0] then 1 else 0
    t.print extra = "( x ) - ( ( not y ) - -2 )" ∧
      ∃ e, parseExpr "input" (t.print extra) = .ok e ∧ e.bare = t.bare := by
  intro t extra
  have hx : Text.items "x" = [.token ⟨.ident "x", ⟨1, 1⟩⟩] := by decide +kernel
  have hy : Text.items "y" = [.token ⟨.ident "y", ⟨1, 1⟩⟩] := by decide +kernel
  have hnot : Expr.Printable (.call .nowhere .not [.sym .nowhere "y"]) :=
    .unary .nowhere rfl rfl nofun (.sym .nowhere hy)
  have htwo : Expr.Printable (.lit .nowhere ⟨.int, -2, .infinity⟩) := .lit .nowhere (by decide)
  have ht : t.Printable :=
    .binary .nowhere rfl rfl (.sym .nowhere hx) (.binary .nowhere rfl rfl hnot htwo)
  exact ⟨by decide +kernel, parseExpr_print ht extra "input"⟩

end ExprTyping
