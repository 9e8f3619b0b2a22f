import ExprTyping.Proofs.Descent

/-!
# Descent and machine

The reader that calls itself and the machine with a stack read the same expressions and fail in the
same way. Where the reader makes a call, the machine puts up a frame, and where the call gives an
expression, the machine has it as the operand of the frame. This needs a bound on nested calls that
is not used up, and any bound above the number of tokens will do.

- `expression_ne_exhausted`: a bound above the number of tokens is never used up;
- `Run.Agrees`, `agrees_expression`: a call does what the machine does;
- `result_whole`, `nesting_whole_le`: reading all items, its result and how deep calls are nested.
-/

namespace ExprTyping.Descent

/-! ## The bound on nested calls -/

/-- The number of tokens among items. -/
def tokens : List Item → Nat
  | [] => 0
  | .token _ :: items => tokens items + 1
  | .fault _ :: items => tokens items

theorem tokens_append (ts : List Token) (items : List Item) :
    tokens (ts.map .token ++ items) = ts.length + tokens items := by
  induction ts with
  | nil => exact (Nat.zero_add _).symm
  | cons t ts ih =>
    rw [List.map_cons, List.cons_append, tokens, ih, List.length_cons]
    omega

theorem tokens_le_length (items : List Item) : tokens items ≤ items.length := by
  induction items with
  | nil => exact Nat.le_refl 0
  | cons item items ih =>
    cases item with
    | token t => exact Nat.succ_le_succ ih
    | fault f => exact Nat.le_succ_of_le ih

theorem tokens_lt {items rest : List Item}
    (h : ∃ ts : List Token, ts ≠ [] ∧ items = ts.map .token ++ rest) :
    tokens rest < tokens items := by
  obtain ⟨ts, hts, rfl⟩ := h
  have hpos := List.length_pos_iff.2 hts
  rw [tokens_append]
  omega

theorem tokens_of_inside {depth : Nat} {f : Frame} {items rest : List Item} {e : Expr}
    (h : (inside (expression depth) f items).result = .read e rest) :
    tokens rest < tokens items := by
  obtain ⟨e', rest', hcall, h⟩ := Run.exists_of_andThen h
  cases h
  exact tokens_lt (expression_takes hcall)

theorem tokens_of_right {depth : Nat} {f : Frame} {t : Token} {items rest : List Item} {e : Expr}
    (h : (right (expression depth) f t items).result = .read e rest) :
    tokens rest < tokens (.token t :: items) := by
  unfold right at h
  split at h
  · exact tokens_of_inside h
  · exact Nat.lt_succ_of_lt (tokens_of_inside h)

theorem closing_ne_exhausted (e : Expr) (items : List Item) :
    (closing e items).result ≠ .exhausted := by
  unfold closing
  split
  · exact Run.fail_ne_exhausted _
  · exact Run.fail_ne_exhausted _
  · show (ite _ _ _ : Run).result ≠ _
    split
    · exact Run.read_ne_exhausted _ _
    · exact Run.fail_ne_exhausted _

theorem ending_ne_exhausted (e : Expr) (items : List Item) :
    (ending e items).result ≠ .exhausted := by
  unfold ending
  split
  · exact Run.read_ne_exhausted _ _
  · exact Run.fail_ne_exhausted _
  · exact Run.fail_ne_exhausted _

section Enough

variable {depth : Nat}
  (henough : ∀ limit items, tokens items < depth →
    (expression depth limit items).result ≠ .exhausted)

include henough

theorem inside_ne_exhausted {items : List Item} (h : tokens items < depth) (f : Frame) :
    (inside (expression depth) f items).result ≠ .exhausted :=
  Run.andThen_ne_exhausted (henough f.limit items h) fun _ _ _ => Run.read_ne_exhausted _ _

theorem operand_ne_exhausted {items : List Item} (h : tokens items ≤ depth) :
    (operand (expression depth) items).result ≠ .exhausted := by
  match items with
  | [] => exact Run.fail_ne_exhausted _
  | .fault f :: _ => exact Run.fail_ne_exhausted _
  | .token t :: items =>
    rw [operand]
    split
    · exact Run.read_ne_exhausted _ _
    · split
      · exact Run.andThen_ne_exhausted (henough 0 items h) fun e rest _ =>
          closing_ne_exhausted e rest
      · exact Run.fail_ne_exhausted _

theorem first_ne_exhausted {items : List Item} (h : tokens items ≤ depth) :
    (first (expression depth) items).result ≠ .exhausted := by
  match items with
  | [] => exact Run.fail_ne_exhausted _
  | .fault f :: _ => exact Run.fail_ne_exhausted _
  | .token t :: items =>
    rw [first]
    split
    · exact inside_ne_exhausted henough h _
    · exact operand_ne_exhausted henough h

theorem right_ne_exhausted {t : Token} {items : List Item} (h : tokens (.token t :: items) < depth)
    (f : Frame) : (right (expression depth) f t items).result ≠ .exhausted := by
  unfold right
  split
  · exact inside_ne_exhausted henough h f
  · exact inside_ne_exhausted henough (Nat.lt_of_succ_lt h) f

theorem further_ne_exhausted {limit rounds : Nat} {left : Expr} {items : List Item}
    (hdepth : tokens items < depth) (hrounds : tokens items < rounds) :
    (further (expression depth) limit rounds left items).result ≠ .exhausted := by
  induction rounds generalizing left items with
  | zero => cases hrounds
  | succ rounds ih =>
    match items with
    | [] => exact Run.read_ne_exhausted _ _
    | .fault f :: _ => exact Run.fail_ne_exhausted _
    | .token t :: items =>
      rw [further, round]
      split
      · exact Run.read_ne_exhausted _ _
      · refine Run.andThen_ne_exhausted (right_ne_exhausted henough hdepth _) fun e rest h => ?_
        -- The right operand takes off a token, which pays for the round.
        have hless := tokens_of_right h
        exact ih (hless.trans hdepth) (by omega)

end Enough

/-- A bound on nested calls above the number of tokens is never used up. -/
theorem expression_ne_exhausted {depth limit : Nat} {items : List Item}
    (h : tokens items < depth) : (expression depth limit items).result ≠ .exhausted := by
  induction depth generalizing limit items with
  | zero => cases h
  | succ depth ih =>
    have henough (limit items) (h : tokens items < depth) :
        (expression depth limit items).result ≠ .exhausted := ih h
    have hle := Nat.le_of_lt_succ h
    refine Run.andThen_ne_exhausted (first_ne_exhausted henough hle) fun left rest hfirst => ?_
    -- A token has been taken off, so the calls behind it are within the smaller bound.
    have hless := tokens_lt (first_takes hfirst)
    exact further_ne_exhausted henough (Nat.lt_of_lt_of_le hless hle)
      (Nat.lt_succ_of_le (tokens_le_length rest))

/-! ## The machine -/

/-- Whether nothing in front of the items extends an operand under a limit: they are at their end,
or start with a token that binds less tightly. -/
def Settled (limit : Nat) (items : List Item) : Prop :=
  ∀ i ∈ items.head?, ∃ t, i = .token t ∧ Machine.extension? limit t.tok = none

/-- Whether a run does what the machine does that ends in `outcome`: where it gives an expression,
the machine has it as an operand inside `stack`. Nothing is said where a bound was used up. -/
def Run.Agrees (stack : Stack) (outcome : Except ExprFailure Expr) (r : Run) : Prop :=
  match r.result with
  | .read e rest => outcome = (Machine.having stack e).run rest
  | .failed failure => outcome = .error failure
  | .exhausted => True

theorem Run.Agrees.andThen {r : Run} {next : Expr → List Item → Run} {inner outer : Stack}
    {outcome : Except ExprFailure Expr} (h : r.Agrees inner outcome)
    (hnext : ∀ e rest, r.result = .read e rest →
      (next e rest).Agrees outer ((Machine.having inner e).run rest)) :
    (r.andThen next).Agrees outer outcome := by
  unfold Run.andThen
  unfold Run.Agrees at h
  cases hresult : r.result with
  | read e rest =>
    rw [hresult] at h
    rw [h]
    exact hnext e rest hresult
  | failed failure =>
    rw [hresult] at h
    exact h
  | exhausted => trivial

/-- Where nothing extends the operand of a frame, the frame is completed. -/
theorem run_having_cons {f : Frame} {rest : List Item} (hpos : 0 < f.limit)
    (h : Settled f.limit rest) (stack : Stack) (e : Expr) :
    (Machine.having (f :: stack) e).run rest = (Machine.having stack (f.complete e)).run rest := by
  match rest with
  | [] => cases f with
    | paren => cases hpos
    | negation pos => rfl
    | complement pos => rfl
    | binary op priority pos left => rfl
  | item :: rest =>
    obtain ⟨t, rfl, hnone⟩ := h item rfl
    rw [Machine.run, Machine.run, Machine.step, Machine.step,
      Machine.stepHaving_cons hpos hnone stack e]

/-- What the machine does where an operand has to start. -/
theorem stepWanting_eq (stack : Stack) (t : Token) :
    Machine.stepWanting stack t =
      match t.sign?, t.atom? with
      | some f, _ => .ok (.wanting (f :: stack))
      | none, some e => .ok (.having stack e)
      | none, none =>
        if t.tok = .openParen then .ok (.wanting (.paren :: stack))
        else .error (.misplaced (.unexpectedSymbol t.tok) t.pos) := by
  obtain ⟨tok, pos⟩ := t
  cases tok <;> rfl

theorem limit_pos_of_sign? {t : Token} {f : Frame} (h : t.sign? = some f) : 0 < f.limit := by
  obtain ⟨tok, pos⟩ := t
  cases tok <;> cases h <;> exact Nat.succ_pos _

theorem lt_of_extension? {limit priority : Nat} {op : Op} {t : Tok}
    (h : Machine.extension? limit t = some (op, priority)) : limit < priority := by
  unfold Machine.extension? at h
  split at h
  · obtain ⟨hlt, h⟩ := Option.ite_none_right_eq_some.1 h
    cases h
    exact hlt
  · obtain ⟨hlt, h⟩ := Option.ite_none_right_eq_some.1 h
    cases h
    rw [Bool.and_eq_true, decide_eq_true_eq] at hlt
    exact hlt.2

theorem settled_further {call : Nat → Reader} {limit rounds : Nat} {left e : Expr}
    {items rest : List Item}
    (h : (further call limit rounds left items).result = .read e rest) : Settled limit rest := by
  induction rounds generalizing left items with
  | zero => cases h
  | succ rounds ih =>
    match items with
    | [] =>
      cases h
      rintro _ ⟨⟩
    | .fault f :: _ => cases h
    | .token t :: items =>
      rw [further, round] at h
      split at h
      · next hnone =>
        cases h
        rintro _ ⟨⟩
        exact ⟨t, rfl, hnone⟩
      · obtain ⟨e', rest', -, h⟩ := Run.exists_of_andThen h
        exact ih h

theorem settled_expression {depth limit : Nat} {items rest : List Item} {e : Expr}
    (h : (expression depth limit items).result = .read e rest) : Settled limit rest := by
  cases depth with
  | zero => cases h
  | succ depth =>
    obtain ⟨left, behind, -, h⟩ := Run.exists_of_andThen h
    exact settled_further h

/-- A token that extends nothing closes the innermost parenthesis, or is none that can. -/
theorem agrees_closing {rest : List Item} (h : Settled 0 rest) (stack : Stack) (e : Expr) :
    (closing e rest).Agrees stack ((Machine.having (.paren :: stack) e).run rest) := by
  match rest with
  | [] => rfl
  | item :: rest =>
    obtain ⟨t, rfl, hnone⟩ := h item rfl
    have hlimit : Machine.extension? (Stack.limit (.paren :: stack)) t.tok = none := hnone
    rw [closing, Machine.run, Machine.step, Machine.stepHaving.eq_def]
    dsimp only
    rw [hlimit]
    dsimp only
    split_ifs <;> rfl

section Agrees

variable {depth : Nat}
  (hcall : ∀ stack items, (expression depth (Stack.limit stack) items).Agrees stack
    ((Machine.wanting stack).run items))

include hcall

/-- The operand of a frame is read inside it, and what follows completes the frame. -/
theorem agrees_inside {f : Frame} (hpos : 0 < f.limit) (stack : Stack) (items : List Item) :
    (inside (expression depth) f items).Agrees stack
      ((Machine.wanting (f :: stack)).run items) := by
  refine (hcall (f :: stack) items).andThen fun e rest hread => ?_
  exact run_having_cons hpos (settled_expression hread) stack e

theorem agrees_operand {t : Token} (hsign : t.sign? = none) (stack : Stack) (items : List Item) :
    (operand (expression depth) (.token t :: items)).Agrees stack
      ((Machine.wanting stack).run (.token t :: items)) := by
  rw [operand, Machine.run, Machine.step, stepWanting_eq, hsign]
  cases t.atom? with
  | some e => rfl
  | none =>
    dsimp only
    split_ifs
    · refine Run.Agrees.andThen (hcall (.paren :: stack) items) fun e rest hread => ?_
      exact agrees_closing (settled_expression hread) stack e
    · rfl

theorem agrees_first (stack : Stack) (items : List Item) :
    (first (expression depth) items).Agrees stack ((Machine.wanting stack).run items) := by
  match items with
  | [] => rfl
  | .fault f :: _ => rfl
  | .token t :: items =>
    rw [first]
    split
    · next f hsign =>
      rw [Machine.run, Machine.step, stepWanting_eq, hsign]
      exact agrees_inside hcall (limit_pos_of_sign? hsign) stack items
    · next hsign => exact agrees_operand hcall hsign stack items

/-- The right operand that a token calls for is read inside the frame of the operator. -/
theorem agrees_right {stack : Stack} {left : Expr} {t : Token} {op : Op} {priority : Nat}
    (h : Machine.extension? (Stack.limit stack) t.tok = some (op, priority)) (items : List Item) :
    (right (expression depth) (.binary op priority t.pos left) t items).Agrees stack
      ((Machine.having stack left).run (.token t :: items)) := by
  have hpos : 0 < (Frame.binary op priority t.pos left).limit :=
    Nat.zero_lt_of_lt (lt_of_extension? h)
  rw [right, Machine.run, Machine.step, Machine.stepHaving.eq_def]
  dsimp only
  rw [h]
  dsimp only
  split_ifs
  · -- Nothing is taken off, and the machine has the same token again inside the new frame.
    exact agrees_inside hcall hpos stack (.token t :: items)
  · exact agrees_inside hcall hpos stack items

theorem agrees_further (rounds : Nat) (stack : Stack) (left : Expr) (items : List Item) :
    (further (expression depth) (Stack.limit stack) rounds left items).Agrees stack
      ((Machine.having stack left).run items) := by
  induction rounds generalizing left items with
  | zero => trivial
  | succ rounds ih =>
    match items with
    | [] => rfl
    | .fault f :: _ => rfl
    | .token t :: items =>
      rw [further, round]
      split
      · rfl
      · next op priority hext =>
        exact (agrees_right hcall hext items).andThen fun e rest _ => ih e rest

end Agrees

/-- A call reads what the machine reads where it wants an operand. -/
theorem agrees_expression (depth : Nat) (stack : Stack) (items : List Item) :
    (expression depth (Stack.limit stack) items).Agrees stack
      ((Machine.wanting stack).run items) := by
  induction depth generalizing stack items with
  | zero => trivial
  | succ depth ih =>
    -- A call has the result of its body.
    show (body (expression depth) (Stack.limit stack) items).Agrees stack _
    exact (agrees_first ih stack items).andThen fun left rest _ =>
      agrees_further ih (rest.length + 1) stack left rest

/-- Outside all frames, the end of the items is the only thing that may follow. -/
theorem agrees_ending {rest : List Item} (h : Settled 0 rest) (e : Expr) :
    (ending e rest).Agrees [] ((Machine.having [] e).run rest) := by
  match rest with
  | [] => rfl
  | item :: rest =>
    obtain ⟨t, rfl, hnone⟩ := h item rfl
    have hlimit : Machine.extension? (Stack.limit []) t.tok = none := hnone
    rw [ending, Machine.run, Machine.step, Machine.stepHaving.eq_def]
    dsimp only
    rw [hlimit]
    rfl

/-- What comes of the machine, as a result of reading all items. -/
def Result.ofExcept : Except ExprFailure Expr → Result
  | .ok e => .read e []
  | .error failure => .failed failure

/-- Reading comes to the same as the machine, if the bound is above the number of tokens. -/
theorem result_whole {depth : Nat} {items : List Item} (h : tokens items < depth) :
    (whole depth items).result = .ofExcept (Expr.ofItems items) := by
  have hagrees : (whole depth items).Agrees [] (Expr.ofItems items) :=
    (agrees_expression depth [] items).andThen fun e rest hread =>
      agrees_ending (settled_expression hread) e
  have hnot : (whole depth items).result ≠ .exhausted :=
    Run.andThen_ne_exhausted (expression_ne_exhausted h) fun e rest _ => ending_ne_exhausted e rest
  unfold Run.Agrees at hagrees
  cases hresult : (whole depth items).result with
  | read e rest =>
    -- Nothing is left behind the expression.
    obtain ⟨e', rest', -, hending⟩ := Run.exists_of_andThen hresult
    unfold ending at hending
    split at hending <;> cases hending
    rw [hresult] at hagrees
    rw [hagrees]
    rfl
  | failed failure =>
    rw [hresult] at hagrees
    rw [hagrees]
    rfl
  | exhausted => exact absurd hresult hnot

/-- However large the bound is, calls are nested no deeper than there are tokens, the outermost one
apart. -/
theorem nesting_whole_le (depth : Nat) (items : List Item) :
    (whole depth items).acts.nesting ≤ tokens items + 1 := by
  have hsound : (whole depth items).Sound .token items :=
    (sound_expression depth 0 .token items (.inl rfl)).andThen fun e rest _ => by
      unfold ending
      split
      · exact Run.sound_read _ _ _
      · exact Run.sound_fail _ _ _
      · exact Run.sound_fail _ _ _
  obtain ⟨hguarded, behind, hitems, -⟩ := hsound
  have hnesting := Acts.nesting_le hguarded
  have htokens := tokens_append (whole depth items).acts.taken behind
  rw [← hitems] at htokens
  rw [if_neg (by decide)] at hnesting
  omega

/-- In `2 (x)` the call for the right operand of the product is made at the parenthesis, which it
takes off first, and the call inside the parentheses is made behind it. -/
example (n : Int64) (name : Text) (p q r s : Pos) :
    (whole 3 [.token ⟨.integer n, p⟩, .token ⟨.openParen, q⟩, .token ⟨.ident name, r⟩,
      .token ⟨.closeParen, s⟩]).acts =
      .call 0
        (.take ⟨.integer n, p⟩
          (.call juxtapositionPriority
            (.take ⟨.openParen, q⟩
              (.call 0 (.take ⟨.ident name, r⟩ .done) (.take ⟨.closeParen, s⟩ .done)))
            .done))
        .done := rfl

end ExprTyping.Descent
