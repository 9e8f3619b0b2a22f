import ExprTyping.Proofs.Phrases

/-!
# Reading by recursive descent

The reading machine keeps the frames that wait for an operand on a stack. Expressions can as well be
read by a reader that calls itself: behind a sign, behind an operator, behind an opening
parenthesis, and in front of the second of two operands that stand side by side. In the last case
nothing has been taken off for the call, so it is not plain that such a reader ends, or how deep its
calls are nested.

The reader below has a bound on the nesting of its calls, and stops where the bound is used up. It
keeps account of the tokens that it takes off and of the calls that it makes.

- `Descent.expression` is the reader, `Descent.operand` the part of it that reads one operand, and
  `Descent.whole` reads all items;
- `Descent.Acts.Guarded`: every call is made behind a token that was taken off, or takes one off
  first, and `Descent.Acts.nesting_le`: so calls are nested no deeper than tokens are taken off;
- `Descent.sound_expression`: a call is guarded and takes tokens off the front only;
- `Descent.expression_takes` and `Descent.operand_takes`: a call that succeeds takes off a token.
-/

namespace ExprTyping

/-- The frame that a sign in front of an operand puts up. -/
def Token.sign? (t : Token) : Option Frame :=
  match t.tok with
  | .minus => some (.negation t.pos)
  | .not => some (.complement t.pos)
  | _ => none

namespace Descent

/-! ## What a call does -/

/-- What a call does, one thing after the other. -/
inductive Acts where
  /-- Nothing more. -/
  | done
  /-- It takes a token off the items. -/
  | take (t : Token) (more : Acts)
  /-- It calls for an expression under a limit, and the call does what `inner` says. -/
  | call (limit : Nat) (inner more : Acts)
  deriving DecidableEq, Repr

/-- What a call did last. -/
inductive Last where
  /-- It has only just been made. -/
  | nothing
  /-- It took a token off. -/
  | token
  /-- It made a call, which has come to its end. -/
  | call
  deriving DecidableEq, Repr

namespace Acts

/-- First the one, then the other. -/
def append : Acts → Acts → Acts
  | .done, b => b
  | .take t more, b => .take t (more.append b)
  | .call limit inner more, b => .call limit inner (more.append b)

/-- All tokens that are taken off, in order, with those of the calls. -/
def taken : Acts → List Token
  | .done => []
  | .take t more => t :: more.taken
  | .call _ inner more => inner.taken ++ more.taken

/-- How deep calls are nested. -/
def nesting : Acts → Nat
  | .done => 0
  | .take _ more => more.nesting
  | .call _ inner more => max (inner.nesting + 1) more.nesting

/-- Whether the first thing done is to take a token off. -/
def StartsByTaking : Acts → Prop
  | .take _ _ => True
  | _ => False

/-- What was done last, if `last` was done before. -/
def lastAct : Last → Acts → Last
  | last, .done => last
  | _, .take _ more => more.lastAct .token
  | _, .call _ _ more => more.lastAct .call

/-- Whether no call is the first thing that its caller does, and each call is made directly behind a
token that the caller took off, or takes a token off itself before anything else. -/
def Guarded : Last → Acts → Prop
  | _, .done => True
  | _, .take _ more => more.Guarded .token
  | last, .call _ inner more =>
    (last = .token ∨ last = .call ∧ inner.StartsByTaking) ∧ inner.Guarded .nothing ∧
      more.Guarded .call

theorem taken_append (a b : Acts) : (a.append b).taken = a.taken ++ b.taken := by
  induction a with
  | done => rfl
  | take t more ih => exact congrArg (t :: ·) ih
  | call limit inner more _ ih => rw [append, taken, taken, ih, List.append_assoc]

theorem guarded_append {a b : Acts} {last : Last} (ha : a.Guarded last)
    (hb : b.Guarded (a.lastAct last)) : (a.append b).Guarded last := by
  induction a generalizing last with
  | done => exact hb
  | take t more ih => exact ih ha hb
  | call limit inner more _ ih => exact ⟨ha.1, ha.2.1, ih ha.2.2 hb⟩

theorem lastAct_ne_nothing {last : Last} (h : last ≠ .nothing) (a : Acts) :
    a.lastAct last ≠ .nothing := by
  induction a generalizing last with
  | done => exact h
  | take t more ih => exact ih (by decide)
  | call limit inner more _ ih => exact ih (by decide)

theorem StartsByTaking.lastAct_ne_nothing {a : Acts} (h : a.StartsByTaking) (last : Last) :
    a.lastAct last ≠ .nothing := by
  cases a with
  | done => cases h
  | take t more =>
    have htoken : Last.token ≠ .nothing := by decide
    exact Acts.lastAct_ne_nothing htoken more
  | call limit inner more => cases h

theorem StartsByTaking.append {a : Acts} (h : a.StartsByTaking) (b : Acts) :
    (a.append b).StartsByTaking := by
  cases a with
  | done => cases h
  | take t more => trivial
  | call limit inner more => cases h

theorem StartsByTaking.taken_ne_nil {a : Acts} (h : a.StartsByTaking) : a.taken ≠ [] := by
  cases a with
  | done => cases h
  | take t more => exact List.cons_ne_nil _ _
  | call limit inner more => cases h

/-- What a guarded call does is nested no deeper than it takes tokens off. Behind something that was
done before, one call more may have been made without a token of its own. -/
theorem nesting_le {a : Acts} {last : Last} (h : a.Guarded last) :
    a.nesting ≤ a.taken.length + if last = .nothing then 0 else 1 := by
  induction a generalizing last with
  | done => exact Nat.zero_le _
  | take t more ih =>
    have hmore : more.nesting ≤ more.taken.length + 1 := ih h
    exact hmore.trans (Nat.le_add_right _ _)
  | call limit inner more ihInner ihMore =>
    obtain ⟨hlast, hinner, hmore⟩ := h
    have hne : last ≠ .nothing := by
      rintro rfl
      rcases hlast with hlast | ⟨hlast, -⟩ <;> cases hlast
    -- The call starts afresh, so what is inside it is paid for by its own tokens alone.
    have hinner : inner.nesting ≤ inner.taken.length := ihInner hinner
    have hmore : more.nesting ≤ more.taken.length + 1 := ihMore hmore
    rw [if_neg hne, nesting, taken, List.length_append]
    omega

end Acts

/-! ## The reader -/

/-- What comes of reading. -/
inductive Result where
  /-- An expression, and the items behind it. -/
  | read (e : Expr) (rest : List Item)
  /-- There is no expression. -/
  | failed (failure : ExprFailure)
  /-- A bound was used up before reading came to an end. -/
  | exhausted

/-- What was done, and what came of it. -/
structure Run where
  /-- What was done. -/
  acts : Acts
  /-- What came of it. -/
  result : Result

namespace Run

/-- Nothing is done, and there is an expression. -/
def read (e : Expr) (rest : List Item) : Run := ⟨.done, .read e rest⟩

/-- Nothing is done, and there is none. -/
def fail (failure : ExprFailure) : Run := ⟨.done, .failed failure⟩

/-- Nothing is done, as a bound is used up. -/
def exhausted : Run := ⟨.done, .exhausted⟩

/-- A token is taken off first. -/
def take (t : Token) (r : Run) : Run := ⟨.take t r.acts, r.result⟩

/-- All is done by a call. -/
def call (limit : Nat) (r : Run) : Run := ⟨.call limit r.acts .done, r.result⟩

/-- Goes on with the expression and the items behind it. -/
def andThen (r : Run) (next : Expr → List Item → Run) : Run :=
  match r.result with
  | .read e rest => ⟨r.acts.append (next e rest).acts, (next e rest).result⟩
  | other => ⟨r.acts, other⟩

end Run

/-- Reads off the front of the items. -/
abbrev Reader := List Item → Run

/-- Reads the closing parenthesis behind an expression. -/
def closing (e : Expr) : Reader
  | [] => .fail .incomplete
  | .fault f :: _ => .fail (.scan f)
  | .token t :: items =>
    .take t (if t.tok = .closeParen then .read e items
      else .fail (.misplaced (.expectedClose t.tok) t.pos))

section Body

-- What a call reads is left open here: each reader is given the one to call.
variable (call : Nat → Reader)

/-- Reads one operand: a numeral, a name or an expression in parentheses. -/
def operand : Reader
  | [] => .fail .incomplete
  | .fault f :: _ => .fail (.scan f)
  | .token t :: items =>
    match t.atom? with
    | some e => .take t (.read e items)
    | none =>
      if t.tok = .openParen then .take t ((call 0 items).andThen closing)
      else .fail (.misplaced (.unexpectedSymbol t.tok) t.pos)

/-- Calls for the operand of a frame, and completes the frame. -/
def inside (f : Frame) (items : List Item) : Run :=
  (call f.limit items).andThen fun e rest => .read (f.complete e) rest

/-- Reads an operand or, behind a sign, what the sign takes. -/
def first : Reader
  | .token t :: items =>
    match t.sign? with
    | some f => .take t (inside call f items)
    | none => operand call (.token t :: items)
  | items => operand call items

/-- Reads the right operand that a token calls for. An operator is taken off; where two operands
stand side by side there is none, and the token is the first one of the right operand. -/
def right (f : Frame) (t : Token) (items : List Item) : Run :=
  if t.tok.startsOperand then inside call f (.token t :: items) else .take t (inside call f items)

/-- Reads on behind an operand if a token extends it, and goes on with `next`. -/
def round (limit : Nat) (next : Expr → Reader) (left : Expr) : Reader
  | [] => .read left []
  | .fault f :: _ => .fail (.scan f)
  | .token t :: items =>
    match Machine.extension? limit t.tok with
    | none => .read left (.token t :: items)
    | some (op, priority) => (right call (.binary op priority t.pos left) t items).andThen next

/-- Reads on behind an operand as long as a token extends it, in fewer than so many rounds. -/
def further (limit : Nat) : Nat → Expr → Reader
  | 0 => fun _ _ => .exhausted
  | rounds + 1 => round call limit (further limit rounds)

/-- Reads an expression under a limit. -/
def body (limit : Nat) : Reader := fun items =>
  (first call items).andThen fun left rest => further call limit (rest.length + 1) left rest

end Body

/-- Calls for an expression under a limit. At most `depth` calls are nested, this one included. -/
def expression : Nat → Nat → Reader
  | 0 => fun _ _ => .exhausted
  | depth + 1 => fun limit items => .call limit (body (expression depth) limit items)

/-- Makes sure that nothing is left behind an expression. -/
def ending (e : Expr) : Reader
  | [] => .read e []
  | .fault f :: _ => .fail (.scan f)
  | .token t :: _ => .fail (.misplaced (.unexpectedAfter t.tok) t.pos)

/-- Reads one expression that takes up all items, with at most `depth` calls nested. -/
def whole (depth : Nat) : Reader := fun items =>
  (expression depth 0 items).andThen ending

/-! ## Taking tokens off -/

namespace Run

variable {r : Run} {next : Expr → List Item → Run} {last : Last} {items : List Item}

/-- Whether a run behind `last` is guarded, and the tokens that it takes off are the first of the
items, so that the others are left. -/
structure Sound (last : Last) (items : List Item) (r : Run) : Prop where
  guarded : r.acts.Guarded last
  takes : ∃ behind, items = r.acts.taken.map .token ++ behind ∧
    ∀ e rest, r.result = .read e rest → rest = behind

theorem sound_read (last : Last) (e : Expr) (items : List Item) :
    (read e items).Sound last items :=
  ⟨trivial, items, rfl, by rintro _ _ ⟨⟩; rfl⟩

theorem sound_fail (last : Last) (items : List Item) (failure : ExprFailure) :
    (fail failure).Sound last items :=
  ⟨trivial, items, rfl, by rintro _ _ ⟨⟩⟩

theorem sound_exhausted (last : Last) (items : List Item) : exhausted.Sound last items :=
  ⟨trivial, items, rfl, by rintro _ _ ⟨⟩⟩

theorem Sound.take {t : Token} (h : r.Sound .token items) (last : Last) :
    (r.take t).Sound last (.token t :: items) := by
  obtain ⟨hguarded, behind, rfl, hrest⟩ := h
  exact ⟨hguarded, behind, rfl, hrest⟩

theorem Sound.call (h : r.Sound .nothing items)
    (hlast : last = .token ∨ last = .call ∧ r.acts.StartsByTaking) (limit : Nat) :
    (r.call limit).Sound last items := by
  obtain ⟨hguarded, behind, hitems, hrest⟩ := h
  have htaken : (Acts.call limit r.acts .done).taken = r.acts.taken := List.append_nil _
  refine ⟨⟨hlast, hguarded, trivial⟩, behind, ?_, hrest⟩
  exact hitems.trans (by rw [Run.call, htaken])

theorem Sound.andThen (h : r.Sound last items)
    (hnext : ∀ e rest, r.result = .read e rest →
      (next e rest).Sound (r.acts.lastAct last) rest) :
    (r.andThen next).Sound last items := by
  obtain ⟨hguarded, behind, hitems, hrest⟩ := h
  unfold Run.andThen
  split
  · next e rest hread =>
    obtain rfl := hrest e rest hread
    obtain ⟨hguarded', behind', hbehind, hrest'⟩ := hnext e rest hread
    refine ⟨Acts.guarded_append hguarded hguarded', behind', ?_, hrest'⟩
    rw [Acts.taken_append, List.map_append, List.append_assoc, ← hbehind]
    exact hitems
  · exact ⟨hguarded, behind, hitems, hrest⟩

/-- A run that has taken a token off and gives an expression leaves less. -/
theorem Sound.exists_taken (h : r.Sound last items) (hstarts : r.acts.taken ≠ []) {e : Expr}
    {rest : List Item} (hread : r.result = .read e rest) :
    ∃ ts : List Token, ts ≠ [] ∧ items = ts.map .token ++ rest := by
  obtain ⟨-, behind, hitems, hrest⟩ := h
  obtain rfl := hrest e rest hread
  exact ⟨_, hstarts, hitems⟩

theorem startsByTaking_andThen (h : r.acts.StartsByTaking) (next : Expr → List Item → Run) :
    (r.andThen next).acts.StartsByTaking := by
  unfold andThen
  split
  · exact h.append _
  · exact h

theorem exists_of_andThen {e : Expr} {rest : List Item}
    (h : (r.andThen next).result = .read e rest) :
    ∃ e' rest', r.result = .read e' rest' ∧ (next e' rest').result = .read e rest := by
  unfold andThen at h
  split at h
  · next e' rest' hread => exact ⟨e', rest', hread, h⟩
  · next hread => exact absurd h (hread e rest)

theorem read_ne_exhausted (e : Expr) (rest : List Item) : (read e rest).result ≠ .exhausted := by
  rintro ⟨⟩

theorem fail_ne_exhausted (failure : ExprFailure) : (fail failure).result ≠ .exhausted := by
  rintro ⟨⟩

theorem andThen_ne_exhausted (h : r.result ≠ .exhausted)
    (hnext : ∀ e rest, r.result = .read e rest → (next e rest).result ≠ .exhausted) :
    (r.andThen next).result ≠ .exhausted := by
  unfold andThen
  split
  · next e rest hread => exact hnext e rest hread
  · exact h

end Run

/-- Whether a call may be made behind `last` and in front of the items: behind a token, or where an
operand starts behind another call. -/
def Ready (last : Last) (items : List Item) : Prop :=
  last = .token ∨ last = .call ∧ ∃ t more, items = .token t :: more ∧ t.tok.startsOperand

section Sound

variable {call : Nat → Reader}

/-- Where an operand starts, its first token is taken off first. -/
theorem startsByTaking_operand {t : Token} (h : t.tok.startsOperand) (items : List Item) :
    (operand call (.token t :: items)).acts.StartsByTaking := by
  rw [operand]
  split
  · trivial
  · next hatom =>
    have hopen : t.tok = .openParen := by
      refine (Tok.startsOperand_iff.1 h).resolve_left fun ha => ?_
      obtain ⟨tok, pos⟩ := t
      cases tok <;> cases ha <;> cases hatom
    rw [if_pos hopen]
    trivial

theorem startsByTaking_first {t : Token} (h : t.tok.startsOperand) (items : List Item) :
    (first call (.token t :: items)).acts.StartsByTaking := by
  have hsign : t.sign? = none := by
    obtain ⟨tok, pos⟩ := t
    cases tok <;> first | rfl | cases h
  rw [first, hsign]
  exact startsByTaking_operand h items

/-- What is read as an operand starts with a token that is taken off first. -/
theorem startsByTaking_of_operand {items rest : List Item} {e : Expr}
    (h : (operand call items).result = .read e rest) :
    (operand call items).acts.StartsByTaking := by
  match items with
  | [] => cases h
  | .fault f :: _ => cases h
  | .token t :: items =>
    rw [operand] at h ⊢
    split at h
    · trivial
    · split at h
      · next hopen =>
        rw [if_pos hopen]
        trivial
      · cases h

theorem startsByTaking_of_first {items rest : List Item} {e : Expr}
    (h : (first call items).result = .read e rest) : (first call items).acts.StartsByTaking := by
  match items with
  | [] => cases h
  | .fault f :: _ => cases h
  | .token t :: items =>
    rw [first] at h ⊢
    split at h
    · trivial
    · exact startsByTaking_of_operand h

theorem sound_closing (last : Last) (e : Expr) (items : List Item) :
    (closing e items).Sound last items := by
  match items with
  | [] => exact Run.sound_fail _ _ _
  | .fault f :: _ => exact Run.sound_fail _ _ _
  | .token t :: items =>
    refine Run.Sound.take ?_ last
    split
    · exact Run.sound_read _ _ _
    · exact Run.sound_fail _ _ _

section Calls

variable (hcall : ∀ limit last items, Ready last items → (call limit items).Sound last items)
include hcall

theorem sound_operand (last : Last) (items : List Item) :
    (operand call items).Sound last items := by
  match items with
  | [] => exact Run.sound_fail _ _ _
  | .fault f :: _ => exact Run.sound_fail _ _ _
  | .token t :: items =>
    rw [operand]
    split
    · exact (Run.sound_read _ _ _).take last
    · split
      · refine Run.Sound.take (Run.Sound.andThen (hcall 0 .token items (.inl rfl)) ?_) last
        exact fun e rest _ => sound_closing _ e rest
      · exact Run.sound_fail _ _ _

theorem sound_inside {last : Last} {items : List Item} (h : Ready last items) (f : Frame) :
    (inside call f items).Sound last items :=
  (hcall f.limit last items h).andThen fun _ rest _ => Run.sound_read _ _ rest

theorem sound_first (last : Last) (items : List Item) : (first call items).Sound last items := by
  match items with
  | [] => exact Run.sound_fail _ _ _
  | .fault f :: _ => exact Run.sound_fail _ _ _
  | .token t :: items =>
    rw [first]
    split
    · next f _ => exact (sound_inside hcall (.inl rfl) f).take last
    · exact sound_operand hcall last _

theorem sound_right {last : Last} (hlast : last ≠ .nothing) (f : Frame) (t : Token)
    (items : List Item) : (right call f t items).Sound last (.token t :: items) := by
  unfold right
  split
  · next hstarts =>
    -- Nothing is taken off here, but an operand starts where the call is made.
    refine sound_inside hcall ?_ f
    cases last with
    | nothing => exact absurd rfl hlast
    | token => exact .inl rfl
    | call => exact .inr ⟨rfl, t, items, rfl, hstarts⟩
  · exact (sound_inside hcall (.inl rfl) f).take last

theorem sound_further (limit rounds : Nat) {last : Last} (hlast : last ≠ .nothing) (left : Expr)
    (items : List Item) : (further call limit rounds left items).Sound last items := by
  induction rounds generalizing last left items with
  | zero => exact Run.sound_exhausted _ _
  | succ rounds ih =>
    match items with
    | [] => exact Run.sound_read _ _ _
    | .fault f :: _ => exact Run.sound_fail _ _ _
    | .token t :: items =>
      rw [further, round]
      split
      · exact Run.sound_read _ _ _
      · refine (sound_right hcall hlast _ t items).andThen fun e rest _ => ?_
        exact ih (Acts.lastAct_ne_nothing hlast _) e rest

theorem sound_body (limit : Nat) (items : List Item) :
    (body call limit items).Sound .nothing items := by
  refine (sound_first hcall .nothing items).andThen fun left rest hread => ?_
  -- A token was taken off for the operand, so no call behind it is the first thing that is done.
  have hlast := (startsByTaking_of_first hread).lastAct_ne_nothing .nothing
  exact sound_further hcall limit _ hlast left rest

end Calls

end Sound

/-- Every call that is made where it may be is sound. -/
theorem sound_expression (depth limit : Nat) (last : Last) (items : List Item)
    (h : Ready last items) : (expression depth limit items).Sound last items := by
  induction depth generalizing limit last items with
  | zero => exact Run.sound_exhausted _ _
  | succ depth ih =>
    refine (sound_body ih limit items).call ?_ limit
    rcases h with h | ⟨hlast, t, more, rfl, ht⟩
    · exact .inl h
    · -- No token was taken off for this call, but it starts with an operand.
      exact .inr ⟨hlast, Run.startsByTaking_andThen (startsByTaking_first ht more) _⟩

/-- All that a call does is guarded. -/
theorem guarded_of_call {depth limit : Nat} {items : List Item} {inner more : Acts}
    (h : (expression depth limit items).acts = .call limit inner more) :
    inner.Guarded .nothing := by
  have hguarded := (sound_expression depth limit .token items (.inl rfl)).guarded
  rw [h] at hguarded
  exact hguarded.2.1

section Takes

variable {depth limit : Nat} {items rest : List Item} {e : Expr}

/-- An operand that is read takes off at least one token. -/
theorem operand_takes (h : (operand (expression depth) items).result = .read e rest) :
    ∃ ts : List Token, ts ≠ [] ∧ items = ts.map .token ++ rest :=
  (sound_operand (sound_expression depth) .nothing items).exists_taken
    (startsByTaking_of_operand h).taken_ne_nil h

theorem first_takes (h : (first (expression depth) items).result = .read e rest) :
    ∃ ts : List Token, ts ≠ [] ∧ items = ts.map .token ++ rest :=
  (sound_first (sound_expression depth) .nothing items).exists_taken
    (startsByTaking_of_first h).taken_ne_nil h

/-- A call that gives an expression takes off at least one token. -/
theorem expression_takes (h : (expression depth limit items).result = .read e rest) :
    ∃ ts : List Token, ts ≠ [] ∧ items = ts.map .token ++ rest := by
  refine (sound_expression depth limit .token items (.inl rfl)).exists_taken ?_ h
  cases depth with
  | zero => cases h
  | succ depth =>
    obtain ⟨left, behind, hfirst, -⟩ := Run.exists_of_andThen h
    have hbody : (body (expression depth) limit items).acts.StartsByTaking :=
      Run.startsByTaking_andThen (startsByTaking_of_first hfirst) _
    exact List.append_ne_nil_of_left_ne_nil hbody.taken_ne_nil _

end Takes

end Descent

end ExprTyping
