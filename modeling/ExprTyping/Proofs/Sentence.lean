import ExprTyping.Diagnostic

/-!
# The sentences that are expressions

The grammar of expressions over words, without priorities: an expression is an operand behind any
number of signs, followed by further operands, each of them directly or behind a binary operator
and more signs. An operand is a numeral, a name or an expression in parentheses.

What the reading machine still accepts depends only on how many parentheses are open and on
whether an operand is due. `Machine.Completes` is this language, and one step of the machine takes
off its first word:

- `Machine.completes_step` and `Machine.not_completes_of_step`: a token leads to the state that the
  rest completes, or nothing that starts with it completes the state;
- `Machine.verdict_run`: what a whole run gives, from these two;
- `parse_trichotomy`: a source is an expression, the beginning of one, or wrong at a first place.
-/

namespace ExprTyping

namespace Tok

/-- Whether a word is a sign in front of an operand. -/
def isSign : Tok → Bool
  | .not => true
  | .minus => true
  | _ => false

/-- Whether a word is an operand on its own. -/
def isAtom : Tok → Bool
  | .integer _ => true
  | .real _ => true
  | .ident _ => true
  | _ => false

theorem startsOperand_iff {t : Tok} : t.startsOperand ↔ t.isAtom ∨ t = .openParen := by
  cases t with
  | openParen => exact ⟨fun _ => .inr rfl, fun _ => rfl⟩
  | integer n => exact ⟨fun _ => .inl rfl, fun _ => rfl⟩
  | real x => exact ⟨fun _ => .inl rfl, fun _ => rfl⟩
  | ident name => exact ⟨fun _ => .inl rfl, fun _ => rfl⟩
  | _ =>
    refine ⟨nofun, ?_⟩
    rintro (h | h) <;> cases h

theorem binary?_of_startsOperand {t : Tok} (h : t.startsOperand) : t.binary? = none := by
  cases t <;> first | rfl | cases h

theorem isSign_of_startsOperand {t : Tok} (h : t.startsOperand) : t.isSign = false := by
  cases t <;> first | rfl | cases h

end Tok

/-! ## The grammar -/

mutual

/-- Signs, an operand and what follows it. -/
inductive Sentence : List Tok → Prop
  | mk {signs operand rest : List Tok} : (∀ t ∈ signs, t.isSign) → Operand operand → Rest rest →
      Sentence (signs ++ (operand ++ rest))

/-- A numeral, a name or a sentence in parentheses. -/
inductive Operand : List Tok → Prop
  | atom {t : Tok} : t.isAtom → Operand [t]
  | parens {ts : List Tok} : Sentence ts → Operand (.openParen :: (ts ++ [.closeParen]))

/-- Further operands, each behind a binary operator and signs or directly. -/
inductive Rest : List Tok → Prop
  | nil : Rest []
  | binary {b : Tok} {signs operand rest : List Tok} : b.binary?.isSome →
      (∀ t ∈ signs, t.isSign) → Operand operand → Rest rest →
      Rest (b :: (signs ++ (operand ++ rest)))
  | adjacent {operand rest : List Tok} : Operand operand → Rest rest → Rest (operand ++ rest)

end

/-- An operand starts with a word that can stand behind another operand. -/
theorem Operand.eq_cons {ts : List Tok} (h : Operand ts) :
    ∃ t more, ts = t :: more ∧ t.startsOperand := by
  cases h with
  | @atom t ht => exact ⟨t, [], rfl, Tok.startsOperand_iff.2 (.inl ht)⟩
  | @parens ts _ => exact ⟨.openParen, ts ++ [.closeParen], rfl, rfl⟩

theorem Sentence.of_operand {operand rest : List Tok} (hoperand : Operand operand)
    (hrest : Rest rest) : Sentence (operand ++ rest) :=
  .mk (List.forall_mem_nil _) hoperand hrest

theorem Sentence.ne_nil {ts : List Tok} (h : Sentence ts) : ts ≠ [] := by
  cases h with
  | mk _ hoperand _ =>
    obtain ⟨t, more, rfl, -⟩ := hoperand.eq_cons
    simp

/-- A sentence starts with a sign, an atom or a parenthesis, and each leaves what may follow. -/
theorem sentence_cons_iff {t : Tok} {ts : List Tok} :
    Sentence (t :: ts) ↔
      (t.isSign ∧ Sentence ts) ∨ (t.isAtom ∧ Rest ts) ∨
        (t = .openParen ∧ ∃ inner rest, Sentence inner ∧ Rest rest ∧
          ts = inner ++ .closeParen :: rest) := by
  constructor
  · generalize hts : t :: ts = all
    intro h
    cases h with
    | @mk signs operand rest hsigns hoperand hrest =>
      cases signs with
      | cons s signs =>
        simp only [List.cons_append, List.cons.injEq] at hts
        obtain ⟨rfl, rfl⟩ := hts
        exact .inl ⟨hsigns t (by simp), .mk (fun s hs => hsigns s (by simp [hs])) hoperand hrest⟩
      | nil =>
        cases hoperand with
        | atom ha =>
          simp only [List.nil_append, List.cons_append, List.cons.injEq] at hts
          obtain ⟨rfl, rfl⟩ := hts
          exact .inr (.inl ⟨ha, hrest⟩)
        | @parens inner hinner =>
          simp only [List.nil_append, List.cons_append, List.append_assoc,
            List.cons.injEq] at hts
          obtain ⟨rfl, rfl⟩ := hts
          exact .inr (.inr ⟨rfl, inner, rest, hinner, hrest, rfl⟩)
  · rintro (⟨hs, h⟩ | ⟨ha, h⟩ | ⟨rfl, inner, rest, hinner, hrest, rfl⟩)
    · cases h with
      | @mk signs operand rest hsigns hoperand hrest =>
        exact .mk (List.forall_mem_cons.2 ⟨hs, hsigns⟩) hoperand hrest
    · exact .of_operand (.atom ha) h
    · have h := Sentence.of_operand (.parens hinner) hrest
      simpa using h

/-- What follows an operand starts with a binary operator or with another operand. -/
theorem rest_cons_iff {t : Tok} {ts : List Tok} :
    Rest (t :: ts) ↔ (t.binary?.isSome ∧ Sentence ts) ∨ (t.startsOperand ∧ Sentence (t :: ts)) := by
  constructor
  · generalize hts : t :: ts = all
    intro h
    cases h with
    | nil => cases hts
    | binary hb hsigns hoperand hrest =>
      obtain ⟨rfl, rfl⟩ := List.cons.inj hts
      exact .inl ⟨hb, .mk hsigns hoperand hrest⟩
    | adjacent hoperand hrest =>
      have hsentence := Sentence.of_operand hoperand hrest
      obtain ⟨s, more, rfl, hs⟩ := hoperand.eq_cons
      obtain ⟨rfl, rfl⟩ := List.cons.inj hts
      exact .inr ⟨hs, hsentence⟩
  · rintro (⟨hb, h⟩ | ⟨hs, h⟩)
    · cases h with
      | mk hsigns hoperand hrest => exact .binary hb hsigns hoperand hrest
    · generalize hts : t :: ts = all at h
      cases h with
      | @mk signs operand rest hsigns hoperand hrest =>
        cases signs with
        | nil =>
          rw [List.nil_append]
          exact .adjacent hoperand hrest
        | cons s signs =>
          -- The first word would be a sign, which starts no operand.
          obtain ⟨rfl, -⟩ := List.cons.inj hts
          have hsign := hsigns t (by simp)
          rw [Tok.isSign_of_startsOperand hs] at hsign
          cases hsign

/-! ## What completes a reading -/

/-- What stands behind the innermost of `depth` open parentheses' sentences: the parentheses that
close them, each followed by further operands. -/
inductive Closing : Nat → List Tok → Prop
  | zero : Closing 0 []
  | close {depth : Nat} {rest closing : List Tok} : Rest rest → Closing depth closing →
      Closing (depth + 1) (.closeParen :: (rest ++ closing))

/-- What completes a sentence inside `depth` parentheses from its start on. -/
def Wants (depth : Nat) (ts : List Tok) : Prop :=
  ∃ sentence closing, Sentence sentence ∧ Closing depth closing ∧ ts = sentence ++ closing

/-- What completes a sentence inside `depth` parentheses from behind an operand on. -/
def Follows (depth : Nat) (ts : List Tok) : Prop :=
  ∃ rest closing, Rest rest ∧ Closing depth closing ∧ ts = rest ++ closing

theorem follows_nil_iff {depth : Nat} : Follows depth [] ↔ depth = 0 := by
  constructor
  · rintro ⟨rest, closing, -, hclosing, h⟩
    obtain ⟨-, rfl⟩ := List.nil_eq_append_iff.1 h
    cases hclosing
    rfl
  · rintro rfl
    exact ⟨[], [], .nil, .zero, rfl⟩

theorem not_wants_nil {depth : Nat} : ¬ Wants depth [] := by
  rintro ⟨sentence, closing, hsentence, -, h⟩
  exact hsentence.ne_nil (List.nil_eq_append_iff.1 h).1

theorem wants_zero_iff {ts : List Tok} : Wants 0 ts ↔ Sentence ts := by
  constructor
  · rintro ⟨sentence, closing, hsentence, hclosing, rfl⟩
    cases hclosing
    rwa [List.append_nil]
  · intro h
    exact ⟨ts, [], h, .zero, (List.append_nil ts).symm⟩

/-- Inside a parenthesis, a sentence is followed by the closing one and what that leaves. -/
theorem wants_succ_iff {depth : Nat} {ts : List Tok} :
    Wants (depth + 1) ts ↔
      ∃ inner more, Sentence inner ∧ Follows depth more ∧ ts = inner ++ .closeParen :: more := by
  constructor
  · rintro ⟨inner, closing, hinner, hclosing, rfl⟩
    cases hclosing with
    | close hrest hclosing => exact ⟨inner, _, hinner, ⟨_, _, hrest, hclosing, rfl⟩, rfl⟩
  · rintro ⟨inner, more, hinner, ⟨rest, closing, hrest, hclosing, rfl⟩, rfl⟩
    exact ⟨inner, _, hinner, .close hrest hclosing, rfl⟩

theorem wants_cons_iff {depth : Nat} {t : Tok} {ts : List Tok} :
    Wants depth (t :: ts) ↔
      (t.isSign ∧ Wants depth ts) ∨ (t.isAtom ∧ Follows depth ts) ∨
        (t = .openParen ∧ Wants (depth + 1) ts) := by
  constructor
  · rintro ⟨sentence, closing, hsentence, hclosing, h⟩
    cases sentence with
    | nil => exact absurd rfl hsentence.ne_nil
    | cons s sentence =>
      obtain ⟨rfl, rfl⟩ := List.cons.inj h
      rcases sentence_cons_iff.1 hsentence with
        ⟨hs, hrest⟩ | ⟨ha, hrest⟩ | ⟨rfl, inner, rest, hinner, hrest, rfl⟩
      · exact .inl ⟨hs, sentence, closing, hrest, hclosing, rfl⟩
      · exact .inr (.inl ⟨ha, sentence, closing, hrest, hclosing, rfl⟩)
      · refine .inr (.inr ⟨rfl, wants_succ_iff.2 ⟨inner, rest ++ closing, hinner, ?_, by simp⟩⟩)
        exact ⟨rest, closing, hrest, hclosing, rfl⟩
  · rintro (⟨hs, sentence, closing, hsentence, hclosing, rfl⟩ |
      ⟨ha, rest, closing, hrest, hclosing, rfl⟩ | ⟨rfl, h⟩)
    · exact ⟨t :: sentence, closing, sentence_cons_iff.2 (.inl ⟨hs, hsentence⟩), hclosing, rfl⟩
    · exact ⟨t :: rest, closing, sentence_cons_iff.2 (.inr (.inl ⟨ha, hrest⟩)), hclosing, rfl⟩
    · obtain ⟨inner, more, hinner, ⟨rest, closing, hrest, hclosing, rfl⟩, rfl⟩ := wants_succ_iff.1 h
      refine ⟨.openParen :: (inner ++ .closeParen :: rest), closing, ?_, hclosing, by simp⟩
      exact sentence_cons_iff.2 (.inr (.inr ⟨rfl, inner, rest, hinner, hrest, rfl⟩))

theorem follows_cons_iff {depth : Nat} {t : Tok} {ts : List Tok} :
    Follows depth (t :: ts) ↔
      (t.binary?.isSome ∧ Wants depth ts) ∨ (t.startsOperand ∧ Wants depth (t :: ts)) ∨
        (t = .closeParen ∧ ∃ outer, depth = outer + 1 ∧ Follows outer ts) := by
  constructor
  · rintro ⟨rest, closing, hrest, hclosing, h⟩
    cases rest with
    | nil =>
      cases hclosing with
      | zero => cases h
      | close hrest hclosing =>
        obtain ⟨rfl, rfl⟩ := List.cons.inj h
        exact .inr (.inr ⟨rfl, _, rfl, _, _, hrest, hclosing, rfl⟩)
    | cons s rest =>
      obtain ⟨rfl, rfl⟩ := List.cons.inj h
      rcases rest_cons_iff.1 hrest with ⟨hb, hsentence⟩ | ⟨hs, hsentence⟩
      · exact .inl ⟨hb, rest, closing, hsentence, hclosing, rfl⟩
      · exact .inr (.inl ⟨hs, t :: rest, closing, hsentence, hclosing, rfl⟩)
  · rintro (⟨hb, sentence, closing, hsentence, hclosing, rfl⟩ |
      ⟨hs, sentence, closing, hsentence, hclosing, h⟩ |
      ⟨rfl, outer, rfl, rest, closing, hrest, hclosing, rfl⟩)
    · exact ⟨t :: sentence, closing, rest_cons_iff.2 (.inl ⟨hb, hsentence⟩), hclosing, rfl⟩
    · cases sentence with
      | nil => exact absurd rfl hsentence.ne_nil
      | cons s sentence =>
        obtain ⟨rfl, rfl⟩ := List.cons.inj h
        exact ⟨t :: sentence, closing, rest_cons_iff.2 (.inr ⟨hs, hsentence⟩), hclosing, rfl⟩
    · exact ⟨[], _, .nil, .close hrest hclosing, rfl⟩

/-! ## The machine -/

/-- The number of parentheses that are open. -/
def Stack.depth : Stack → Nat
  | [] => 0
  | .paren :: outer => Stack.depth outer + 1
  | .negation _ :: outer => Stack.depth outer
  | .complement _ :: outer => Stack.depth outer
  | .binary _ _ _ _ :: outer => Stack.depth outer

namespace Machine

/-- The words with which the machine ends in an expression. -/
def Completes : Machine → List Tok → Prop
  | .wanting stack, ts => Wants (Stack.depth stack) ts
  | .having stack _, ts => Follows (Stack.depth stack) ts

/-- Some words complete every state: an operand if one is due, then the parentheses. -/
theorem exists_completes (m : Machine) : ∃ ts, m.Completes ts := by
  have hclosing (depth : Nat) : ∃ ts, Closing depth ts := by
    induction depth with
    | zero => exact ⟨[], .zero⟩
    | succ depth ih =>
      obtain ⟨ts, h⟩ := ih
      exact ⟨_, .close .nil h⟩
  cases m with
  | wanting stack =>
    obtain ⟨ts, h⟩ := hclosing (Stack.depth stack)
    exact ⟨_, _, ts, .of_operand (.atom (t := .integer 0) rfl) .nil, h, rfl⟩
  | having stack operand =>
    obtain ⟨ts, h⟩ := hclosing (Stack.depth stack)
    exact ⟨_, [], ts, .nil, h, rfl⟩

/-- What one token does to the words that complete a state: it takes off the first of them, or no
completion starts with it and it is reported at its place. -/
def Consumes (complete : List Tok → Prop) (t : Token) : Except ExprFailure Machine → Prop
  | .ok m => ∀ ts, complete (t.tok :: ts) ↔ m.Completes ts
  | .error failure =>
    (∃ error, failure = .misplaced error t.pos) ∧ ∀ ts, ¬ complete (t.tok :: ts)

theorem consumes_stepWanting (stack : Stack) (t : Token) :
    Consumes (Wants (Stack.depth stack)) t (stepWanting stack t) := by
  obtain ⟨tok, pos⟩ := t
  cases tok <;>
    simp [stepWanting, Consumes, Completes, wants_cons_iff, Tok.isSign, Tok.isAtom, Stack.depth]

/-- Behind an operand, a word that is no operator, no operand and no closing parenthesis
completes nothing. -/
theorem not_follows_cons {depth : Nat} {t : Tok} (hbinary : t.binary? = none)
    (hoperand : t.startsOperand = false) (hclose : t = .closeParen → depth = 0) (ts : List Tok) :
    ¬ Follows depth (t :: ts) := by
  rw [follows_cons_iff]
  rintro (⟨hb, -⟩ | ⟨hs, -⟩ | ⟨rfl, outer, rfl, -⟩)
  · simp [hbinary] at hb
  · simp [hoperand] at hs
  · simp at hclose

theorem extension?_eq_some {limit priority : Nat} {op : Op} {t : Tok}
    (h : extension? limit t = some (op, priority)) : t.binary?.isSome ∨ t.startsOperand := by
  unfold extension? at h
  split at h
  · next hb => simp [hb]
  · split at h
    · next hs =>
      rw [Bool.and_eq_true] at hs
      exact .inr hs.1
    · cases h

/-- All operators have a positive priority, so that outside all operators each of them extends
the operand. -/
theorem extension?_zero_eq_none {t : Tok} (h : extension? 0 t = none) :
    t.binary? = none ∧ t.startsOperand = false := by
  cases t <;> first | exact ⟨rfl, rfl⟩ | cases h

theorem follows_operand_iff {depth : Nat} {t : Tok} (h : t.startsOperand) {ts : List Tok} :
    Follows depth (t :: ts) ↔ Wants depth (t :: ts) := by
  rw [follows_cons_iff, Tok.binary?_of_startsOperand h]
  constructor
  · rintro (⟨hb, -⟩ | ⟨-, hw⟩ | ⟨rfl, -⟩)
    · cases hb
    · exact hw
    · cases h
  · exact fun hw => .inr (.inl ⟨h, hw⟩)

theorem follows_binary_iff {depth : Nat} {t : Tok} (h : t.binary?.isSome) {ts : List Tok} :
    Follows depth (t :: ts) ↔ Wants depth ts := by
  rw [follows_cons_iff]
  constructor
  · rintro (⟨-, hw⟩ | ⟨hs, -⟩ | ⟨rfl, -⟩)
    · exact hw
    · rw [Tok.binary?_of_startsOperand hs] at h
      cases h
    · cases h
  · exact fun hw => .inl ⟨h, hw⟩

theorem follows_close_iff {depth : Nat} {ts : List Tok} :
    Follows (depth + 1) (.closeParen :: ts) ↔ Follows depth ts := by
  rw [follows_cons_iff]
  constructor
  · rintro (⟨hb, -⟩ | ⟨hs, -⟩ | ⟨-, n, hn, h⟩)
    · cases hb
    · cases hs
    · obtain rfl : depth = n := Nat.succ.inj hn
      exact h
  · intro h
    exact .inr (.inr ⟨rfl, depth, rfl, h⟩)

theorem consumes_stepHaving (stack : Stack) (operand : Expr) (t : Token) :
    Consumes (Follows (Stack.depth stack)) t (stepHaving stack operand t) := by
  fun_induction stepHaving stack operand t with
  | case1 stack operand t op priority hext waiting hs =>
    -- The token starts the right operand of a product, so it is read once more, as wanted.
    have hw := consumes_stepWanting waiting t
    revert hw
    cases stepWanting waiting t with
    | ok m => exact fun hw ts => (follows_operand_iff hs).trans (hw ts)
    | error failure => exact fun hw => ⟨hw.1, fun ts hf => hw.2 ts ((follows_operand_iff hs).1 hf)⟩
  | case2 stack operand t op priority hext waiting hs =>
    exact fun ts => follows_binary_iff ((extension?_eq_some hext).resolve_right hs)
  -- Outside all frames and inside a parenthesis the limit is zero, so a token that extends nothing
  -- is neither an operator nor the start of an operand.
  | case3 operand t hext =>
    obtain ⟨hbinary, hoperand⟩ := extension?_zero_eq_none hext
    exact ⟨⟨_, rfl⟩, not_follows_cons hbinary hoperand fun _ => rfl⟩
  | case4 operand t outer hclose hext =>
    intro ts
    rw [hclose]
    exact follows_close_iff
  | case5 operand t outer hclose hext =>
    obtain ⟨hbinary, hoperand⟩ := extension?_zero_eq_none hext
    exact ⟨⟨_, rfl⟩, not_follows_cons hbinary hoperand fun h => absurd h hclose⟩
  -- Completing a frame other than a parenthesis leaves the depth as it is.
  | case6 operand t pos outer hext ih => exact ih
  | case7 operand t pos outer hext ih => exact ih
  | case8 operand t op priority pos left outer hext ih => exact ih

theorem consumes_step (m : Machine) (t : Token) : Consumes m.Completes t (m.step t) := by
  cases m with
  | wanting stack => exact consumes_stepWanting stack t
  | having stack operand => exact consumes_stepHaving stack operand t

/-- A token that the machine takes in is the first word of what completes it. -/
theorem completes_step {m next : Machine} {t : Token} (h : m.step t = .ok next) (ts : List Tok) :
    m.Completes (t.tok :: ts) ↔ next.Completes ts := by
  have hconsumes := consumes_step m t
  rw [h] at hconsumes
  exact hconsumes ts

/-- A token that the machine refuses is reported at its place, and no completion starts with
it. -/
theorem not_completes_of_step {m : Machine} {t : Token} {failure : ExprFailure}
    (h : m.step t = .error failure) :
    (∃ error, failure = .misplaced error t.pos) ∧ ∀ ts, ¬ m.Completes (t.tok :: ts) := by
  have hconsumes := consumes_step m t
  rw [h] at hconsumes
  exact hconsumes

/-- All frames can be completed exactly if no parenthesis is open. -/
theorem close_spec (stack : Stack) (operand : Expr) :
    match close stack operand with
    | .ok _ => Stack.depth stack = 0
    | .error failure => failure = .incomplete ∧ Stack.depth stack ≠ 0 := by
  fun_induction close stack operand with
  | case1 operand => rfl
  | case2 outer operand => exact ⟨rfl, Nat.succ_ne_zero _⟩
  | case3 pos outer operand ih => exact ih
  | case4 pos outer operand ih => exact ih
  | case5 op priority pos left outer operand ih => exact ih

/-- The end of the source is right exactly where nothing is left to complete. -/
theorem finish_spec (m : Machine) :
    match m.finish with
    | .ok _ => m.Completes []
    | .error failure => failure = .incomplete ∧ ¬ m.Completes [] := by
  cases m with
  | wanting stack => exact ⟨rfl, not_wants_nil⟩
  | having stack operand =>
    have h := close_spec stack operand
    simp only [finish, Completes, follows_nil_iff]
    exact h

/-! ## Runs -/

/-- Whether words can be completed to what completes the machine. -/
def Viable (m : Machine) (ts : List Tok) : Prop :=
  ∃ more, m.Completes (ts ++ more)

theorem viable_cons_iff {m next : Machine} {t : Token} (h : m.step t = .ok next) (ts : List Tok) :
    m.Viable (t.tok :: ts) ↔ next.Viable ts :=
  exists_congr fun more => completes_step h (ts ++ more)

/-- What the result of a run says about the items that were read. -/
def Verdict (m : Machine) (items : List Item) : Except ExprFailure Expr → Prop
  | .ok _ => ∃ ts : List Token, items = ts.map .token ∧ m.Completes (ts.map Token.tok)
  | .error .incomplete =>
    ∃ ts : List Token, items = ts.map .token ∧ ¬ m.Completes (ts.map Token.tok) ∧
      m.Viable (ts.map Token.tok)
  | .error (.scan fault) =>
    ∃ (ts : List Token) (more : List Item), items = ts.map .token ++ .fault fault :: more ∧
      m.Viable (ts.map Token.tok)
  | .error (.misplaced _ pos) =>
    ∃ (ts : List Token) (t : Token) (more : List Item),
      items = ts.map .token ++ .token t :: more ∧ t.pos = pos ∧ m.Viable (ts.map Token.tok) ∧
        ¬ m.Viable (ts.map Token.tok ++ [t.tok])

/-- A verdict on the state behind a token is one on the state in front of it. -/
theorem Verdict.of_step {m next : Machine} {t : Token} {items : List Item}
    {result : Except ExprFailure Expr} (h : m.step t = .ok next) (hv : next.Verdict items result) :
    m.Verdict (.token t :: items) result := by
  match result, hv with
  | .ok _, ⟨ts, hitems, hc⟩ =>
    exact ⟨t :: ts, by rw [hitems]; rfl, (completes_step h _).2 hc⟩
  | .error .incomplete, ⟨ts, hitems, hc, hviable⟩ =>
    exact ⟨t :: ts, by rw [hitems]; rfl, fun hm => hc ((completes_step h _).1 hm),
      (viable_cons_iff h _).2 hviable⟩
  | .error (.scan _), ⟨ts, more, hitems, hviable⟩ =>
    exact ⟨t :: ts, more, by rw [hitems]; rfl, (viable_cons_iff h _).2 hviable⟩
  | .error (.misplaced _ _), ⟨ts, bad, more, hitems, hpos, hviable, hstop⟩ =>
    exact ⟨t :: ts, bad, more, by rw [hitems]; rfl, hpos, (viable_cons_iff h _).2 hviable,
      fun hm => hstop ((viable_cons_iff h _).1 hm)⟩

/-- Every run gives a result that its items account for. -/
theorem verdict_run (m : Machine) (items : List Item) : m.Verdict items (m.run items) := by
  fun_induction run m items with
  | case1 m =>
    have hfinish := finish_spec m
    revert hfinish
    cases m.finish with
    | ok e => exact fun hc => ⟨[], rfl, hc⟩
    | error failure =>
      rintro ⟨rfl, hc⟩
      exact ⟨[], rfl, hc, m.exists_completes⟩
  -- Whatever state a fault or a refused token is met in, some words would have completed it.
  | case2 m fault items => exact ⟨[], items, rfl, m.exists_completes⟩
  | case3 m t items next hstep ih => exact ih.of_step hstep
  | case4 m t items failure hstep =>
    obtain ⟨⟨error, rfl⟩, hstop⟩ := not_completes_of_step hstep
    exact ⟨[], t, items, rfl, rfl, m.exists_completes, fun ⟨more, hm⟩ => hstop more hm⟩

/-- Items that are all tokens, one of which no completion can pass, complete nothing. -/
theorem not_completes_of_stop {m : Machine} {ts before : List Token} {t : Token} {more : List Item}
    (hitems : ts.map Item.token = before.map .token ++ .token t :: more)
    (hstop : ¬ m.Viable (before.map Token.tok ++ [t.tok])) : ¬ m.Viable (ts.map Token.tok) := by
  -- The tokens up to the one that stops are the same on both sides.
  obtain ⟨start, rest, rfl, hstart, hrest⟩ := List.map_eq_append_iff.1 hitems
  obtain ⟨t', rest, rfl, ht, -⟩ := List.map_eq_cons_iff.1 hrest
  cases ht
  rw [List.map_inj_right fun _ _ h => by cases h; rfl] at hstart
  subst hstart
  rintro ⟨more, h⟩
  refine hstop ⟨rest.map Token.tok ++ more, ?_⟩
  simpa using h

theorem fault_notMem_tokens {ts before : List Token} {fault : ScanFault} {more : List Item} :
    ts.map Item.token ≠ before.map .token ++ .fault fault :: more := by
  intro h
  have hmem : Item.fault fault ∈ ts.map Item.token := by simp [h]
  simp at hmem

/-- On tokens that can go on to complete the machine, a run ends with the source: it gives an
expression if they do complete it, and is incomplete otherwise. -/
theorem run_tokens {m : Machine} {ts : List Token} (hviable : m.Viable (ts.map Token.tok)) :
    ((∃ e, m.run (ts.map .token) = .ok e) ∧ m.Completes (ts.map Token.tok)) ∨
      (m.run (ts.map .token) = .error .incomplete ∧ ¬ m.Completes (ts.map Token.tok)) := by
  have hinj {us : List Token} (h : ts.map Item.token = us.map .token) : ts = us :=
    (List.map_inj_right fun _ _ heq => Item.token.inj heq).1 h
  have hv := verdict_run m (ts.map .token)
  generalize m.run (ts.map .token) = result at hv ⊢
  cases result with
  | ok e =>
    obtain ⟨us, hts, hc⟩ := hv
    obtain rfl := hinj hts
    exact .inl ⟨⟨e, rfl⟩, hc⟩
  | error failure =>
    cases failure with
    | incomplete =>
      obtain ⟨us, hts, hc, -⟩ := hv
      obtain rfl := hinj hts
      exact .inr ⟨rfl, hc⟩
    | scan fault =>
      obtain ⟨us, more, hts, -⟩ := hv
      exact absurd hts fault_notMem_tokens
    | misplaced error pos =>
      obtain ⟨us, t, more, hts, -, -, hstop⟩ := hv
      exact absurd hviable (not_completes_of_stop hts hstop)

theorem run_eq_ok_iff (m : Machine) (items : List Item) :
    (∃ e, m.run items = .ok e) ↔
      ∃ ts : List Token, items = ts.map .token ∧ m.Completes (ts.map Token.tok) := by
  constructor
  · rintro ⟨e, h⟩
    have hv := verdict_run m items
    rwa [h] at hv
  · rintro ⟨ts, rfl, hc⟩
    have hviable : m.Viable (ts.map Token.tok) := ⟨[], by rwa [List.append_nil]⟩
    rcases run_tokens hviable with ⟨hok, -⟩ | ⟨-, hno⟩
    · exact hok
    · exact absurd hc hno

theorem run_eq_incomplete_iff (m : Machine) (items : List Item) :
    m.run items = .error .incomplete ↔
      ∃ ts : List Token, items = ts.map .token ∧ ¬ m.Completes (ts.map Token.tok) ∧
        m.Viable (ts.map Token.tok) := by
  constructor
  · intro h
    have hv := verdict_run m items
    rwa [h] at hv
  · rintro ⟨ts, rfl, hno, hviable⟩
    rcases run_tokens hviable with ⟨-, hc⟩ | ⟨hincomplete, -⟩
    · exact absurd hc hno
    · exact hincomplete

end Machine

/-- Whether words can go on to be a sentence. -/
def Sentence.Begins (ts : List Tok) : Prop :=
  ∃ more, Sentence (ts ++ more)

theorem start_completes_iff {ts : List Tok} : Machine.start.Completes ts ↔ Sentence ts :=
  wants_zero_iff

theorem start_viable_iff {ts : List Tok} : Machine.start.Viable ts ↔ Sentence.Begins ts :=
  exists_congr fun _ => wants_zero_iff

theorem parseExpr_eq_error (filename : Text) {source : Text} {failure : ExprFailure}
    (h : Machine.start.run source.items = .error failure) :
    parseExpr filename source = .error (.ofExpr filename failure) := by
  change (Machine.start.run source.items).mapError _ = _
  rw [h]
  rfl

theorem parseExpr_eq_ok {filename source : Text} {e : Expr} :
    parseExpr filename source = .ok e ↔ Machine.start.run source.items = .ok e := by
  cases h : Machine.start.run source.items with
  | ok e' =>
    have hparse : parseExpr filename source = .ok e' := by
      change (Machine.start.run source.items).mapError _ = _
      rw [h]
      rfl
    rw [hparse, Except.ok.injEq, Except.ok.injEq]
  | error failure =>
    rw [parseExpr_eq_error filename h]
    exact ⟨nofun, nofun⟩

theorem parseExpr_eq_incomplete {filename source : Text} :
    parseExpr filename source = .error .incomplete ↔
      Machine.start.run source.items = .error .incomplete := by
  cases h : Machine.start.run source.items with
  | ok e =>
    rw [parseExpr_eq_ok.2 h]
    exact ⟨nofun, nofun⟩
  | error failure =>
    rw [parseExpr_eq_error filename h]
    cases failure with
    | incomplete => exact ⟨fun _ => rfl, fun _ => rfl⟩
    | scan f => exact ⟨nofun, nofun⟩
    | misplaced error pos => exact ⟨nofun, nofun⟩

/-- A source is read exactly if its items are all tokens and form a sentence. It is incomplete
exactly if they are all tokens and form no sentence, but a longer list that starts with them does.
Otherwise there is a first item at which what was read can no longer become a sentence: a fault,
which is reported as it is, or a token, which is reported as misplaced at its position. -/
theorem parse_trichotomy (filename source : Text) :
    ((∃ e, parseExpr filename source = .ok e) ↔
        ∃ ts : List Token, source.items = ts.map .token ∧ Sentence (ts.map Token.tok)) ∧
      (parseExpr filename source = .error .incomplete ↔
        ∃ ts : List Token, source.items = ts.map .token ∧ ¬ Sentence (ts.map Token.tok) ∧
          ∃ more, more ≠ [] ∧ Sentence (ts.map Token.tok ++ more)) ∧
      ((∀ e, parseExpr filename source ≠ .ok e) → parseExpr filename source ≠ .error .incomplete →
        ∃ (ts : List Token) (item : Item) (more : List Item),
          source.items = ts.map .token ++ item :: more ∧ Sentence.Begins (ts.map Token.tok) ∧
            match item with
            | .fault f => parseExpr filename source = .error (.reported (.ofScan filename f))
            | .token t =>
              ¬ Sentence.Begins (ts.map Token.tok ++ [t.tok]) ∧
                ∃ error, parseExpr filename source =
                  .error (.reported ⟨.parse, filename, t.pos, some (.exprText error)⟩)) := by
  have hok := Machine.run_eq_ok_iff .start source.items
  have hincomplete := Machine.run_eq_incomplete_iff .start source.items
  have hverdict := Machine.verdict_run .start source.items
  simp only [start_completes_iff, start_viable_iff] at hok hincomplete
  refine ⟨?_, ?_, ?_⟩
  · rw [← hok]
    exact exists_congr fun e => parseExpr_eq_ok
  · -- No sentence is its own beginning here, so what completes it is not empty.
    have hproper (ts : List Tok) (h : ¬ Sentence ts) :
        Sentence.Begins ts ↔ ∃ more, more ≠ [] ∧ Sentence (ts ++ more) := by
      refine exists_congr fun more => ⟨fun hs => ⟨?_, hs⟩, fun hs => hs.2⟩
      rintro rfl
      exact h (by rwa [List.append_nil] at hs)
    rw [parseExpr_eq_incomplete, hincomplete]
    refine exists_congr fun ts => and_congr_right fun _ => and_congr_right fun h => ?_
    exact hproper _ h
  · intro hne hnot
    cases hrun : Machine.start.run source.items with
    | ok e => exact absurd (parseExpr_eq_ok.2 hrun) (hne e)
    | error failure =>
      have hparse := parseExpr_eq_error filename hrun
      rw [hrun] at hverdict
      cases failure with
      | incomplete => exact absurd hparse hnot
      | scan f =>
        obtain ⟨ts, more, hitems, hviable⟩ := hverdict
        exact ⟨ts, .fault f, more, hitems, start_viable_iff.1 hviable, hparse⟩
      | misplaced error pos =>
        obtain ⟨ts, t, more, hitems, rfl, hviable, hstop⟩ := hverdict
        exact ⟨ts, .token t, more, hitems, start_viable_iff.1 hviable,
          fun h => hstop (start_viable_iff.2 h), error, hparse⟩

end ExprTyping
