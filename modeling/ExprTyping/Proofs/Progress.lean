import ExprTyping.Proofs.AnnotationGrammar
import ExprTyping.Proofs.DescentMachine
import ExprTyping.Proofs.Encoding
import ExprTyping.Proofs.LookaheadStream

/-!
# Reading makes progress

Every item that is read takes bytes off the source, so reading comes to its end after no more items
than there are bytes. Every expression and every annotation takes tokens off the items, and no call
for an expression is made without a token that pays for it, so calls are nested no deeper than there
are tokens. An annotation has a fixed number of words, and its reader looks at no more.

- `Lookahead.next_consumes` and `Lookahead.exists_finished`: the bytes that reading takes off;
- `TypeText.staysWithin_read`: the words that the reader of annotations looks at;
- `Machine.frames_foldlM_le`: the frames that the machine holds;
- `reading_progresses`: all of this for every source.
-/

namespace ExprTyping

/-! ## Bytes -/

/-- Where nothing is left to read, the end of the source has been reached. -/
theorem Cursor.IsIn.scan_none {source : Text} {c behind : Cursor} (h : c.IsIn source)
    (hscan : c.scan = (none, behind)) : behind.IsIn source := by
  rcases hskip : c.skipBlanks with ⟨_ | ⟨g, t⟩, p⟩
  · rw [scan_of_skipBlanks_nil hskip] at hscan
    cases hscan
    exact hskip ▸ IsIn.skip h false
  · rw [scan_of_skipBlanks_cons hskip] at hscan
    cases hscan

namespace Lookahead

variable {source : Text} {l : Lookahead}

theorem isIn_next (h : l.cursor.IsIn source) : l.next.2.cursor.IsIn source := by
  obtain ⟨c, _ | ⟨t, ts⟩⟩ := l
  · rcases hscan : c.scan with ⟨_ | i, d⟩
    · rw [next_of_none hscan]
      exact Cursor.IsIn.scan_none h hscan
    · rw [next_of_scan hscan]
      exact (Cursor.IsIn.scan h hscan).2
  · exact h

theorem isIn_serve (h : l.cursor.IsIn source) (r : Request) :
    (l.serve r).2.cursor.IsIn source := by
  have hnext := isIn_next h
  cases r with
  | read => exact hnext
  | look =>
    show l.peek.2.cursor.IsIn source
    rcases hread : l.next with ⟨(t | f) | p, behind⟩
    · rw [hread] at hnext
      rw [peek_of_token hread]
      exact hnext
    · rw [hread] at hnext
      rw [peek_of_fault hread]
      exact hnext
    · rw [hread] at hnext
      rw [peek_of_finished hread]
      exact hnext

/-- However reading and looking take turns, they go on in the source. -/
theorem isIn_serveAll (h : l.cursor.IsIn source) (requests : List Request) :
    (l.serveAll requests).2.cursor.IsIn source := by
  induction requests generalizing l with
  | nil => exact h
  | cons r rs ih => exact ih (isIn_serve h r)

/-- Where nothing is kept, reading takes off at least one byte or meets the end. -/
theorem next_consumes (h : l.cursor.IsIn source) (hempty : l.peeked = []) :
    (∃ p, l.next.1 = .finished p) ∨
      ∃ bytes, bytes ≠ [] ∧
        Text.toBytes l.cursor.rest = bytes ++ Text.toBytes l.next.2.cursor.rest := by
  rcases hnext : l.next with ⟨i | p, behind⟩
  · have hlt := size_next_lt hnext
    have hkept := length_peeked_next l
    have hbehind := isIn_next h
    rw [hnext] at hkept hbehind
    simp only [size, hempty, List.length_nil] at hlt hkept
    -- Both are ends of the source, and the one behind the item is shorter.
    obtain ⟨front, hfront, -⟩ := h
    obtain ⟨front', hfront', -⟩ := hbehind
    obtain ⟨run, hrun⟩ : behind.cursor.rest <:+ l.cursor.rest :=
      List.suffix_of_suffix_length_le ⟨front', hfront'.symm⟩ ⟨front, hfront.symm⟩ (by omega)
    refine .inr ⟨Text.toBytes run, ?_, by rw [← hrun, Text.toBytes_append]⟩
    have hglyphs := congrArg List.length hrun
    have hbytes := Text.length_le_byteLength run
    rw [List.length_append] at hglyphs
    exact List.ne_nil_of_length_pos (Nat.lt_of_lt_of_le (by omega) hbytes)
  · exact .inl ⟨p, rfl⟩

/-- Reading on meets the end, after at most as many items as there are glyphs and kept tokens. -/
theorem exists_finished (l : Lookahead) : ∃ k ≤ l.size, ∃ p, l.stream.get k = .finished p := by
  rcases hnext : l.next with ⟨i | p, behind⟩
  · -- What is behind the item is smaller, and its stream is the tail of this one.
    have hlt := size_next_lt hnext
    obtain ⟨k, hk, p, hp⟩ := exists_finished behind
    refine ⟨k + 1, by omega, p, ?_⟩
    show l.stream.tail.get k = _
    rw [tail_stream, hnext]
    exact hp
  · refine ⟨0, Nat.zero_le _, p, ?_⟩
    show l.next.1 = _
    rw [hnext]
termination_by l.size

end Lookahead

/-! ## Annotations -/

namespace TypeText

variable {α γ : Type} {p : Parse α} {f : α → Parse γ} {m n : Nat}

/-- Whether a reader takes off at most `n` items and looks at no others: where there are so many,
what follows them makes no difference and is left as it is. -/
structure StaysWithin (n : Nat) (p : Parse α) : Prop where
  takes : ∀ items a rest, p items = .ok (a, rest) → items.length ≤ rest.length + n
  ignores : ∀ items more, n ≤ items.length →
    p (items ++ more) = (p items).map fun r => (r.1, r.2 ++ more)

theorem staysWithin_pure (a : α) : StaysWithin 0 (pure a) where
  takes := by
    rintro items _ rest ⟨⟩
    exact Nat.le_refl _
  ignores _ _ _ := rfl

theorem staysWithin_refuse (e : TypeTextError) (pos : Pos) :
    StaysWithin 0 (refuse e pos : Parse α) where
  takes := by rintro _ _ _ ⟨⟩
  ignores _ _ _ := rfl

theorem staysWithin_token : StaysWithin 1 token where
  takes := by
    intro items t rest h
    match items with
    | [] => cases h
    | .fault f :: _ => cases h
    | .token t :: rest =>
      cases h
      exact Nat.le_refl _
  ignores := by
    intro items more h
    match items with
    | [] => cases h
    | .fault f :: _ => rfl
    | .token t :: rest => rfl

theorem StaysWithin.mono (h : StaysWithin m p) (hmn : m ≤ n) : StaysWithin n p where
  takes items a rest hp := (h.takes items a rest hp).trans (by omega)
  ignores items more hn := h.ignores items more (hmn.trans hn)

/-- One reader behind another. -/
theorem StaysWithin.bind (hp : StaysWithin m p) (hf : ∀ a, StaysWithin n (f a)) :
    StaysWithin (m + n) (p >>= f) where
  takes := by
    intro items b rest h
    rw [bind_eq] at h
    split at h
    · next a between ha =>
      have hfirst := hp.takes items a between ha
      have hsecond := (hf a).takes between b rest h
      omega
    · cases h
  ignores := by
    intro items more h
    rw [bind_eq, bind_eq, hp.ignores items more (by omega)]
    cases ha : p items with
    | error e => rfl
    | ok r =>
      -- The first reader has left enough for the second.
      have hfirst := hp.takes items r.1 r.2 ha
      exact (hf r.1).ignores r.2 more (by omega)

theorem staysWithin_expect (wanted : Tok) : StaysWithin 1 (expect wanted) := by
  refine staysWithin_token.bind (n := 0) fun t => ?_
  split
  · exact staysWithin_pure ()
  · exact staysWithin_refuse _ _

theorem staysWithin_integer : StaysWithin 1 integer := by
  refine staysWithin_token.bind (n := 0) fun t => ?_
  split
  · exact staysWithin_pure _
  · exact staysWithin_refuse _ _

theorem staysWithin_closing : StaysWithin 1 closing := by
  refine staysWithin_token.bind (n := 0) fun t => ?_
  split
  · exact staysWithin_pure _
  · exact staysWithin_pure _
  · exact staysWithin_refuse _ _

theorem staysWithin_boundOf (negative : Bool) (t : Token) :
    StaysWithin 0 (boundOf negative t) := by
  unfold boundOf
  split
  · exact staysWithin_pure _
  · exact staysWithin_refuse _ _

theorem staysWithin_bound : StaysWithin 2 bound := by
  refine staysWithin_token.bind (n := 1) fun t => ?_
  split
  · exact staysWithin_token.bind (staysWithin_boundOf true)
  · exact (staysWithin_boundOf false t).mono (Nat.zero_le 1)

theorem staysWithin_dimensions : StaysWithin 5 dimensions := by
  refine (staysWithin_expect _).bind (n := 4) fun _ => ?_
  refine staysWithin_integer.bind (n := 3) fun _ => ?_
  refine (staysWithin_expect _).bind (n := 2) fun _ => ?_
  refine staysWithin_integer.bind (n := 1) fun _ => ?_
  refine (staysWithin_expect _).bind (n := 0) fun _ => ?_
  split
  · exact staysWithin_pure _
  · exact staysWithin_refuse _ _

theorem staysWithin_interval (includesLow : Bool) (pos : Pos) :
    StaysWithin 6 (interval includesLow pos) := by
  refine staysWithin_bound.bind (n := 4) fun _ => ?_
  refine (staysWithin_expect _).bind (n := 3) fun _ => ?_
  refine staysWithin_bound.bind (n := 1) fun _ => ?_
  refine staysWithin_closing.bind (n := 0) fun _ => ?_
  split
  · exact staysWithin_pure _
  · exact staysWithin_refuse _ _

/-- The longest annotations are intervals with two signs. -/
theorem staysWithin_read : StaysWithin 7 read := by
  refine staysWithin_token.bind (n := 6) fun t => ?_
  split
  · split
    · exact staysWithin_dimensions.mono (by decide)
    · split
      · exact (staysWithin_pure _).mono (Nat.zero_le 6)
      · exact (staysWithin_refuse _ _).mono (Nat.zero_le 6)
  · exact staysWithin_interval true t.pos
  · exact staysWithin_interval false t.pos
  · exact (staysWithin_refuse _ _).mono (Nat.zero_le 6)

/-- An annotation that is read takes off one token at least and seven at most. -/
theorem read_takes {items rest : List Item} {ty : Ty Binary64} (h : read items = .ok (ty, rest)) :
    ∃ ts : List Token, ts ≠ [] ∧ ts.length ≤ 7 ∧ items = ts.map .token ++ rest := by
  have hread := obeys_read items
  rw [h] at hread
  cases hread with
  | ok ts hitems hwords =>
    obtain ⟨a, hwords, -⟩ := hwords
    have hle := staysWithin_read.takes items ty rest h
    rw [hitems, List.length_append, List.length_map] at hle
    refine ⟨ts, ?_, by omega, hitems⟩
    rintro rfl
    cases hwords

end TypeText

/-! ## The stack of the machine -/

namespace Machine

/-- How many frames a state holds. -/
def frames : Machine → Nat
  | .wanting stack => stack.length
  | .having stack _ => stack.length

theorem frames_stepWanting_le {stack : Stack} {t : Token} {m : Machine}
    (h : stepWanting stack t = .ok m) : m.frames ≤ stack.length + 1 := by
  unfold stepWanting at h
  split at h <;> cases h <;> simp [frames]

/-- A token puts up two frames at most: a product, and a parenthesis as its right operand. -/
theorem frames_stepHaving_le {stack : Stack} {operand : Expr} {t : Token} {m : Machine}
    (h : stepHaving stack operand t = .ok m) : m.frames ≤ stack.length + 2 := by
  fun_induction stepHaving stack operand t with
  | case1 stack operand t op priority hext waiting hs => exact frames_stepWanting_le h
  | case2 stack operand t op priority hext waiting hs =>
    cases h
    exact Nat.le_succ _
  | case3 operand t hext => cases h
  | case4 operand t outer hclose hext =>
    cases h
    exact Nat.le_add_right outer.length 3
  | case5 operand t outer hclose hext => cases h
  | case6 operand t pos outer hext ih => exact (ih h).trans (Nat.le_succ _)
  | case7 operand t pos outer hext ih => exact (ih h).trans (Nat.le_succ _)
  | case8 operand t op priority pos left outer hext ih => exact (ih h).trans (Nat.le_succ _)

theorem frames_step_le {m next : Machine} {t : Token} (h : m.step t = .ok next) :
    next.frames ≤ m.frames + 2 := by
  cases m with
  | wanting stack => exact (frames_stepWanting_le h).trans (Nat.le_succ _)
  | having stack operand => exact frames_stepHaving_le h

/-- The frames that the machine holds after some tokens. -/
theorem frames_foldlM_le {m final : Machine} {ts : List Token}
    (h : ts.foldlM step m = .ok final) : final.frames ≤ m.frames + 2 * ts.length := by
  induction ts generalizing m with
  | nil =>
    cases h
    exact Nat.le_refl _
  | cons t ts ih =>
    rw [List.foldlM_cons] at h
    cases hstep : m.step t with
    | error failure =>
      rw [hstep] at h
      cases h
    | ok next =>
      rw [hstep] at h
      have hnext := frames_step_le hstep
      have hrest : final.frames ≤ next.frames + 2 * ts.length := ih h
      rw [List.length_cons]
      omega

end Machine

/-! ## Sources -/

open Descent

/-- Reading makes progress, whatever the bytes of the source are.

However reading and looking have taken turns, what is left to scan is an end of the source; where no
token is kept, reading takes off at least one byte or meets the end; and the end is met after no
more readings than there are bytes left and tokens kept, so from the start on with reading number
`source.length + 1` at the latest.

A call for an expression and a call for an operand that succeed take off at least one token.
Whatever a call does, no call that it makes is the first thing it does, and each is made directly
behind a token that was taken off, or itself takes off a token before anything else. So calls are
nested no deeper than there are tokens, the outermost one apart. Every call does what the machine
does that wants an operand inside the same frames, and if as many calls may be nested as there are
tokens, the outermost one apart, the bound is never used up and reading has the result of the
machine. The machine in turn holds at most two frames for every token.

The reader of annotations makes no such calls. It takes off at least one token and at most seven,
and looks at no more. -/
theorem reading_progresses (source : List UInt8) :
    let text := Text.ofBytes source
    (∀ requests,
        let l := ((Lookahead.ofText text).serveAll requests).2
        (∃ front, source = front ++ Text.toBytes l.cursor.rest) ∧
          (l.peeked = [] → (∃ p, l.next.1 = .finished p) ∨
            ∃ bytes, bytes ≠ [] ∧
              Text.toBytes l.cursor.rest = bytes ++ Text.toBytes l.next.2.cursor.rest) ∧
          ∃ k ≤ Text.byteLength l.cursor.rest + l.peeked.length,
            ∃ p, l.stream.get k = .finished p) ∧
      (∃ k ≤ source.length, ∃ p, (Lookahead.ofText text).stream.get k = .finished p) ∧
      (∀ depth limit items e rest, (expression depth limit items).result = .read e rest →
        ∃ ts : List Token, ts ≠ [] ∧ items = ts.map .token ++ rest) ∧
      (∀ depth items e rest, (operand (expression depth) items).result = .read e rest →
        ∃ ts : List Token, ts ≠ [] ∧ items = ts.map .token ++ rest) ∧
      (∀ depth limit items inner more,
        (expression depth limit items).acts = .call limit inner more → inner.Guarded .nothing) ∧
      (∀ depth, (whole depth text.items).acts.nesting ≤ tokens text.items + 1) ∧
      (∀ depth stack items, (expression depth (Stack.limit stack) items).Agrees stack
        ((Machine.wanting stack).run items)) ∧
      (∀ depth, tokens text.items < depth →
        (whole depth text.items).result = .ofExcept (Expr.ofText text)) ∧
      (∀ ts m, List.foldlM Machine.step Machine.start ts = .ok m → m.frames ≤ 2 * ts.length) ∧
      (∀ items ty rest, TypeText.read items = .ok (ty, rest) →
        ∃ ts : List Token, ts ≠ [] ∧ ts.length ≤ 7 ∧ items = ts.map .token ++ rest) ∧
      ∀ items more, 7 ≤ items.length →
        TypeText.read (items ++ more) =
          (TypeText.read items).map fun r => (r.1, r.2 ++ more) := by
  intro text
  have hbytes : Text.toBytes text = source := Text.toBytes_ofBytes source
  have hfinished (l : Lookahead) : ∃ k ≤ Text.byteLength l.cursor.rest + l.peeked.length,
      ∃ p, l.stream.get k = .finished p := by
    -- No glyph is without bytes.
    obtain ⟨k, hk, hp⟩ := l.exists_finished
    exact ⟨k, hk.trans (Nat.add_le_add_right (Text.length_le_byteLength _) _), hp⟩
  refine ⟨fun requests => ?_, ?_, fun _ _ _ _ _ => expression_takes, fun _ _ _ _ => operand_takes,
    fun _ _ _ _ _ => guarded_of_call, fun depth => nesting_whole_le depth _,
    agrees_expression, fun _ => result_whole, fun _ _ h => ?_, fun _ _ _ => TypeText.read_takes,
    TypeText.staysWithin_read.ignores⟩
  · intro l
    have hin : l.cursor.IsIn text :=
      Lookahead.isIn_serveAll (l := .ofText text) (Cursor.isIn_ofText text) requests
    refine ⟨?_, Lookahead.next_consumes hin, hfinished l⟩
    obtain ⟨front, hfront, -⟩ := hin
    exact ⟨Text.toBytes front, by rw [← Text.toBytes_append, ← hfront, hbytes]⟩
  · obtain ⟨k, hk, hp⟩ := hfinished (.ofText text)
    have hlength : Text.byteLength text = source.length := congrArg List.length hbytes
    exact ⟨k, hk.trans_eq hlength, hp⟩
  · exact (Machine.frames_foldlM_le h).trans_eq (Nat.zero_add _)

end ExprTyping
