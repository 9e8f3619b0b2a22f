import ExprTyping.Proofs.IntervalResults
import ExprTyping.Proofs.IntervalSoundness
import ExprTyping.Proofs.Substitution

/-!
# Narrower declarations

With closed intervals, declarations can be narrowed without losing a type: whatever had a type keeps
one, and the new type lies inside the old one at every call.

If both operands of an operation are narrowed, the bounds of the new result are results of old
members, and soundness puts them inside the old result. The operation still succeeds because an
operand that is narrowed meets zero and infinity less often, and because the room for a difference
only grows.

- `Interval.Yields.exists_narrowed`: an operation on narrowed operands;
- `Derivation.exists_narrowed`: an expression with narrowed declarations;
- `infer_narrowed`: inference with narrowed declarations.
-/

namespace ExprTyping

namespace Interval

open Exact

variable {a b c a' b' : Interval Exact} {op : Op}

/-- An operation that succeeds still does on narrowed operands. -/
theorem Yields.exists_yields (h : Yields a b c op) (ha : a.IsClosed) (hb : b.IsClosed)
    (ha' : a'.IsClosed) (hb' : b'.IsClosed) (hsubA : a' ⊆ a) (hsubB : b' ⊆ b) :
    ∃ c', Yields a' b' c' op := by
  cases h with
  | add h => exact ⟨_, .add (add_eq_ok.2 ⟨ha'.valid.sum hb'.valid, rfl⟩)⟩
  | sub h =>
    obtain ⟨hc, rfl⟩ := sub_eq_ok.1 h
    rw [valid_difference_iff ha.valid hb.valid] at hc
    have hvalid : (a'.difference b').Valid := by
      rw [valid_difference_iff ha'.valid hb'.valid]
      have hlow := ((ha'.subset_iff ha).1 hsubA).1
      have hhigh := ((hb'.subset_iff hb).1 hsubB).2
      exact Exact.le_trans (Exact.le_trans hhigh hc) hlow
    exact ⟨_, .sub (sub_eq_ok.2 ⟨hvalid, rfl⟩)⟩
  | div h =>
    obtain ⟨hzero, hinf, -, -⟩ := div_eq_ok.1 h
    -- What the narrowed operands contain, the operands contain as well.
    refine ⟨_, .div (div_eq_ok.2 ⟨fun hz => hzero ?_, fun hi => hinf ?_,
      ha'.valid.quotient hb'.valid, rfl⟩)⟩
    · exact ⟨hsubA _ hz.1, hsubB _ hz.2⟩
    · exact ⟨hsubA _ hi.1, hsubB _ hi.2⟩

/-- An operation that succeeds on closed operands still does if they are narrowed, and its result is
narrowed as well. -/
theorem Yields.exists_narrowed (h : Yields a b c op) (ha : a.IsClosed) (hb : b.IsClosed)
    (ha' : a'.IsClosed) (hb' : b'.IsClosed) (hsubA : a' ⊆ a) (hsubB : b' ⊆ b) :
    ∃ c', Yields a' b' c' op ∧ c'.IsClosed ∧ c' ⊆ c := by
  obtain ⟨c', h'⟩ := h.exists_yields ha hb ha' hb' hsubA hsubB
  have hc := h.isClosed ha hb
  have hc' := h'.isClosed ha' hb'
  -- Results on members of the narrowed operands are results on members of the operands.
  have hmember {z : Exact} (hz : ∃ x y, a'.contains x ∧ b'.contains y ∧ apply op x y = .ok z) :
      c.contains z := by
    obtain ⟨x, y, hx, hy, hz⟩ := hz
    obtain ⟨z', hz', hcz⟩ := h.exists_apply ha.valid hb.valid (hsubA x hx) (hsubB y hy)
    rw [hz, Except.ok.injEq] at hz'
    exact hz' ▸ hcz (keepsAttained_of_closed ha.flags hb.flags)
  obtain ⟨hlow, hhigh⟩ := h'.exists_attained ha' hb'
  refine ⟨c', h', hc', (hc'.subset_iff hc).2 ⟨?_, ?_⟩⟩
  · exact ((hc.contains_iff _).1 (hmember hlow)).1
  · exact ((hc.contains_iff _).1 (hmember hhigh)).2

end Interval

/-! ## Narrowed declarations -/

/-- Whether every symbol is declared with a valid interval that includes both its bounds. -/
def Env.ClosedIntervals (env : Env Exact) : Prop :=
  ∀ name ty, env.get? name = some ty →
    ∃ low high iv, Interval.closed low high = .ok iv ∧ ty = some (.interval iv)

/-- Whether `env'` declares the same symbols as `env`, each with an interval that lies in the one of
`env`. -/
def Env.Narrows (env' env : Env Exact) : Prop :=
  ∀ name, Option.Rel
    (fun ty' ty => ∃ iv' iv, ty' = some (.interval iv') ∧ ty = some (.interval iv) ∧ iv' ⊆ iv)
    (env'.get? name) (env.get? name)

variable {env env' : Env Exact}

theorem Env.ClosedIntervals.isClosed (h : env.ClosedIntervals) {name : Text} {iv : Interval Exact}
    (hget : env.get? name = some (some (.interval iv))) : iv.IsClosed := by
  obtain ⟨low, high, iv₁, hclosed, heq⟩ := h name _ hget
  obtain rfl : iv = iv₁ := Ty.interval.inj (Option.some.inj heq)
  have hvalid := Interval.valid_of_make hclosed
  unfold Interval.closed Interval.make at hclosed
  split at hclosed
  · cases hclosed
    exact ⟨hvalid, rfl, rfl⟩
  · cases hclosed

theorem Env.Narrows.exists_get? (h : env'.Narrows env) {name : Text} {ty : Option (Ty Exact)}
    (hget : env.get? name = some ty) :
    ∃ iv' iv, env'.get? name = some (some (.interval iv')) ∧ ty = some (.interval iv) ∧
      iv' ⊆ iv := by
  have hname := h name
  rw [hget] at hname
  generalize env'.get? name = found at hname ⊢
  obtain ⟨iv', iv, rfl, rfl, hsub⟩ := hname
  exact ⟨iv', iv, rfl, rfl, hsub⟩

namespace Derivation

variable {t : Typed Exact} {iv : Interval Exact}

theorem isClosed (h : Derivation env t iv) (henv : env.ClosedIntervals) : iv.IsClosed := by
  induction h with
  | sym hget => exact henv.isClosed hget
  | call _ _ _ _ hyields iha ihb => exact hyields.isClosed iha ihb

/-- What has an interval type keeps one that lies in it if the declarations are narrowed. -/
theorem exists_narrowed (h : Derivation env t iv) (henv : env.ClosedIntervals)
    (henv' : env'.ClosedIntervals) (hnarrow : env'.Narrows env) :
    ∃ t' iv', infer env' .interval t.erase = .ok t' ∧ t'.ty = some (.interval iv') ∧
      iv'.IsClosed ∧ iv' ⊆ iv := by
  induction h with
  | @sym p name iv hget =>
    obtain ⟨iv', iv₁, hget', heq, hsub⟩ := hnarrow.exists_get? hget
    obtain rfl : iv = iv₁ := Ty.interval.inj (Option.some.inj heq)
    exact ⟨.sym p name (some (.interval iv')), iv', infer_sym_eq_ok.2 ⟨_, hget', rfl⟩, rfl,
      henv'.isClosed hget', hsub⟩
  | @call p op l r a b c _ _ hl hr hyields ihl ihr =>
    obtain ⟨l', a', hinferL, htyL, ha', hsubA⟩ := ihl
    obtain ⟨r', b', hinferR, htyR, hb', hsubB⟩ := ihr
    obtain ⟨c', hyields', hc', hsub⟩ := hyields.exists_narrowed (hl.isClosed henv)
      (hr.isClosed henv) ha' hb' hsubA hsubB
    have hargs : inferAll env' .interval [l.erase, r.erase] = .ok [l', r'] := by
      simp only [inferAll, hinferL, hinferR]
    have hresolve : Domain.interval.resolve op ([l', r'].map Typed.ty) =
        .ok (some (.interval c')) := by
      rw [Domain.resolve_interval_eq_ok]
      exact ⟨a', b', c', by rw [List.map_cons, List.map_cons, htyL, htyR, List.map_nil], rfl,
        hyields'⟩
    refine ⟨.call p op [l', r'] (.interval c'), c', ?_, rfl, hc', hsub⟩
    rw [Typed.erase_pair]
    exact infer_call_eq_ok.2 ⟨_, _, hargs, hyields'.isKnown, hresolve, rfl⟩

end Derivation

/-- A call that has a type keeps one that lies in it if the declarations are narrowed. -/
theorem infer_call_narrowed (henv : env.ClosedIntervals) (henv' : env'.ClosedIntervals)
    (hnarrow : env'.Narrows env) {p : Pos} {op : Op} {args : List Expr} {t : Typed Exact}
    (h : infer env .interval (.call p op args) = .ok t) :
    ∃ typed typed' iv iv', t = .call p op typed (.interval iv) ∧
      infer env' .interval (.call p op args) = .ok (.call p op typed' (.interval iv')) ∧
      iv'.IsClosed ∧ iv.low.le iv'.low ∧ iv'.high.le iv.high := by
  obtain ⟨typed, ty, -, -, hresolve, rfl⟩ := infer_call_eq_ok.1 h
  obtain ⟨a, b, iv, -, rfl, -⟩ := Domain.resolve_interval_eq_ok.1 hresolve
  have hder := derivation_of_infer _ _ iv h rfl
  obtain ⟨t', iv', h', hty', hclosed, hsub⟩ := hder.exists_narrowed henv henv' hnarrow
  rw [infer_erase _ _ h] at h'
  obtain ⟨typed', ty', -, -, -, rfl⟩ := infer_call_eq_ok.1 h'
  obtain rfl : ty' = .interval iv' := Option.some.inj hty'
  exact ⟨typed, typed', iv, iv', rfl, h', hclosed,
    (hclosed.subset_iff (hder.isClosed henv)).1 hsub⟩

theorem closedIntervals_declare {x y z : Interval Exact}
    (hx : Interval.closed x.low x.high = .ok x) (hy : Interval.closed y.low y.high = .ok y)
    (hz : Interval.closed z.low z.high = .ok z) : (declare x y z).ClosedIntervals := by
  intro name ty hget
  simp only [declare, Bindings.get?_insert, Bindings.get?_empty] at hget
  split_ifs at hget <;> cases hget
  · exact ⟨_, _, z, hz, rfl⟩
  · exact ⟨_, _, y, hy, rfl⟩
  · exact ⟨_, _, x, hx, rfl⟩

theorem narrows_declare {x y z x' y' z' : Interval Exact} (hx : x' ⊆ x) (hy : y' ⊆ y)
    (hz : z' ⊆ z) : (declare x' y' z').Narrows (declare x y z) := by
  intro name
  simp only [declare, Bindings.get?_insert, Bindings.get?_empty]
  split_ifs
  · exact .some ⟨_, _, rfl, rfl, hz⟩
  · exact .some ⟨_, _, rfl, rfl, hy⟩
  · exact .some ⟨_, _, rfl, rfl, hx⟩
  · exact .none

/-- Narrowing closed declarations keeps an expression typed. At every call, the interval found lies
within the bounds of the one found before, and it includes its own. -/
theorem infer_narrowed (henv : env.ClosedIntervals) (henv' : env'.ClosedIntervals)
    (hnarrow : env'.Narrows env) {e : Expr} {t : Typed Exact}
    (h : infer env .interval e = .ok t) :
    ∃ t', infer env' .interval e = .ok t' ∧
      ∀ path p op args, e.nodeAt? path = some (.call p op args) →
        ∃ typed typed' iv iv', t.nodeAt? path = some (.call p op typed (.interval iv)) ∧
          t'.nodeAt? path = some (.call p op typed' (.interval iv')) ∧
          iv.low.le iv'.low ∧ iv'.high.le iv.high ∧ iv'.includesLow ∧ iv'.includesHigh := by
  obtain ⟨t', h'⟩ : ∃ t', infer env' .interval e = .ok t' := by
    cases e with
    | lit p l => exact ⟨_, rfl⟩
    | sym p name =>
      obtain ⟨ty, hget, -⟩ := infer_sym_eq_ok.1 h
      obtain ⟨iv', -, hget', -⟩ := hnarrow.exists_get? hget
      exact ⟨_, infer_sym_eq_ok.2 ⟨_, hget', rfl⟩⟩
    | call p op args =>
      obtain ⟨_, _, _, _, -, h', -⟩ := infer_call_narrowed henv henv' hnarrow h
      exact ⟨_, h'⟩
    | missing => cases h
  refine ⟨t', h', fun path p op args hpath => ?_⟩
  -- The path leads to what inference makes of the same call under either declarations.
  obtain ⟨c, hc, hinfer⟩ := infer_nodeAt? h hpath
  obtain ⟨c', hc', hinfer'⟩ := infer_nodeAt? h' hpath
  obtain ⟨typed, typed', iv, iv', rfl, hcall, hclosed, hlow, hhigh⟩ :=
    infer_call_narrowed henv henv' hnarrow hinfer
  obtain rfl : c' = _ := Except.ok.inj (hinfer'.symm.trans hcall)
  exact ⟨typed, typed', iv, iv', hc, hc', hlow, hhigh, hclosed.flags⟩

/-- `(x - y) / z` for `x` in `[3, 5]`, `y` in `[1, 2]` and `z` in `[0, inf]` has the type
`[0, inf]`. It keeps a type if `x` is narrowed to `[4, 5]` and `z` to `[1, 4]`. -/
theorem infer_narrowed_ratio :
    let x : Interval Exact := ⟨.fin 3, .fin 5, true, true⟩
    let x' : Interval Exact := ⟨.fin 4, .fin 5, true, true⟩
    let y : Interval Exact := ⟨.fin 1, .fin 2, true, true⟩
    let z : Interval Exact := ⟨.fin 0, .posInf, true, true⟩
    let z' : Interval Exact := ⟨.fin 1, .fin 4, true, true⟩
    (declare x' y z').Narrows (declare x y z) ∧
      ∃ t t' iv', infer (declare x y z) .interval (ratio .sub) = .ok t ∧
        t.ty = some (.interval ⟨.fin 0, .posInf, true, true⟩) ∧
        infer (declare x' y z') .interval (ratio .sub) = .ok t' ∧ t'.ty = some (.interval iv') ∧
        (Exact.fin 0).le iv'.low ∧ iv'.high.le .posInf ∧ iv'.includesLow ∧ iv'.includesHigh := by
  intro x x' y z z'
  have henv : (declare x y z).ClosedIntervals :=
    closedIntervals_declare (by cbv) (by cbv) (by cbv)
  have henv' : (declare x' y z').ClosedIntervals :=
    closedIntervals_declare (by cbv) (by cbv) (by cbv)
  have hclosed {low high : Exact} (h : Interval.validBounds low high) :
      Interval.IsClosed ⟨low, high, true, true⟩ := ⟨h, rfl, rfl⟩
  have hnarrow : (declare x' y z').Narrows (declare x y z) := by
    refine narrows_declare ?_ (fun _ h => h) ?_
    · exact ((hclosed (by decide +kernel)).subset_iff (hclosed (by decide +kernel))).2
        ⟨by decide +kernel, by decide +kernel⟩
    · exact ((hclosed (by decide +kernel)).subset_iff (hclosed (by decide +kernel))).2
        ⟨by decide +kernel, by decide +kernel⟩
  have hinfer : infer (declare x y z) .interval (ratio .sub) = .ok
      (.call .nowhere .truediv [.call .nowhere .sub [.sym .nowhere "x" (some (.interval x)),
        .sym .nowhere "y" (some (.interval y))] (.interval ⟨.fin 1, .fin 4, true, true⟩),
        .sym .nowhere "z" (some (.interval z))] (.interval ⟨.fin 0, .posInf, true, true⟩)) := by
    cbv
  obtain ⟨t', hinfer', hcalls⟩ := infer_narrowed henv henv' hnarrow hinfer
  obtain ⟨typed, typed', iv, iv', ht, ht', hbounds⟩ := hcalls [] .nowhere .truediv _ rfl
  cases ht
  cases ht'
  exact ⟨hnarrow, _, _, iv', hinfer, rfl, hinfer', rfl, hbounds⟩

end ExprTyping
