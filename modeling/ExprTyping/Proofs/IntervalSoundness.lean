import ExprTyping.Proofs.ExactIntervals
import ExprTyping.Proofs.FreeSymbols

/-!
# Interval types and values

An expression over intervals has a value once its symbols have: sums, differences and quotients
are computed from the leaves upwards, and a form without a value stops the computation. This module
says what the inferred interval tells about that value.

- `Expr.value`: the value of an expression, or why it has none;
- `Derivation`: the shape of an expression that inference types as an interval;
- `Derivation.value_hull`: the value lies between the bounds of the type, unless the computation
  meets zero over zero or infinity over infinity;
- `Derivation.value_contains`: if every operation keeps attained bounds, the computation meets
  neither and the value is a member of the type.

An operation keeps attained bounds unless it pairs an excluded bound with a member that absorbs it
(`Interval.KeepsAttained`), and such an operation loses a value of its operands
(`Interval.sound_iff_keepsAttained`).
-/

namespace ExprTyping

namespace Expr

mutual

/-- The value of an expression under the values `ρ` of its symbols. -/
def value (ρ : Text → Exact) : Expr → Except NoValue Exact
  | .lit _ _ => .error .notArithmetic
  | .sym _ name => .ok (ρ name)
  | .call _ op args =>
    match values ρ args with
    | .error why => .error why
    | .ok [x, y] => Exact.apply op x y
    | .ok _ => .error .notArithmetic
  | .missing => .error .notArithmetic

/-- The values of expressions, from left to right. -/
def values (ρ : Text → Exact) : List Expr → Except NoValue (List Exact)
  | [] => .ok []
  | e :: es =>
    match e.value ρ with
    | .error why => .error why
    | .ok x =>
      match values ρ es with
      | .error why => .error why
      | .ok xs => .ok (x :: xs)

end

/-- The value of a call with two arguments. -/
theorem value_pair (ρ : Text → Exact) (p : Pos) (op : Op) (l r : Expr) :
    (call p op [l, r]).value ρ =
      match l.value ρ, r.value ρ with
      | .ok x, .ok y => Exact.apply op x y
      | .error why, _ => .error why
      | .ok _, .error why => .error why := by
  simp only [value, values]
  cases l.value ρ with
  | error why => rfl
  | ok x => cases r.value ρ <;> rfl

theorem nodes_pair (p : Pos) (op : Op) (l r : Expr) :
    (call p op [l, r]).nodes = call p op [l, r] :: (l.nodes ++ r.nodes) := by
  simp [nodes, visit, visitAll]

end Expr

/-- Whether the values `ρ` lie in the intervals that the symbols of `e` are declared with. -/
def Fits (env : Env Exact) (ρ : Text → Exact) (e : Expr) : Prop :=
  ∀ name ∈ e.freeSymbols, ∀ iv, env.get? name = some (some (.interval iv)) → iv.contains (ρ name)

theorem Fits.pair {env : Env Exact} {ρ : Text → Exact} {p : Pos} {op : Op} {l r : Expr}
    (h : Fits env ρ (.call p op [l, r])) : Fits env ρ l ∧ Fits env ρ r := by
  have hmem : ∀ name, name ∈ l.freeSymbols ∨ name ∈ r.freeSymbols →
      name ∈ (Expr.call p op [l, r]).freeSymbols := by
    intro name hname
    rw [Expr.mem_freeSymbols, Expr.nodes_pair]
    rcases hname with hname | hname <;> obtain ⟨q, hq⟩ := Expr.mem_freeSymbols.1 hname
    · exact ⟨q, List.mem_cons_of_mem _ (List.mem_append_left _ hq)⟩
    · exact ⟨q, List.mem_cons_of_mem _ (List.mem_append_right _ hq)⟩
  exact ⟨fun name hname => h name (hmem name (.inl hname)),
    fun name hname => h name (hmem name (.inr hname))⟩

namespace Typed

theorem erase_pair (p : Pos) (op : Op) (l r : Typed Exact) (ty : Ty Exact) :
    (call p op [l, r] ty).erase = .call p op [l.erase, r.erase] := by
  simp only [erase, eraseAll]

theorem nodes_pair (p : Pos) (op : Op) (l r : Typed Exact) (ty : Ty Exact) :
    (call p op [l, r] ty).nodes = call p op [l, r] ty :: (l.nodes ++ r.nodes) := by
  simp [nodes, nodesAll]

/-- The operation at a node, if it is one on intervals: its operands and its result. -/
def operation? : Typed Exact → Option (Op × Interval Exact × Interval Exact × Interval Exact)
  | .call _ op [l, r] (.interval c) =>
    match l.ty, r.ty with
    | some (.interval a), some (.interval b) => some (op, a, b, c)
    | _, _ => none
  | _ => none

theorem operation?_pair {p : Pos} {op : Op} {l r : Typed Exact} {a b c : Interval Exact}
    (hl : l.ty = some (.interval a)) (hr : r.ty = some (.interval b)) :
    (call p op [l, r] (.interval c)).operation? = some (op, a, b, c) := by
  rw [operation?, hl, hr]

theorem operation?_eq_some {n : Typed Exact} {op : Op} {a b c : Interval Exact}
    (h : n.operation? = some (op, a, b, c)) :
    ∃ p l r, n = call p op [l, r] (.interval c) ∧ l.ty = some (.interval a) ∧
      r.ty = some (.interval b) := by
  unfold operation? at h
  split at h
  · next p op' l r c' =>
    split at h
    · next a' b' hl hr =>
      cases h
      exact ⟨p, l, r, rfl, hl, hr⟩
    · cases h
  · cases h

/-- Whether the operation at a node keeps attained bounds. -/
def KeepsAttained (n : Typed Exact) : Prop :=
  ∀ op a b c, n.operation? = some (op, a, b, c) → a.KeepsAttained op b

theorem keepsAttained_sym (p : Pos) (name : Text) (ty : Option (Ty Exact)) :
    ∀ n ∈ (sym p name ty).nodes, n.KeepsAttained := by
  intro n hn
  rw [nodes, List.mem_singleton] at hn
  subst hn
  intro op a b c hop
  cases hop

theorem keepsAttained_pair {p : Pos} {op : Op} {l r : Typed Exact} {a b c : Interval Exact}
    (hl : l.ty = some (.interval a)) (hr : r.ty = some (.interval b)) :
    (∀ n ∈ (call p op [l, r] (.interval c)).nodes, n.KeepsAttained) ↔
      a.KeepsAttained op b ∧ (∀ n ∈ l.nodes, n.KeepsAttained) ∧
        ∀ n ∈ r.nodes, n.KeepsAttained := by
  rw [nodes_pair, List.forall_mem_cons, List.forall_mem_append]
  refine and_congr_left fun _ => ⟨fun h => h op a b c (operation?_pair hl hr), ?_⟩
  intro h op' a' b' c' hop
  rw [operation?_pair hl hr] at hop
  cases hop
  exact h

/-- Whether the operation at a node is defined on all members of its operands and gives members
of its result. -/
def SoundOnMembers (n : Typed Exact) : Prop :=
  ∀ op a b c, n.operation? = some (op, a, b, c) →
    ∀ x y, a.contains x → b.contains y → ∃ z, Exact.apply op x y = .ok z ∧ c.contains z

end Typed

/-- A typed expression whose type is an interval: symbols declared with intervals, combined by the
operations on intervals. -/
inductive Derivation (env : Env Exact) : Typed Exact → Interval Exact → Prop
  | sym {p : Pos} {name : Text} {iv : Interval Exact} :
      env.get? name = some (some (.interval iv)) →
      Derivation env (.sym p name (some (.interval iv))) iv
  | call {p : Pos} {op : Op} {l r : Typed Exact} {a b c : Interval Exact} :
      l.ty = some (.interval a) → r.ty = some (.interval b) →
      Derivation env l a → Derivation env r b → a.Yields b c op →
      Derivation env (.call p op [l, r] (.interval c)) c

variable {env : Env Exact}

/-- Typed arguments with two types are two typed expressions. -/
theorem inferAll_pair {d : Domain Exact} {args : List Expr} {typed : List (Typed Exact)}
    {s u : Option (Ty Exact)} (h : inferAll env d args = .ok typed)
    (hty : typed.map Typed.ty = [s, u]) :
    ∃ el er l r, args = [el, er] ∧ typed = [l, r] ∧
      (infer env d el = .ok l ∧ l.ty = s) ∧ infer env d er = .ok r ∧ r.ty = u := by
  cases args with
  | nil =>
    cases h
    cases hty
  | cons el args =>
    obtain ⟨l, rest, hl, hrest, rfl⟩ := inferAll_cons_eq_ok.1 h
    obtain ⟨hs, hty⟩ := List.cons.inj hty
    cases args with
    | nil =>
      cases hrest
      cases hty
    | cons er args =>
      obtain ⟨r, rest, hr, hmore, rfl⟩ := inferAll_cons_eq_ok.1 hrest
      obtain ⟨hu, hty⟩ := List.cons.inj hty
      obtain rfl : rest = [] := List.map_eq_nil_iff.1 hty
      cases args with
      | nil => exact ⟨el, er, l, r, rfl, rfl, ⟨hl, hs⟩, hr, hu⟩
      | cons e args =>
        obtain ⟨t, more, -, -, hnil⟩ := inferAll_cons_eq_ok.1 hmore
        cases hnil

/-- What inference types as an interval is built from symbols by the operations on intervals. -/
theorem derivation_of_infer : ∀ (e : Expr) (t : Typed Exact) (iv : Interval Exact),
    infer env .interval e = .ok t → t.ty = some (.interval iv) → Derivation env t iv
  | .lit p l, t, iv, h, hty => by
    cases h
    change some l.ty = _ at hty
    rcases l.ty_eq_or (β := Exact) with hl | hl
    · rw [hl] at hty
      cases hty
    · rw [hl] at hty
      cases hty
  | .sym p name, t, iv, h, hty => by
    obtain ⟨ty, hget, rfl⟩ := infer_sym_eq_ok.1 h
    obtain rfl : ty = some (.interval iv) := hty
    exact .sym hget
  | .call p op args, t, iv, h, hty => by
    obtain ⟨typed, ty, hargs, -, hresolve, rfl⟩ := infer_call_eq_ok.1 h
    obtain rfl : ty = .interval iv := Option.some.inj hty
    obtain ⟨a, b, c, htys, hc, hyields⟩ := Domain.resolve_interval_eq_ok.1 hresolve
    cases hc
    obtain ⟨el, er, l, r, rfl, rfl, ⟨hl, hlty⟩, hr, hrty⟩ := inferAll_pair hargs htys
    exact .call hlty hrty (derivation_of_infer el l a hl hlty) (derivation_of_infer er r b hr hrty)
      hyields
  | .missing, t, iv, h, hty => by cases h

/-- Whether every symbol is declared with an interval whose bounds are valid. -/
def Env.Intervals (env : Env Exact) : Prop :=
  ∀ name ty, env.get? name = some ty →
    ∃ low high il ih iv, Interval.make low high il ih = .ok iv ∧ ty = some (.interval iv)

theorem Interval.valid_of_make {low high : Exact} {il ih : Bool} {iv : Interval Exact}
    (h : Interval.make low high il ih = .ok iv) : iv.Valid := by
  unfold Interval.make at h
  split at h
  · next hvalid =>
    cases h
    exact hvalid
  · cases h

namespace Derivation

variable {t : Typed Exact} {iv : Interval Exact} {ρ : Text → Exact}

theorem valid (h : Derivation env t iv) (henv : env.Intervals) : iv.Valid := by
  cases h with
  | sym hget =>
    obtain ⟨low, high, il, ih, iv, hmake, heq⟩ := henv _ _ hget
    cases heq
    exact Interval.valid_of_make hmake
  | call _ _ _ _ hyields => exact hyields.valid

/-- The value lies between the bounds of the type. The computation may stop at a quotient without
a value, but never at a difference. -/
theorem value_hull (h : Derivation env t iv) (henv : env.Intervals) (hρ : Fits env ρ t.erase) :
    match t.erase.value ρ with
    | .ok v => iv.hull.contains v
    | .error why => why = .zeroOverZero ∨ why = .infinityOverInfinity := by
  induction h with
  | @sym p name iv hget =>
    have hmember := hρ name (Expr.mem_freeSymbols_sym p name) iv hget
    exact Interval.contains_hull ((Derivation.sym (p := p) hget).valid henv) hmember
  | @call p op l r a b c _ _ hl hr hyields ihl ihr =>
    rw [Typed.erase_pair] at hρ ⊢
    rw [Expr.value_pair]
    have hleft := ihl hρ.pair.1
    have hright := ihr hρ.pair.2
    -- What stops an operand stops the call; two values go through the operation.
    cases hx : l.erase.value ρ with
    | error why =>
      rw [hx] at hleft
      exact hleft
    | ok x =>
      rw [hx] at hleft
      cases hy : r.erase.value ρ with
      | error why =>
        rw [hy] at hright
        exact hright
      | ok y =>
        rw [hy] at hright
        exact hyields.hull_contains (hl.valid henv) (hr.valid henv) hleft hright

/-- If every operation keeps attained bounds, the expression has a value and it is a member of
the type. -/
theorem value_contains (h : Derivation env t iv) (henv : env.Intervals)
    (hρ : Fits env ρ t.erase) (hkeep : ∀ n ∈ t.nodes, n.KeepsAttained) :
    ∃ v, t.erase.value ρ = .ok v ∧ iv.contains v := by
  induction h with
  | @sym p name iv hget => exact ⟨ρ name, rfl, hρ name (Expr.mem_freeSymbols_sym p name) iv hget⟩
  | @call p op l r a b c hlty hrty hl hr hyields ihl ihr =>
    rw [Typed.erase_pair] at hρ ⊢
    rw [Expr.value_pair]
    obtain ⟨hself, hleft, hright⟩ := (Typed.keepsAttained_pair hlty hrty).1 hkeep
    obtain ⟨x, hx, hax⟩ := ihl hρ.pair.1 hleft
    obtain ⟨y, hy, hby⟩ := ihr hρ.pair.2 hright
    obtain ⟨z, hz, hcz⟩ := hyields.exists_apply (hl.valid henv) (hr.valid henv) hax hby
    rw [hx, hy]
    exact ⟨z, hz, hcz hself⟩

end Derivation

/-- The operation at a node of what inference finds is one that succeeded on typed operands. -/
theorem exists_derivation_of_operation? {e : Expr} {t n : Typed Exact}
    (h : infer env .interval e = .ok t) (hn : n ∈ t.nodes) {op : Op} {a b c : Interval Exact}
    (hop : n.operation? = some (op, a, b, c)) :
    a.Yields b c op ∧ ∃ l r, Derivation env l a ∧ Derivation env r b := by
  obtain ⟨p, l, r, rfl, hlty, hrty⟩ := Typed.operation?_eq_some hop
  -- Inference at this node alone gives the same node, so the shape lemma applies to it.
  have hder := derivation_of_infer _ _ c (infer_node e t h _ hn) rfl
  cases hder with
  | call hlty' hrty' hl hr hyields =>
    obtain rfl : a = _ := Ty.interval.inj (Option.some.inj (hlty.symm.trans hlty'))
    obtain rfl : b = _ := Ty.interval.inj (Option.some.inj (hrty.symm.trans hrty'))
    exact ⟨hyields, l, r, hl, hr⟩

/-- At every node of what inference finds, keeping attained bounds is exactly what it takes for
the operation to be sound on all members of its operands. -/
theorem soundOnMembers_iff {e : Expr} {t n : Typed Exact} (henv : env.Intervals)
    (h : infer env .interval e = .ok t) (hn : n ∈ t.nodes) :
    n.SoundOnMembers ↔ n.KeepsAttained := by
  refine forall_congr' fun op => forall_congr' fun a => forall_congr' fun b =>
    forall_congr' fun c => imp_congr_right fun hop => ?_
  obtain ⟨hyields, l, r, hl, hr⟩ := exists_derivation_of_operation? h hn hop
  exact Interval.sound_iff_keepsAttained hyields (hl.valid henv) (hr.valid henv)

/-- Whether every symbol is declared with an interval that includes its bounds. -/
def Env.Closed (env : Env Exact) : Prop :=
  ∀ name iv, env.get? name = some (some (.interval iv)) → iv.includesLow ∧ iv.includesHigh

theorem Derivation.closed {t : Typed Exact} {iv : Interval Exact} (h : Derivation env t iv)
    (henv : env.Closed) : iv.includesLow ∧ iv.includesHigh := by
  induction h with
  | sym hget => exact henv _ _ hget
  | call _ _ _ _ hyields iha ihb => exact hyields.closed iha ihb

/-- Where all bounds are included, every operation keeps those that are attained. -/
theorem keepsAttained_of_closed {e : Expr} {t n : Typed Exact} (henv : env.Closed)
    (h : infer env .interval e = .ok t) (hn : n ∈ t.nodes) : n.KeepsAttained := by
  intro op a b c hop
  obtain ⟨-, l, r, hl, hr⟩ := exists_derivation_of_operation? h hn hop
  exact Interval.keepsAttained_of_closed (hl.closed henv) (hr.closed henv)

/-! ## Three declared symbols -/

theorem Env.intervals_empty : Env.Intervals .empty := by
  intro name ty h
  cases h

theorem Env.Intervals.insert (h : env.Intervals) (name : Text) {low high : Exact} {il ih : Bool}
    {iv : Interval Exact} (hmake : Interval.make low high il ih = .ok iv) :
    Env.Intervals (Bindings.insert env name (some (.interval iv))) := by
  intro other ty hget
  rw [Bindings.get?_insert] at hget
  split at hget
  · cases hget
    exact ⟨low, high, il, ih, iv, hmake, rfl⟩
  · exact h other ty hget

/-- Declarations of `x`, `y` and `z`. -/
def declare (x y z : Interval Exact) : Env Exact :=
  ((Bindings.empty.insert "x" (some (.interval x))).insert "y" (some (.interval y))).insert "z"
    (some (.interval z))

/-- Values of `x`, `y` and `z`. -/
def assign (x y z : Exact) (name : Text) : Exact :=
  if name = "x" then x else if name = "y" then y else z

/-- The result of an operator on `x` and `y`, over `z`. -/
def ratio (op : Op) : Expr :=
  .call .nowhere .truediv
    [.call .nowhere op [.sym .nowhere "x", .sym .nowhere "y"], .sym .nowhere "z"]

theorem fits_declare {x y z : Interval Exact} {u v w : Exact} (hx : x.contains u)
    (hy : y.contains v) (hz : z.contains w) (e : Expr) :
    Fits (declare x y z) (assign u v w) e := by
  intro name _ iv hget
  simp only [declare, Bindings.get?_insert, Bindings.get?_empty] at hget
  split at hget
  · next h =>
    cases hget
    subst h
    exact hz
  · split at hget
    · next h =>
      cases hget
      subst h
      exact hy
    · split at hget
      · next h =>
        cases hget
        subst h
        exact hx
      · cases hget

theorem intervals_declare {x y z : Interval Exact}
    (hx : Interval.make x.low x.high x.includesLow x.includesHigh = .ok x)
    (hy : Interval.make y.low y.high y.includesLow y.includesHigh = .ok y)
    (hz : Interval.make z.low z.high z.includesLow z.includesHigh = .ok z) :
    (declare x y z).Intervals :=
  ((Env.intervals_empty.insert "x" hx).insert "y" hy).insert "z" hz

/-! ## Values of typed expressions -/

/-- What an interval type tells about values. The type bounds every value, and only a quotient can
be without one. Where each operation keeps attained bounds, no quotient is, and the type contains
every value; this is what each operation needs to be sound, and closed declarations ensure it. -/
theorem value_of_infer_interval {e : Expr} {t : Typed Exact} {iv : Interval Exact}
    (henv : env.Intervals) (h : infer env .interval e = .ok t)
    (hty : t.ty = some (.interval iv)) :
    (∀ ρ, Fits env ρ e →
      (match e.value ρ with
        | .ok v => iv.hull.contains v
        | .error why => why = .zeroOverZero ∨ why = .infinityOverInfinity) ∧
      ((∀ n ∈ t.nodes, n.KeepsAttained) → ∃ v, e.value ρ = .ok v ∧ iv.contains v)) ∧
    (∀ n ∈ t.nodes, (n.SoundOnMembers ↔ n.KeepsAttained)) ∧
    (env.Closed → ∀ n ∈ t.nodes, n.KeepsAttained) := by
  have hder := derivation_of_infer e t iv h hty
  have herase : t.erase = e := infer_erase e t h
  refine ⟨fun ρ hρ => ?_, fun n hn => soundOnMembers_iff henv h hn,
    fun hclosed n hn => keepsAttained_of_closed hclosed h hn⟩
  rw [← herase] at hρ ⊢
  exact ⟨hder.value_hull henv hρ, hder.value_contains henv hρ⟩

/-- `(x + y) / z` for `x` in `[0, 1]`, `y` in `(1, 2]` and `z` in `[1, inf)`: the type `(0, 3]`
contains the value at `x = 1`, `y = 2` and `z = 1`, which is its upper bound. -/
theorem value_of_infer_interval_halfOpen :
    let x : Interval Exact := ⟨.fin 0, .fin 1, true, true⟩
    let y : Interval Exact := ⟨.fin 1, .fin 2, false, true⟩
    let z : Interval Exact := ⟨.fin 1, .posInf, true, false⟩
    ∃ t iv, infer (declare x y z) .interval (ratio .add) = .ok t ∧ t.ty = some (.interval iv) ∧
      ∃ v, (ratio .add).value (assign (.fin 1) (.fin 2) (.fin 1)) = .ok v ∧ iv.contains v := by
  intro x y z
  have henv : (declare x y z).Intervals := intervals_declare (by cbv) (by cbv) (by cbv)
  have hinfer : infer (declare x y z) .interval (ratio .add) = .ok
      (.call .nowhere .truediv [.call .nowhere .add [.sym .nowhere "x" (some (.interval x)),
        .sym .nowhere "y" (some (.interval y))] (.interval ⟨.fin 1, .fin 3, false, true⟩),
        .sym .nowhere "z" (some (.interval z))] (.interval ⟨.fin 0, .fin 3, false, true⟩)) := by
    cbv
  obtain ⟨hvalue, -, -⟩ := value_of_infer_interval henv hinfer rfl
  refine ⟨_, _, hinfer, rfl, (hvalue _ (fits_declare ?_ ?_ ?_ _)).2 ?_⟩
  · decide +kernel
  · decide +kernel
  · decide +kernel
  · -- Neither operand of the sum reaches infinity, and neither operand of the quotient zero or
    -- infinity.
    refine (Typed.keepsAttained_pair rfl rfl).2 ⟨?_, (Typed.keepsAttained_pair rfl rfl).2
      ⟨?_, Typed.keepsAttained_sym _ _ _, Typed.keepsAttained_sym _ _ _⟩,
      Typed.keepsAttained_sym _ _ _⟩
    · exact ⟨⟨by decide +kernel, by decide +kernel⟩, by decide +kernel, by decide +kernel⟩
    · exact ⟨by decide +kernel, by decide +kernel⟩

/-- Zero over one is a value of `x / y` for `x` in `[0, 1]` and `y` in `[1, 2)`, but the type of the
quotient excludes zero because the upper bound of `y` is excluded. So `(x / y) / z` has a type for
`z` in `[0, 1]` although it may be zero over zero. -/
theorem not_value_of_infer_interval :
    ¬ ∀ (env : Env Exact) (e : Expr) (t : Typed Exact) (iv : Interval Exact) (ρ : Text → Exact),
      env.Intervals → infer env .interval e = .ok t → t.ty = some (.interval iv) →
      Fits env ρ e → ∃ v, e.value ρ = .ok v ∧ iv.contains v := by
  intro hsound
  let x : Interval Exact := ⟨.fin 0, .fin 1, true, true⟩
  let y : Interval Exact := ⟨.fin 1, .fin 2, true, false⟩
  have henv : (declare x y x).Intervals := intervals_declare (by cbv) (by cbv) (by cbv)
  have hinfer : infer (declare x y x) .interval (ratio .truediv) = .ok
      (.call .nowhere .truediv [.call .nowhere .truediv [.sym .nowhere "x" (some (.interval x)),
        .sym .nowhere "y" (some (.interval y))] (.interval ⟨.fin 0, .fin 1, false, true⟩),
        .sym .nowhere "z" (some (.interval x))] (.interval ⟨.fin 0, .posInf, false, true⟩)) := by
    cbv
  have hfits : Fits (declare x y x) (assign (.fin 0) (.fin 1) (.fin 0)) (ratio .truediv) :=
    fits_declare (by decide +kernel) (by decide +kernel) (by decide +kernel) _
  obtain ⟨v, hv, -⟩ := hsound _ _ _ _ _ henv hinfer rfl hfits
  have hzero : (ratio .truediv).value (assign (.fin 0) (.fin 1) (.fin 0)) =
      .error .zeroOverZero := by
    decide +kernel
  rw [hzero] at hv
  cases hv

end ExprTyping
