import ExprTyping.Proofs.Typing

/-!
# Substitution

A symbol can be declared with the type of an expression, or it can be replaced by that expression:
inference finds the same types either way and fails at the same node for the same reason. The
symbol may occur in the expression and may have been declared before; there it keeps its old type.

- `Expr.subst` and `Typed.subst`: replacing a symbol in expressions with and without types;
- `infer_subst_eq`: inference commutes with both;
- `Typed.nodeAt?_subst`: replacing a symbol keeps the calls where they are, with their types;
- `infer_subst`: what this says about success, types and errors.
-/

namespace ExprTyping

variable {β : Type}

/-! ## Replacing a symbol -/

namespace Expr

mutual

/-- The expression with `e` in place of every occurrence of the symbol `x`. -/
def subst (x : Text) (e : Expr) : Expr → Expr
  | .lit p l => .lit p l
  | .sym p name => if name = x then e else .sym p name
  | .call p op args => .call p op (substAll x e args)
  | .missing => .missing

/-- The expressions with `e` in place of every occurrence of the symbol `x`. -/
def substAll (x : Text) (e : Expr) : List Expr → List Expr
  | [] => []
  | n :: ns => subst x e n :: substAll x e ns

end

/-- The arguments of a call; other nodes have none. -/
def args : Expr → List Expr
  | .call _ _ args => args
  | _ => []

/-- The node at the end of a path from the root, on which each number chooses an argument. -/
def nodeAt? (e : Expr) : List Nat → Option Expr
  | [] => some e
  | i :: path => (e.args[i]?).bind fun arg => arg.nodeAt? path

end Expr

namespace Typed

mutual

/-- The typed expression with `t` in place of every occurrence of the symbol `x`. All other nodes
keep their types. -/
def subst (x : Text) (t : Typed β) : Typed β → Typed β
  | .lit p l ty => .lit p l ty
  | .sym p name ty => if name = x then t else .sym p name ty
  | .call p op args ty => .call p op (substAll x t args) ty

/-- The typed expressions with `t` in place of every occurrence of the symbol `x`. -/
def substAll (x : Text) (t : Typed β) : List (Typed β) → List (Typed β)
  | [] => []
  | m :: ms => subst x t m :: substAll x t ms

end

/-- The arguments of a call; other nodes have none. -/
def args : Typed β → List (Typed β)
  | .call _ _ args _ => args
  | _ => []

/-- The node at the end of a path from the root, on which each number chooses an argument. -/
def nodeAt? (t : Typed β) : List Nat → Option (Typed β)
  | [] => some t
  | i :: path => (t.args[i]?).bind fun arg => arg.nodeAt? path

theorem substAll_eq_map (x : Text) (t : Typed β) (ms : List (Typed β)) :
    substAll x t ms = ms.map (subst x t) := by
  induction ms with
  | nil => simp [substAll]
  | cons m ms ih => simp [substAll, ih]

theorem args_subst {x : Text} {t m arg : Typed β} {i : Nat} (h : m.args[i]? = some arg) :
    (subst x t m).args[i]? = some (subst x t arg) := by
  cases m with
  | call p op typed ty =>
    have htyped : typed[i]? = some arg := h
    simp [subst, args, substAll_eq_map, htyped]
  | _ => simp [args] at h

/-- Replacing a symbol goes on below a node and leaves the way to it as it is. -/
theorem nodeAt?_subst (x : Text) (t : Typed β) {m c : Typed β} {path : List Nat}
    (h : m.nodeAt? path = some c) : (subst x t m).nodeAt? path = some (subst x t c) := by
  induction path generalizing m with
  | nil =>
    cases h
    rfl
  | cons i path ih =>
    rw [nodeAt?, Option.bind_eq_some_iff] at h
    obtain ⟨arg, harg, hpath⟩ := h
    rw [nodeAt?, args_subst harg]
    exact ih hpath

end Typed

variable [Bound β] {env : Env β} {d : Domain β}

/-! ## Inference along a path -/

theorem inferAll_getElem? {es : List Expr} {ts : List (Typed β)} (h : inferAll env d es = .ok ts)
    {i : Nat} {e : Expr} (hi : es[i]? = some e) :
    ∃ t, ts[i]? = some t ∧ infer env d e = .ok t := by
  induction es generalizing ts i with
  | nil => simp at hi
  | cons first es ih =>
    obtain ⟨t, rest, ht, hrest, rfl⟩ := inferAll_cons_eq_ok.1 h
    cases i with
    | zero =>
      cases hi
      exact ⟨t, rfl, ht⟩
    | succ i => exact ih hrest hi

/-- A path leads to the same node before and after inference. -/
theorem infer_nodeAt? {n k : Expr} {m : Typed β} {path : List Nat} (h : infer env d n = .ok m)
    (hpath : n.nodeAt? path = some k) : ∃ c, m.nodeAt? path = some c ∧ infer env d k = .ok c := by
  induction path generalizing n m with
  | nil =>
    cases hpath
    exact ⟨m, rfl, h⟩
  | cons i path ih =>
    rw [Expr.nodeAt?, Option.bind_eq_some_iff] at hpath
    obtain ⟨arg, harg, hpath⟩ := hpath
    -- Only a call has arguments for the path to go on to.
    cases n with
    | call p op args =>
      obtain ⟨typed, ty, hargs, -, -, rfl⟩ := infer_call_eq_ok.1 h
      obtain ⟨t, ht, hinfer⟩ := inferAll_getElem? hargs harg
      obtain ⟨c, hc, hk⟩ := ih hinfer hpath
      exact ⟨c, by rw [Typed.nodeAt?, Typed.args, ht, Option.bind_some, hc], hk⟩
    | _ => simp [Expr.args] at harg

/-! ## Inference and replacement -/

variable {x : Text} {t : Typed β}

/-- If the symbol was declared with the type of what replaces it, the root keeps its type. -/
theorem ty_subst {n : Expr} {m : Typed β} (h : infer (env.insert x t.ty) d n = .ok m) :
    (Typed.subst x t m).ty = m.ty := by
  cases n with
  | lit p l =>
    cases h
    simp [Typed.subst]
  | sym p name =>
    obtain ⟨ty, hget, rfl⟩ := infer_sym_eq_ok.1 h
    by_cases hname : name = x
    · subst hname
      rw [Bindings.get?_insert, if_pos rfl, Option.some.injEq] at hget
      simp [Typed.subst, Typed.ty, ← hget]
    · simp [Typed.subst, hname]
  | call p op args =>
    obtain ⟨typed, ty, -, -, -, rfl⟩ := infer_call_eq_ok.1 h
    simp [Typed.subst, Typed.ty]
  | missing => cases h

theorem map_ty_substAll {ns : List Expr} {ms : List (Typed β)}
    (h : inferAll (env.insert x t.ty) d ns = .ok ms) :
    (Typed.substAll x t ms).map Typed.ty = ms.map Typed.ty := by
  induction ns generalizing ms with
  | nil =>
    cases h
    simp [Typed.substAll]
  | cons n ns ih =>
    obtain ⟨m, rest, hm, hrest, rfl⟩ := inferAll_cons_eq_ok.1 h
    simp [Typed.substAll, ty_subst hm, ih hrest]

variable {e : Expr}

mutual

/-- Replacing a symbol by a typed expression commutes with inference, also where it fails. -/
theorem infer_subst_eq (he : infer env d e = .ok t) : ∀ n : Expr,
    infer env d (Expr.subst x e n) = (infer (env.insert x t.ty) d n).map (Typed.subst x t)
  | .lit p l => by simp [Expr.subst, infer, Except.map, Typed.subst]
  | .sym p name => by
    by_cases hname : name = x
    · simp [Expr.subst, infer, hname, he, Except.map, Typed.subst]
    · -- Any other symbol is looked up as before.
      have hget : (env.insert x t.ty).get? name = env.get? name := by
        rw [Bindings.get?_insert, if_neg (Ne.symm hname)]
      rw [Expr.subst, if_neg hname, infer, infer, hget]
      cases env.get? name with
      | none => rfl
      | some ty => simp [Except.map, Typed.subst, hname]
  | .call p op args => by
    rw [Expr.subst, infer, infer, inferAll_substAll_eq he args]
    cases hargs : inferAll (env.insert x t.ty) d args with
    | error f => rfl
    | ok typed =>
      -- The arguments have the same types on both sides, so the domain is asked the same question.
      simp only [Except.map, map_ty_substAll hargs]
      cases d.callType op (typed.map Typed.ty) with
      | error f => rfl
      | ok ty => simp [Typed.subst]
  | .missing => by simp [Expr.subst, infer, Except.map]

theorem inferAll_substAll_eq (he : infer env d e = .ok t) : ∀ ns : List Expr,
    inferAll env d (Expr.substAll x e ns) =
      (inferAll (env.insert x t.ty) d ns).map (Typed.substAll x t)
  | [] => by simp [Expr.substAll, inferAll, Except.map, Typed.substAll]
  | n :: ns => by
    rw [Expr.substAll, inferAll, inferAll, infer_subst_eq he n, inferAll_substAll_eq he ns]
    cases infer (env.insert x t.ty) d n with
    | error f => rfl
    | ok m =>
      cases inferAll (env.insert x t.ty) d ns with
      | error f => rfl
      | ok ms => simp [Except.map, Typed.substAll]

end

/-- Let `e` have a type. Inference of `n` with `e` in place of the symbol `x` succeeds exactly if
that of `n` does where `x` is declared with this type. If so, the roots have the same type, and so
has every call of `n` in both trees; if not, both fail with the same error at the same position. -/
theorem infer_subst (env : Env β) (d : Domain β) (x : Text) {e : Expr} {t : Typed β}
    (he : infer env d e = .ok t) (n : Expr) :
    ((∃ m', infer env d (Expr.subst x e n) = .ok m') ↔
        ∃ m, infer (env.insert x t.ty) d n = .ok m) ∧
      (∀ m m', infer (env.insert x t.ty) d n = .ok m → infer env d (Expr.subst x e n) = .ok m' →
        m'.ty = m.ty ∧
          ∀ path p op args, n.nodeAt? path = some (.call p op args) →
            ∃ typed typed' ty, m.nodeAt? path = some (.call p op typed ty) ∧
              m'.nodeAt? path = some (.call p op typed' ty)) ∧
      ∀ f, infer env d (Expr.subst x e n) = .error f ↔
        infer (env.insert x t.ty) d n = .error f := by
  rw [infer_subst_eq he n]
  cases h : infer (env.insert x t.ty) d n with
  | error f => simp [Except.map]
  | ok m =>
    refine ⟨by simp [Except.map], ?_, by simp [Except.map]⟩
    intro m₁ m' hm hm'
    cases hm
    cases hm'
    refine ⟨ty_subst h, ?_⟩
    intro path p op args hpath
    obtain ⟨c, hc, hcall⟩ := infer_nodeAt? h hpath
    obtain ⟨typed, ty, -, -, -, rfl⟩ := infer_call_eq_ok.1 hcall
    have hsubst := Typed.nodeAt?_subst x t hc
    rw [Typed.subst] at hsubst
    exact ⟨typed, Typed.substAll x t typed, ty, hc, hsubst⟩

/-- `A B` in place of `A` in `A A`: the symbol occurs in what replaces it, and the declaration that
it has there would not allow the product. -/
theorem infer_subst_square :
    let env : Env Binary64 :=
      (Bindings.empty.insert (Text.ofString "A") (some (.matrix ⟨2, 3⟩))).insert
        (Text.ofString "B") (some (.matrix ⟨3, 2⟩))
    let e : Expr := .call ⟨1, 3⟩ .mul [.sym ⟨1, 1⟩ "A", .sym ⟨1, 3⟩ "B"]
    let n : Expr := .call ⟨2, 3⟩ .mul [.sym ⟨2, 1⟩ "A", .sym ⟨2, 3⟩ "A"]
    let square : Option (Ty Binary64) := some (.matrix ⟨2, 2⟩)
    (∃ t, infer env .matrix e = .ok t ∧ t.ty = square) ∧ (∃ f, infer env .matrix n = .error f) ∧
      ∃ m', infer env .matrix (Expr.subst (Text.ofString "A") e n) = .ok m' ∧ m'.ty = square := by
  intro env e n square
  have he : infer env .matrix e = .ok (.call ⟨1, 3⟩ .mul
      [.sym ⟨1, 1⟩ "A" (some (.matrix ⟨2, 3⟩)), .sym ⟨1, 3⟩ "B" (some (.matrix ⟨3, 2⟩))]
      (.matrix ⟨2, 2⟩)) := rfl
  have hn : infer (env.insert (Text.ofString "A") square) .matrix n = .ok (.call ⟨2, 3⟩ .mul
      [.sym ⟨2, 1⟩ "A" square, .sym ⟨2, 3⟩ "A" square] (.matrix ⟨2, 2⟩)) := rfl
  obtain ⟨hiff, htypes, -⟩ := infer_subst env .matrix (Text.ofString "A") he n
  obtain ⟨m', hm'⟩ := hiff.2 ⟨_, hn⟩
  exact ⟨⟨_, he, rfl⟩, ⟨_, rfl⟩, m', hm', (htypes _ _ hn hm').1⟩

end ExprTyping
