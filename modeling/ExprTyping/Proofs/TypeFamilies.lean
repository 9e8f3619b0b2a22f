import ExprTyping.Bound.Exact
import ExprTyping.Proofs.Typing

/-!
# The types that inference finds

Every built-in domain has a family of types that its calls work on: shapes, intervals, or the
scalars with a name. A call never leaves the family, and no type that inference finds is ill-formed
unless one was declared, whatever the arithmetic of the bounds does.

- `Ty.IsProper`: the types that are well-formed;
- `LawfulBound`: what is assumed of the bounds, which is only how they are compared;
- `Domain.resolve_matrix_eq_ok`, `Domain.resolve_intervals_eq_ok` and
  `Domain.resolve_scalar_eq_ok`: the calls that a domain knows;
- `infer_families`: the types of a whole tree.
-/

namespace ExprTyping

variable {β : Type} [Bound β]

/-! ## Well-formed types -/

/-- Bounds that compare as numbers do. Nothing is assumed of their arithmetic, which may round,
overflow or have no value. -/
class LawfulBound (β : Type) [Bound β] : Prop where
  /-- Zero is a number. -/
  zero_isNumber : Bound.isNaN (Bound.zero : β) = false
  /-- Numbers are linearly ordered. -/
  le_iff_not_lt {x y : β} : Bound.isNaN x = false → Bound.isNaN y = false →
    (Bound.le x y ↔ ¬ Bound.lt y x)

instance : LawfulBound Binary64 where
  zero_isNumber := rfl
  le_iff_not_lt {x y} hx hy := by
    cases x with
    | nan => cases hx
    | num s k =>
      cases y with
      | nan => cases hy
      | num t l => simp [Bound.le, Bound.lt, Binary64.le, Binary64.lt]

instance : LawfulBound Exact where
  zero_isNumber := rfl
  le_iff_not_lt {x y} hx hy := by
    cases x with
    | undefined => cases hx
    | fin p =>
      cases y with
      | fin q =>
        show decide (p ≤ q) ↔ ¬ decide (q < p)
        rw [decide_eq_true_iff, decide_eq_true_iff, Rat.not_lt]
      | undefined => cases hy
      | _ => simp [Bound.le, Bound.lt, Exact.le, Exact.lt]
    | _ =>
      cases y with
      | undefined => cases hy
      | _ => simp [Bound.le, Bound.lt, Exact.le, Exact.lt]

/-- Whether the bounds of an interval are numbers that ascend from zero or above. -/
def Interval.Ascends (iv : Interval β) : Prop :=
  Bound.isNaN iv.low = false ∧ Bound.isNaN iv.high = false ∧ Bound.le Bound.zero iv.low ∧
    Bound.lt iv.low iv.high

/-- The scalar types with a name of their own. -/
def Ty.IsScalar (ty : Ty β) : Prop :=
  ty = .int ∨ ty = .real ∨ ty = .bool

/-- Whether a type is well-formed. -/
def Ty.IsProper : Ty β → Prop
  | .scalar name => (Ty.scalar name : Ty β).IsScalar
  | .matrix s => 0 < s.rows ∧ 0 < s.cols
  | .interval iv => iv.Ascends

theorem Interval.ascends_of_validBounds [LawfulBound β] {iv : Interval β}
    (h : validBounds iv.low iv.high) : iv.Ascends := by
  simp only [validBounds, Bool.not_eq_true', Bool.or_eq_false_iff] at h
  obtain ⟨⟨⟨hlow, hhigh⟩, hneg⟩, hle⟩ := h
  refine ⟨hlow, hhigh, ?_, ?_⟩
  · rw [LawfulBound.le_iff_not_lt LawfulBound.zero_isNumber hlow, hneg]
    exact Bool.false_ne_true
  · have hlt := LawfulBound.le_iff_not_lt hhigh hlow
    simpa [hle] using hlt

/-! ## The calls that a domain knows -/

namespace Shape

theorem entrywise_eq_ok {op : String} {a b c : Shape}
    (h : (entrywise op a b : Except (TypeError β) Shape) = .ok c) :
    c.rows = a.rows ∧ c.cols = b.cols := by
  unfold entrywise at h
  split at h
  · next hab =>
    cases h
    exact ⟨rfl, by rw [hab]⟩
  · cases h

theorem mul_eq_ok {a b c : Shape} (h : (a.mul b : Except (TypeError β) Shape) = .ok c) :
    c.rows = a.rows ∧ c.cols = b.cols := by
  unfold mul at h
  split at h
  · cases h
    exact ⟨rfl, rfl⟩
  · cases h

end Shape

namespace Interval

theorem validBounds_of_derive {op : String} {a b c : Interval β} {low high : β} {il ih : Bool}
    (h : derive op a b low high il ih = .ok c) : validBounds c.low c.high := by
  unfold derive at h
  split at h
  · next hvalid =>
    cases h
    exact hvalid
  · cases h

theorem validBounds_of_div {a b c : Interval β} (h : a.div b = .ok c) :
    validBounds c.low c.high := by
  unfold div at h
  dsimp only at h
  split at h
  · cases h
  · split at h
    · cases h
    · exact validBounds_of_derive h

end Interval

namespace Domain

omit [Bound β] in
theorem map_some_eq_ok {α : Type} {r : Except (TypeError β) α} {f : α → Ty β} {ty : Ty β}
    (h : (r.map fun a => some (f a)) = .ok (some ty)) : ∃ a, r = .ok a ∧ ty = f a := by
  cases r with
  | error e => cases h
  | ok a =>
    cases h
    exact ⟨a, rfl, rfl⟩

variable {op : Op} {tys : List (Option (Ty β))} {ty : Ty β}

/-- The matrix domain knows sums, differences and products of two matrices. The result has the rows
of the first one and the columns of the second one. -/
theorem resolve_matrix_eq_ok (h : matrix.resolve op tys = .ok (some ty)) :
    op ∈ [.add, .sub, .mul] ∧ ∃ a b c, tys = [some (.matrix a), some (.matrix b)] ∧
      ty = .matrix c ∧ c.rows = a.rows ∧ c.cols = b.cols := by
  change resolveMatrix op tys = _ at h
  unfold resolveMatrix at h
  split at h
  next a b =>
    obtain ⟨c, hc, rfl⟩ := map_some_eq_ok h
    exact ⟨by simp, a, b, c, rfl, rfl, Shape.entrywise_eq_ok hc⟩
  next a b =>
    obtain ⟨c, hc, rfl⟩ := map_some_eq_ok h
    exact ⟨by simp, a, b, c, rfl, rfl, Shape.entrywise_eq_ok hc⟩
  next a b =>
    obtain ⟨c, hc, rfl⟩ := map_some_eq_ok h
    exact ⟨by simp, a, b, c, rfl, rfl, Shape.mul_eq_ok hc⟩
  next => cases h

/-- The interval domain knows sums, differences and quotients of two intervals. The bounds of the
result have passed the check that every interval has to pass. -/
theorem resolve_intervals_eq_ok (h : interval.resolve op tys = .ok (some ty)) :
    op ∈ [.add, .sub, .truediv] ∧ ∃ a b c, tys = [some (.interval a), some (.interval b)] ∧
      ty = .interval c ∧ Interval.validBounds c.low c.high := by
  change resolveInterval op tys = _ at h
  unfold resolveInterval at h
  split at h
  next a b =>
    obtain ⟨c, hc, rfl⟩ := map_some_eq_ok h
    exact ⟨by simp, a, b, c, rfl, rfl, Interval.validBounds_of_derive hc⟩
  next a b =>
    obtain ⟨c, hc, rfl⟩ := map_some_eq_ok h
    exact ⟨by simp, a, b, c, rfl, rfl, Interval.validBounds_of_derive hc⟩
  next a b =>
    obtain ⟨c, hc, rfl⟩ := map_some_eq_ok h
    exact ⟨by simp, a, b, c, rfl, rfl, Interval.validBounds_of_div hc⟩
  next => cases h

end Domain

/-! ## The scalar table -/

section Table

omit [Bound β]

/-- Whether a signature is one of scalars, with as many operands as its operator takes. -/
def Signature.IsScalar (sig : Signature β) : Prop :=
  sig.args.length = sig.op.arity ∧ (∀ ty ∈ sig.args, ∃ τ ∈ ty, Ty.IsScalar τ) ∧
    ∃ τ ∈ sig.result, Ty.IsScalar τ

namespace Domain

theorem isScalar_numericPairs {op : Op} {result : Ty β} (hop : op.arity = 2)
    (hresult : result.IsScalar) : ∀ sig ∈ numericPairs op result, sig.IsScalar := by
  intro sig h
  simp only [numericPairs, List.mem_cons, List.not_mem_nil, or_false] at h
  rcases h with rfl | rfl | rfl | rfl
  all_goals exact ⟨hop.symm, by simp [Ty.IsScalar], result, rfl, hresult⟩

theorem isScalar_scalarRegistry : ∀ sig ∈ scalarRegistry (β := β), sig.IsScalar := by
  intro sig h
  simp only [scalarRegistry, List.mem_append, List.mem_flatMap] at h
  rcases h with (⟨op, hop, h⟩ | ⟨op, hop, h⟩) | h
  · refine isScalar_numericPairs ?_ (.inr (.inl rfl)) sig h
    simp only [List.mem_cons, List.not_mem_nil, or_false] at hop
    rcases hop with rfl | rfl | rfl | rfl <;> rfl
  · refine isScalar_numericPairs ?_ (.inr (.inr rfl)) sig h
    simp only [List.mem_cons, List.not_mem_nil, or_false] at hop
    rcases hop with rfl | rfl | rfl | rfl | rfl | rfl <;> rfl
  · simp only [List.mem_cons, List.not_mem_nil, or_false] at h
    rcases h with rfl | rfl | rfl | rfl | rfl | rfl | rfl
    all_goals exact ⟨rfl, by simp [Ty.IsScalar], by simp [Ty.IsScalar]⟩

end Domain

end Table

namespace Ty

/-- Only a scalar type denotes the same as a scalar type. -/
theorem eq_of_same {name : String} {b : Ty β} (h : (scalar name).same b) : b = .scalar name := by
  cases b with
  | scalar other =>
    rw [same, beq_iff_eq] at h
    rw [h]
  | _ => cases h

theorem eq_of_sameOption {a b : Option (Ty β)} (ha : ∃ τ ∈ a, τ.IsScalar) (h : sameOption a b) :
    b = a := by
  obtain ⟨τ, rfl, hτ⟩ := ha
  cases b with
  | none => cases h
  | some b => rcases hτ with rfl | rfl | rfl <;> exact congrArg some (eq_of_same h)

theorem eq_of_sameAll {as : List (Option (Ty β))} (has : ∀ a ∈ as, ∃ τ ∈ a, IsScalar τ)
    {bs : List (Option (Ty β))} (h : sameAll as bs) : bs = as := by
  induction as generalizing bs with
  | nil =>
    cases bs with
    | nil => rfl
    | cons b bs => cases h
  | cons a as ih =>
    cases bs with
    | nil => cases h
    | cons b bs =>
      rw [sameAll, Bool.and_eq_true] at h
      rw [List.forall_mem_cons] at has
      rw [eq_of_sameOption has.1 h.1, ih has.2 h.2]

end Ty

/-- The scalar domain knows calls of scalars, with as many operands as the operator takes. -/
theorem Domain.resolve_scalar_eq_ok {op : Op} {tys : List (Option (Ty β))} {ty : Ty β}
    (h : scalar.resolve op tys = .ok (some ty)) :
    tys.length = op.arity ∧ (∀ a ∈ tys, ∃ τ ∈ a, Ty.IsScalar τ) ∧ ty.IsScalar := by
  change resolveTable scalarRegistry op tys = _ at h
  unfold resolveTable Registry.lookup at h
  cases hfind : scalarRegistry.find? fun sig => sig.op == op && Ty.sameAll sig.args tys with
  | none =>
    rw [hfind] at h
    cases h
  | some sig =>
    rw [hfind] at h
    -- The entry that was found denotes the same types as the call has, and scalars are then equal.
    have hsame := List.find?_some hfind
    obtain ⟨hlength, hargs, τ, hτ, hresult⟩ :=
      isScalar_scalarRegistry sig (List.mem_of_find?_eq_some hfind)
    simp only [Bool.and_eq_true, beq_iff_eq] at hsame
    obtain ⟨rfl, hsame⟩ := hsame
    rw [Ty.eq_of_sameAll hargs hsame]
    change Except.ok sig.result = _ at h
    rw [Option.mem_def.1 hτ] at h
    cases h
    exact ⟨hlength, hargs, hresult⟩

/-! ## Trees -/

namespace Typed

section Nodes

omit [Bound β]

/-- Whether a node has nothing below it by its kind. -/
def isLeaf : Typed β → Bool
  | .call _ _ _ _ => false
  | _ => true

theorem self_mem_nodes (t : Typed β) : t ∈ t.nodes := by
  cases t <;> simp [nodes]

mutual

/-- What is below a node of a tree is in the tree. -/
theorem nodes_trans : ∀ (t : Typed β) {m n : Typed β}, m ∈ t.nodes → n ∈ m.nodes → n ∈ t.nodes
  | .lit p l ty, m, n, hm, hn => by
    rw [nodes, List.mem_singleton] at hm
    rwa [hm] at hn
  | .sym p name ty, m, n, hm, hn => by
    rw [nodes, List.mem_singleton] at hm
    rwa [hm] at hn
  | .call p op args ty, m, n, hm, hn => by
    rw [nodes, List.mem_cons] at hm
    rcases hm with rfl | hm
    · exact hn
    · rw [nodes]
      exact List.mem_cons_of_mem _ (nodesAll_trans args hm hn)

theorem nodesAll_trans : ∀ (ts : List (Typed β)) {m n : Typed β}, m ∈ nodesAll ts → n ∈ m.nodes →
    n ∈ nodesAll ts
  | [], m, n, hm, hn => by simp [nodesAll] at hm
  | t :: ts, m, n, hm, hn => by
    rw [nodesAll, List.mem_append] at hm ⊢
    exact hm.imp (nodes_trans t · hn) (nodesAll_trans ts · hn)

end

mutual

/-- Every node of a tree other than its root is an argument of a call in it. -/
theorem argument_of_mem_nodes : ∀ (t : Typed β) {n : Typed β}, n ∈ t.nodes →
    n = t ∨ ∃ p op args ty, .call p op args ty ∈ t.nodes ∧ n ∈ args
  | .lit p l ty, n, h => by
    rw [nodes, List.mem_singleton] at h
    exact .inl h
  | .sym p name ty, n, h => by
    rw [nodes, List.mem_singleton] at h
    exact .inl h
  | .call p op args ty, n, h => by
    rw [nodes, List.mem_cons] at h
    refine h.imp_right fun h => ?_
    rcases argument_of_mem_nodesAll args h with h | ⟨q, op', args', ty', hcall, h⟩
    · exact ⟨p, op, args, ty, self_mem_nodes _, h⟩
    · rw [nodes]
      exact ⟨q, op', args', ty', List.mem_cons_of_mem _ hcall, h⟩

theorem argument_of_mem_nodesAll : ∀ (ts : List (Typed β)) {n : Typed β}, n ∈ nodesAll ts →
    n ∈ ts ∨ ∃ p op args ty, .call p op args ty ∈ nodesAll ts ∧ n ∈ args
  | [], n, h => by simp [nodesAll] at h
  | t :: ts, n, h => by
    rw [nodesAll, List.mem_append] at h
    simp only [nodesAll, List.mem_append, List.mem_cons]
    rcases h with h | h
    · rcases argument_of_mem_nodes t h with rfl | ⟨p, op, args, ty, hcall, h⟩
      · exact .inl (.inl rfl)
      · exact .inr ⟨p, op, args, ty, .inl hcall, h⟩
    · rcases argument_of_mem_nodesAll ts h with h | ⟨p, op, args, ty, hcall, h⟩
      · exact .inl (.inr h)
      · exact .inr ⟨p, op, args, ty, .inr hcall, h⟩

end

end Nodes

end Typed

/-! ## Families -/

/-- Whether a domain knows only calls on types of a family, with results in it. -/
def Domain.WorksOn (d : Domain β) (family : Ty β → Prop) : Prop :=
  ∀ op tys ty, d.resolve op tys = .ok (some ty) → (∀ a ∈ tys, ∃ τ ∈ a, family τ) ∧ family ty

section Families

variable {env : Env β} {d : Domain β} {e : Expr} {t : Typed β} {p : Pos} {op : Op}
  {args : List (Typed β)} {ty : Ty β}

theorem resolve_of_mem_nodes (h : infer env d e = .ok t) (hcall : .call p op args ty ∈ t.nodes) :
    d.resolve op (args.map Typed.ty) = .ok (some ty) := by
  have hnode := infer_node e t h _ hcall
  rw [Typed.erase] at hnode
  obtain ⟨typed, ty', -, -, hresolve, heq⟩ := infer_call_eq_ok.1 hnode
  cases heq
  exact hresolve

variable {family : Ty β → Prop}

/-- A call in a typed tree has its types and all those below it in the family of the domain. -/
theorem Domain.WorksOn.nodes (hd : d.WorksOn family) (h : infer env d e = .ok t)
    (hcall : .call p op args ty ∈ t.nodes) :
    ∀ n ∈ (Typed.call p op args ty).nodes, ∃ τ ∈ n.ty, family τ := by
  intro n hn
  rcases Typed.argument_of_mem_nodes _ hn with rfl | ⟨q, op', args', ty', hcall', harg⟩
  · exact ⟨ty, rfl, (hd _ _ _ (resolve_of_mem_nodes h hcall)).2⟩
  · -- Below the call, every node is an operand of a call, and operands are in the family.
    have hresolve := resolve_of_mem_nodes h (Typed.nodes_trans t hcall hcall')
    exact (hd _ _ _ hresolve).1 n.ty (List.mem_map_of_mem harg)

/-- Where literals are not in the family of the domain, the leaves below a call are symbols that
were declared with a type of the family. -/
theorem Domain.WorksOn.leaf (hd : d.WorksOn family) (hint : ¬ family .int) (hreal : ¬ family .real)
    (h : infer env d e = .ok t) (hcall : .call p op args ty ∈ t.nodes) :
    ∀ n ∈ Typed.nodesAll args, n.isLeaf →
      ∃ q name τ, n = .sym q name (some τ) ∧ env.get? name = some (some τ) ∧ family τ := by
  intro n hn hleaf
  have hbelow : n ∈ (Typed.call p op args ty).nodes := by
    rw [Typed.nodes]
    exact List.mem_cons_of_mem _ hn
  obtain ⟨τ, hτ, hfamily⟩ := hd.nodes h hcall n hbelow
  have hnode := infer_node e t h n (Typed.nodes_trans t hcall hbelow)
  cases n with
  | lit q l ty' =>
    cases hτ
    cases hnode
    rcases l.ty_eq_or (β := β) with hl | hl
    · exact absurd (hl ▸ hfamily) hint
    · exact absurd (hl ▸ hfamily) hreal
  | sym q name ty' =>
    obtain ⟨found, hget, heq⟩ := infer_sym_eq_ok.1 hnode
    cases heq
    cases hτ
    exact ⟨q, name, τ, rfl, hget, hfamily⟩
  | call q op' args' ty' => cases hleaf

end Families

/-- Whether a type is that of a matrix. -/
def Ty.IsMatrix (ty : Ty β) : Prop :=
  ∃ shape, ty = .matrix shape

/-- Whether a type is an interval. -/
def Ty.IsInterval (ty : Ty β) : Prop :=
  ∃ iv, ty = .interval iv

namespace Domain

theorem worksOn_matrix : (matrix : Domain β).WorksOn Ty.IsMatrix := by
  intro op tys ty h
  obtain ⟨-, a, b, c, rfl, rfl, -⟩ := resolve_matrix_eq_ok h
  exact ⟨by simp [Ty.IsMatrix], c, rfl⟩

theorem worksOn_interval : (interval : Domain β).WorksOn Ty.IsInterval := by
  intro op tys ty h
  obtain ⟨-, a, b, c, rfl, rfl, -⟩ := resolve_intervals_eq_ok h
  exact ⟨by simp [Ty.IsInterval], c, rfl⟩

theorem worksOn_scalar : (scalar : Domain β).WorksOn Ty.IsScalar :=
  fun _ _ _ h => (resolve_scalar_eq_ok h).2

end Domain

/-! ## Types stay well-formed -/

omit [Bound β] in
theorem Ty.IsScalar.isProper [Bound β] {ty : Ty β} (h : ty.IsScalar) : ty.IsProper := by
  rcases h with rfl | rfl | rfl
  · exact .inl rfl
  · exact .inr (.inl rfl)
  · exact .inr (.inr rfl)

/-- A built-in domain gives well-formed types on well-formed ones. -/
theorem Domain.isProper_of_resolve [LawfulBound β] {d : Domain β} (hd : d ∈ builtin) {op : Op}
    {tys : List (Option (Ty β))} (htys : ∀ a ∈ tys, ∃ τ ∈ a, Ty.IsProper τ) {ty : Ty β}
    (h : d.resolve op tys = .ok (some ty)) : ty.IsProper := by
  simp only [builtin, List.mem_cons, List.not_mem_nil, or_false] at hd
  rcases hd with rfl | rfl | rfl
  · -- The result of an interval operation is checked, whatever the operands were.
    obtain ⟨-, a, b, c, -, rfl, hvalid⟩ := resolve_intervals_eq_ok h
    exact Interval.ascends_of_validBounds hvalid
  · -- The result of a matrix operation is not checked: its dimensions are those of the operands.
    obtain ⟨-, a, b, c, rfl, rfl, hrows, hcols⟩ := resolve_matrix_eq_ok h
    obtain ⟨_, ha, ha'⟩ := htys (some (.matrix a)) (by simp)
    obtain ⟨_, hb, hb'⟩ := htys (some (.matrix b)) (by simp)
    cases ha
    cases hb
    exact ⟨hrows ▸ ha'.1, hcols ▸ hb'.2⟩
  · exact (resolve_scalar_eq_ok h).2.2.isProper

/-- Whether all symbols are declared with well-formed types. -/
def Env.IsProper (env : Env β) : Prop :=
  ∀ name ty, env.get? name = some ty → ∃ τ ∈ ty, Ty.IsProper τ

theorem Env.isProper_empty : Env.IsProper (.empty : Env β) := by
  intro name ty h
  cases h

theorem Env.IsProper.insert {env : Env β} (h : env.IsProper) (name : Text) {ty : Ty β}
    (hty : ty.IsProper) : Env.IsProper (env.insert name (some ty)) := by
  intro other found hget
  rw [Bindings.get?_insert] at hget
  split at hget
  · cases hget
    exact ⟨ty, rfl, hty⟩
  · exact h other found hget

mutual

/-- The type that inference finds is well-formed. -/
theorem infer_isProper [LawfulBound β] {env : Env β} (henv : env.IsProper) {d : Domain β}
    (hd : d ∈ Domain.builtin) : ∀ (e : Expr) (t : Typed β), infer env d e = .ok t →
      ∃ τ ∈ t.ty, τ.IsProper
  | .lit p l, t, h => by
    cases h
    refine ⟨l.ty, rfl, ?_⟩
    rcases l.ty_eq_or (β := β) with hl | hl
    · rw [hl]
      exact .inl rfl
    · rw [hl]
      exact .inr (.inl rfl)
  | .sym p name, t, h => by
    obtain ⟨ty, hget, rfl⟩ := infer_sym_eq_ok.1 h
    exact henv name ty hget
  | .call p op args, t, h => by
    obtain ⟨typed, ty, hargs, -, hresolve, rfl⟩ := infer_call_eq_ok.1 h
    have htys := inferAll_isProper henv hd args typed hargs
    exact ⟨ty, rfl, Domain.isProper_of_resolve hd htys hresolve⟩
  | .missing, t, h => by cases h

/-- The types that inference finds are well-formed. -/
theorem inferAll_isProper [LawfulBound β] {env : Env β} (henv : env.IsProper) {d : Domain β}
    (hd : d ∈ Domain.builtin) : ∀ (es : List Expr) (ts : List (Typed β)),
      inferAll env d es = .ok ts → ∀ ty ∈ ts.map Typed.ty, ∃ τ ∈ ty, τ.IsProper
  | [], ts, h => by
    cases h
    simp
  | e :: es, ts, h => by
    obtain ⟨t, rest, ht, hrest, rfl⟩ := inferAll_cons_eq_ok.1 h
    rw [List.map_cons, List.forall_mem_cons]
    exact ⟨infer_isProper henv hd e t ht, inferAll_isProper henv hd es rest hrest⟩

end

/-- Under declarations of well-formed types, every type in a tree that a built-in domain types is
well-formed. Calls stay in the family of the domain, with everything below them: in the matrix and
the interval domain they apply one of three operators to two operands that are built from symbols
of the family alone, and in the scalar domain they have as many operands as their operator takes. -/
theorem infer_families [LawfulBound β] {env : Env β} (henv : env.IsProper) {d : Domain β}
    (hd : d ∈ Domain.builtin) {e : Expr} {t : Typed β} (h : infer env d e = .ok t) :
    (∀ n ∈ t.nodes, ∃ τ ∈ n.ty, τ.IsProper) ∧
      ∀ p op args ty, .call p op args ty ∈ t.nodes →
        (d = .matrix → op ∈ [.add, .sub, .mul] ∧ args.length = 2 ∧ ty.IsMatrix ∧
          ∀ n ∈ Typed.nodesAll args, n.isLeaf → ∃ q name τ, n = .sym q name (some τ) ∧
            env.get? name = some (some τ) ∧ τ.IsMatrix) ∧
        (d = .interval → op ∈ [.add, .sub, .truediv] ∧ args.length = 2 ∧ ty.IsInterval ∧
          ∀ n ∈ Typed.nodesAll args, n.isLeaf → ∃ q name τ, n = .sym q name (some τ) ∧
            env.get? name = some (some τ) ∧ τ.IsInterval) ∧
        (d = .scalar → args.length = op.arity ∧ ty.IsScalar ∧
          ∀ n ∈ Typed.nodesAll args, ∃ τ ∈ n.ty, τ.IsScalar) := by
  -- Every node is what inference finds for the tree below it, so one statement covers them all.
  refine ⟨fun n hn => infer_isProper henv hd n.erase n (infer_node e t h n hn), ?_⟩
  intro p op args ty hcall
  have hresolve := resolve_of_mem_nodes h hcall
  refine ⟨?_, ?_, ?_⟩
  · rintro rfl
    obtain ⟨hop, a, b, c, htys, hty, -⟩ := Domain.resolve_matrix_eq_ok hresolve
    have hlength : args.length = 2 := by simpa using congrArg List.length htys
    exact ⟨hop, hlength, ⟨c, hty⟩, Domain.worksOn_matrix.leaf nofun nofun h hcall⟩
  · rintro rfl
    obtain ⟨hop, a, b, c, htys, hty, -⟩ := Domain.resolve_intervals_eq_ok hresolve
    have hlength : args.length = 2 := by simpa using congrArg List.length htys
    exact ⟨hop, hlength, ⟨c, hty⟩, Domain.worksOn_interval.leaf nofun nofun h hcall⟩
  · rintro rfl
    obtain ⟨hlength, -, hty⟩ := Domain.resolve_scalar_eq_ok hresolve
    rw [List.length_map] at hlength
    refine ⟨hlength, hty, fun n hn => Domain.worksOn_scalar.nodes h hcall n ?_⟩
    rw [Typed.nodes]
    exact List.mem_cons_of_mem _ hn

/-- In `x + x / y` with unbounded operands, the quotient is an interval that is open at zero. -/
theorem infer_families_quotient :
    let x : Interval Binary64 := ⟨.zero, .infinity, true, false⟩
    let y : Interval Binary64 := ⟨.zero, .infinity, false, false⟩
    let env : Env Binary64 :=
      (Bindings.empty.insert (Text.ofString "x") (some (.interval x))).insert (Text.ofString "y")
        (some (.interval y))
    let quotient : Typed Binary64 := .call ⟨1, 7⟩ .truediv
      [.sym ⟨1, 5⟩ "x" (some (.interval x)), .sym ⟨1, 9⟩ "y" (some (.interval y))] (.interval y)
    let t : Typed Binary64 :=
      .call ⟨1, 3⟩ .add [.sym ⟨1, 1⟩ "x" (some (.interval x)), quotient] (.interval y)
    env.IsProper ∧ infer env .interval t.erase = .ok t ∧ (∃ τ ∈ quotient.ty, τ.IsProper) := by
  intro x y env quotient t
  have hx : (Ty.interval x).IsProper := ⟨rfl, rfl, by decide, by decide⟩
  have hy : (Ty.interval y).IsProper := ⟨rfl, rfl, by decide, by decide⟩
  have henv : env.IsProper := (Env.isProper_empty.insert _ hx).insert _ hy
  have h : infer env .interval t.erase = .ok t := rfl
  have hproper := (infer_families henv (by simp [Domain.builtin]) h).1
  exact ⟨henv, h, hproper quotient (by simp [t, Typed.nodes, Typed.nodesAll, quotient])⟩

end ExprTyping
