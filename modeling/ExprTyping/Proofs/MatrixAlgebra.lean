import Mathlib.Data.List.Chain
import ExprTyping.Proofs.TypeFamilies

/-!
# Shapes and matrix algebra

The matrix domain checks each call on its own, by the shapes of its two operands. Together these
local checks respect the laws of matrix algebra: a product of many factors needs adjacent dimensions
that agree, however it is bracketed; a sum needs equal shapes, however it is ordered and bracketed;
and products distribute over sums.

- `inferType?`: the type of an expression, if inference succeeds;
- `Combines`: the bracketings of a list of expressions;
- `inferType?_mul` and `inferType?_entrywise`: the check at one call;
- `Combines.inferType?_product` and `Combines.inferType?_sum`: what follows for all bracketings;
- `infer_matrixAlgebra`: the laws together.
-/

namespace ExprTyping

variable {β : Type} [Bound β]

/-- The type that inference finds for an expression, if it succeeds. -/
def inferType? (env : Env β) (d : Domain β) (e : Expr) : Option (Option (Ty β)) :=
  (infer env d e).toOption.map Typed.ty

/-- Whether inference in the matrix domain finds this shape for an expression. -/
def HasShape (env : Env β) (e : Expr) (s : Shape) : Prop :=
  inferType? env .matrix e = some (some (.matrix s))

/-- The expression `tree` combines the expressions `es`, from left to right, by calls of operators
`ops` with two operands each. -/
inductive Combines (ops : List Op) : List Expr → Expr → Prop
  /-- One expression is its own combination. -/
  | leaf (e : Expr) : Combines ops [e] e
  /-- Two combinations are combined by a call. -/
  | call (p : Pos) {op : Op} {ls rs : List Expr} {l r : Expr} :
      op ∈ ops → Combines ops ls l → Combines ops rs r →
      Combines ops (ls ++ rs) (.call p op [l, r])

variable {env : Env β} {d : Domain β}

/-! ## One call -/

theorem inferType?_eq_some {e : Expr} {ty : Option (Ty β)} :
    inferType? env d e = some ty ↔ ∃ t, infer env d e = .ok t ∧ t.ty = ty := by
  unfold inferType?
  cases infer env d e <;> simp [Except.toOption]

/-- A call with two operands has the type that the domain gives it on their types. -/
theorem inferType?_pair {p : Pos} {op : Op} {l r : Expr} {ty : Option (Ty β)} :
    inferType? env d (.call p op [l, r]) = some ty ↔
      ∃ a b τ, inferType? env d l = some a ∧ inferType? env d r = some b ∧ op.isKnown ∧
        d.resolve op [a, b] = .ok (some τ) ∧ ty = some τ := by
  simp only [inferType?_eq_some]
  constructor
  · rintro ⟨t, ht, rfl⟩
    obtain ⟨typed, τ, hargs, hop, hresolve, rfl⟩ := infer_call_eq_ok.1 ht
    obtain ⟨tl, _, hl, hrest, rfl⟩ := inferAll_cons_eq_ok.1 hargs
    obtain ⟨tr, _, hr, hnil, rfl⟩ := inferAll_cons_eq_ok.1 hrest
    cases hnil
    exact ⟨tl.ty, tr.ty, τ, ⟨tl, hl, rfl⟩, ⟨tr, hr, rfl⟩, hop, hresolve, rfl⟩
  · rintro ⟨_, _, τ, ⟨tl, hl, rfl⟩, ⟨tr, hr, rfl⟩, hop, hresolve, rfl⟩
    have hargs : inferAll env d [l, r] = .ok [tl, tr] := by simp [inferAll, hl, hr]
    exact ⟨_, infer_call_eq_ok.2 ⟨[tl, tr], τ, hargs, hop, hresolve, rfl⟩, rfl⟩

namespace Shape

variable {a b c : Shape}

theorem eq_of_dimensions (hrows : a.rows = b.rows) (hcols : a.cols = b.cols) : a = b := by
  cases a
  cases b
  simp_all

theorem mul_eq_ok_iff : (a.mul b : Except (TypeError β) Shape) = .ok c ↔
    a.cols = b.rows ∧ c = ⟨a.rows, b.cols⟩ := by
  unfold mul
  split <;> simp_all [eq_comm]

theorem entrywise_eq_ok_iff {op : String} :
    (entrywise op a b : Except (TypeError β) Shape) = .ok c ↔ a = b ∧ a = c := by
  unfold entrywise
  split <;> simp_all

end Shape

namespace Domain

variable {x y : Option (Ty β)} {τ : Ty β}

theorem resolve_mul_eq_ok : matrix.resolve .mul [x, y] = .ok (some τ) ↔
    ∃ a b : Shape, x = some (.matrix a) ∧ y = some (.matrix b) ∧ a.cols = b.rows ∧
      τ = .matrix ⟨a.rows, b.cols⟩ := by
  constructor
  · intro h
    obtain ⟨-, a, b, -, hpair, -⟩ := resolve_matrix_eq_ok h
    cases hpair
    obtain ⟨c, hc, rfl⟩ := map_some_eq_ok h
    obtain ⟨hdim, rfl⟩ := Shape.mul_eq_ok_iff.1 hc
    exact ⟨a, b, rfl, rfl, hdim, rfl⟩
  · rintro ⟨a, b, rfl, rfl, hdim, rfl⟩
    have hc : (a.mul b : Except (TypeError β) Shape) = .ok ⟨a.rows, b.cols⟩ :=
      Shape.mul_eq_ok_iff.2 ⟨hdim, rfl⟩
    simp [matrix, resolveMatrix, hc, Except.map]

theorem resolve_entrywise_eq_ok {op : Op} (hop : op ∈ [Op.add, .sub]) :
    matrix.resolve op [x, y] = .ok (some τ) ↔
      ∃ a : Shape, x = some (.matrix a) ∧ y = some (.matrix a) ∧ τ = .matrix a := by
  simp only [List.mem_cons, List.not_mem_nil, or_false] at hop
  constructor
  · intro h
    obtain ⟨-, a, b, -, hpair, -⟩ := resolve_matrix_eq_ok h
    cases hpair
    -- Sums and differences share the check and differ only in the name that an error shows.
    obtain ⟨name, c, hc, rfl⟩ : ∃ name c,
        (Shape.entrywise name a b : Except (TypeError β) Shape) = .ok c ∧ τ = .matrix c := by
      rcases hop with rfl | rfl <;> exact ⟨_, map_some_eq_ok h⟩
    obtain ⟨rfl, rfl⟩ := Shape.entrywise_eq_ok_iff.1 hc
    exact ⟨a, rfl, rfl, rfl⟩
  · rintro ⟨a, rfl, rfl, rfl⟩
    rcases hop with rfl | rfl <;>
      simp [matrix, resolveMatrix, Shape.add, Shape.sub, Shape.entrywise, Except.map]

end Domain

variable {p : Pos} {l r : Expr}

/-- A product needs as many columns on the left as there are rows on the right. -/
theorem inferType?_mul {ty : Option (Ty β)} :
    inferType? env .matrix (.call p .mul [l, r]) = some ty ↔
      ∃ a b, HasShape env l a ∧ HasShape env r b ∧ a.cols = b.rows ∧
        ty = some (.matrix ⟨a.rows, b.cols⟩) := by
  rw [inferType?_pair]
  constructor
  · rintro ⟨_, _, _, hl, hr, -, hresolve, rfl⟩
    obtain ⟨a, b, rfl, rfl, hdim, rfl⟩ := Domain.resolve_mul_eq_ok.1 hresolve
    exact ⟨a, b, hl, hr, hdim, rfl⟩
  · rintro ⟨a, b, hl, hr, hdim, rfl⟩
    exact ⟨_, _, _, hl, hr, rfl, Domain.resolve_mul_eq_ok.2 ⟨a, b, rfl, rfl, hdim, rfl⟩, rfl⟩

/-- A sum or a difference needs equal shapes and keeps them. -/
theorem inferType?_entrywise {op : Op} (hop : op ∈ [Op.add, .sub]) {ty : Option (Ty β)} :
    inferType? env .matrix (.call p op [l, r]) = some ty ↔
      ∃ a, HasShape env l a ∧ HasShape env r a ∧ ty = some (.matrix a) := by
  have hknown : op.isKnown := by
    simp only [List.mem_cons, List.not_mem_nil, or_false] at hop
    rcases hop with rfl | rfl <;> rfl
  rw [inferType?_pair]
  constructor
  · rintro ⟨_, _, _, hl, hr, -, hresolve, rfl⟩
    obtain ⟨a, rfl, rfl, rfl⟩ := (Domain.resolve_entrywise_eq_ok hop).1 hresolve
    exact ⟨a, hl, hr, rfl⟩
  · rintro ⟨a, hl, hr, rfl⟩
    exact ⟨_, _, _, hl, hr, hknown, (Domain.resolve_entrywise_eq_ok hop).2 ⟨a, rfl, rfl, rfl⟩, rfl⟩

/-- Inference is a function, so an expression has one shape at most. -/
theorem HasShape.unique {e : Expr} {s s' : Shape} (h : HasShape env e s) (h' : HasShape env e s') :
    s = s' := by
  have : some (some (Ty.matrix s : Ty β)) = some (some (.matrix s')) := h.symm.trans h'
  simpa using this

theorem hasShape_mul {s : Shape} : HasShape env (.call p .mul [l, r]) s ↔
    ∃ a b, HasShape env l a ∧ HasShape env r b ∧ a.cols = b.rows ∧ s = ⟨a.rows, b.cols⟩ := by
  rw [HasShape, inferType?_mul]
  simp

theorem hasShape_add {s : Shape} : HasShape env (.call p .add [l, r]) s ↔
    HasShape env l s ∧ HasShape env r s := by
  rw [HasShape, inferType?_entrywise (by simp)]
  constructor
  · rintro ⟨a, hl, hr, hs⟩
    cases hs
    exact ⟨hl, hr⟩
  · rintro ⟨hl, hr⟩
    exact ⟨s, hl, hr, rfl⟩

/-! ## Bracketings -/

namespace Combines

variable {shape : Expr → Shape} {ops : List Op} {es : List Expr} {tree : Expr}

theorem ne_nil (h : Combines ops es tree) : es ≠ [] := by
  induction h with
  | leaf e => simp
  | call p hop hl hr ihl ihr => simp [ihl]

/-- However a product is bracketed, it needs adjacent dimensions that agree along all its factors,
and it has the rows of the first and the columns of the last one. -/
theorem inferType?_product (h : Combines [.mul] es tree) (hes : ∀ e ∈ es, HasShape env e (shape e))
    (hne : es ≠ []) (ty : Option (Ty β)) :
    inferType? env .matrix tree = some ty ↔
      es.IsChain (fun e e' => (shape e).cols = (shape e').rows) ∧
        ty = some (.matrix ⟨(shape (es.head hne)).rows, (shape (es.getLast hne)).cols⟩) := by
  -- Over the bracketing: the two halves of a call are chains of their own.
  induction h generalizing ty with
  | leaf e =>
    have he : inferType? env .matrix e = some (some (.matrix (shape e))) := hes e (by simp)
    simp [he, eq_comm]
  | @call p op ls rs l r hop hl hr ihl ihr =>
    obtain rfl : op = .mul := by simpa using hop
    rw [List.forall_mem_append] at hes
    have hleft (a : Shape) := ihl hes.1 hl.ne_nil (some (.matrix a))
    have hright (b : Shape) := ihr hes.2 hr.ne_nil (some (.matrix b))
    simp only [Option.some.injEq, Ty.matrix.injEq] at hleft hright
    -- The check at this call compares the last factor on the left with the first one on the right.
    have hjoint : (∀ e ∈ ls.getLast?, ∀ e' ∈ rs.head?, (shape e).cols = (shape e').rows) ↔
        (shape (ls.getLast hl.ne_nil)).cols = (shape (rs.head hr.ne_nil)).rows := by
      simp [List.getLast?_eq_some_getLast hl.ne_nil, List.head?_eq_some_head hr.ne_nil]
    rw [inferType?_mul, List.isChain_append, hjoint, List.head_append_of_ne_nil hl.ne_nil,
      List.getLast_append_of_ne_nil _ hr.ne_nil]
    constructor
    · rintro ⟨a, b, ha, hb, hdim, rfl⟩
      obtain ⟨hchain, rfl⟩ := (hleft a).1 ha
      obtain ⟨hchain', rfl⟩ := (hright b).1 hb
      exact ⟨⟨hchain, hchain', hdim⟩, rfl⟩
    · rintro ⟨⟨hchain, hchain', hdim⟩, rfl⟩
      exact ⟨_, _, (hleft _).2 ⟨hchain, rfl⟩, (hright _).2 ⟨hchain', rfl⟩, hdim, rfl⟩

/-- However a sum is bracketed, it needs equal shapes and keeps them. -/
theorem inferType?_sum (h : Combines [.add, .sub] es tree)
    (hes : ∀ e ∈ es, HasShape env e (shape e)) (ty : Option (Ty β)) :
    inferType? env .matrix tree = some ty ↔
      ∃ s, (∀ e ∈ es, shape e = s) ∧ ty = some (.matrix s) := by
  induction h generalizing ty with
  | leaf e =>
    have he : inferType? env .matrix e = some (some (.matrix (shape e))) := hes e (by simp)
    simp [he, eq_comm]
  | @call p op ls rs l r hop hl hr ihl ihr =>
    rw [List.forall_mem_append] at hes
    have hleft (s : Shape) : HasShape env l s ↔ ∀ e ∈ ls, shape e = s := by
      simpa [HasShape] using ihl hes.1 (some (.matrix s))
    have hright (s : Shape) : HasShape env r s ↔ ∀ e ∈ rs, shape e = s := by
      simpa [HasShape] using ihr hes.2 (some (.matrix s))
    simp only [inferType?_entrywise hop, hleft, hright, List.forall_mem_append, and_assoc]

end Combines

/-! ## Distributivity -/

section Distributivity

variable {a b c : Expr} {q p' q' r' : Pos}

/-- A factor on the left distributes over a sum. -/
theorem inferType?_mul_add :
    inferType? env .matrix (.call p .mul [a, .call q .add [b, c]]) =
      inferType? env .matrix (.call p' .add [.call q' .mul [a, b], .call r' .mul [a, c]]) := by
  apply Option.ext
  intro ty
  rw [inferType?_mul, inferType?_entrywise (by simp)]
  simp only [hasShape_add, hasShape_mul]
  constructor
  · rintro ⟨s, u, ha, ⟨hb, hc⟩, hdim, rfl⟩
    exact ⟨_, ⟨s, u, ha, hb, hdim, rfl⟩, ⟨s, u, ha, hc, hdim, rfl⟩, rfl⟩
  · rintro ⟨_, ⟨s, u, ha, hb, hdim, rfl⟩, ⟨s', u', ha', hc, hdim', heq⟩, rfl⟩
    -- Both summands share the left factor, so they leave no choice for the other one.
    obtain rfl := ha.unique ha'
    obtain ⟨-, hcols⟩ := Shape.mk.inj heq
    obtain rfl : u = u' := Shape.eq_of_dimensions (hdim.symm.trans hdim') hcols
    exact ⟨s, u, ha, ⟨hb, hc⟩, hdim, rfl⟩

/-- A factor on the right distributes over a sum. -/
theorem inferType?_add_mul :
    inferType? env .matrix (.call p .mul [.call q .add [a, b], c]) =
      inferType? env .matrix (.call p' .add [.call q' .mul [a, c], .call r' .mul [b, c]]) := by
  apply Option.ext
  intro ty
  rw [inferType?_mul, inferType?_entrywise (by simp)]
  simp only [hasShape_add, hasShape_mul]
  constructor
  · rintro ⟨s, u, ⟨ha, hb⟩, hc, hdim, rfl⟩
    exact ⟨_, ⟨s, u, ha, hc, hdim, rfl⟩, ⟨s, u, hb, hc, hdim, rfl⟩, rfl⟩
  · rintro ⟨_, ⟨s, u, ha, hc, hdim, rfl⟩, ⟨s', u', hb, hc', hdim', heq⟩, rfl⟩
    -- Both summands share the right factor, so they leave no choice for the other one.
    obtain rfl := hc.unique hc'
    obtain ⟨hrows, -⟩ := Shape.mk.inj heq
    obtain rfl : s = s' := Shape.eq_of_dimensions hrows (hdim.trans hdim'.symm)
    exact ⟨s, u, ⟨ha, hb⟩, hc, hdim, rfl⟩

end Distributivity

/-- Shape checking respects matrix algebra. Let the expressions `es` have shapes. Any product of
them in this order has a type exactly if the columns of each are the rows of the next one, and then
it has the rows of the first and the columns of the last one; so all its bracketings have the same
type or none. Any sum or difference of them, in any order and bracketing, has a type exactly if all
shapes are equal, and then it has that shape. Products of any expressions distribute over sums on
either side. -/
theorem infer_matrixAlgebra (env : Env β) :
    (∀ (es : List Expr) (shape : Expr → Shape) (hne : es ≠ []),
      (∀ e ∈ es, HasShape env e (shape e)) →
        (∀ tree, Combines [.mul] es tree → ∀ ty, inferType? env .matrix tree = some ty ↔
          es.IsChain (fun e e' => (shape e).cols = (shape e').rows) ∧
            ty = some (.matrix ⟨(shape (es.head hne)).rows, (shape (es.getLast hne)).cols⟩)) ∧
        (∀ tree tree', Combines [.mul] es tree → Combines [.mul] es tree' →
          inferType? env .matrix tree = inferType? env .matrix tree') ∧
        ∀ es' tree, es'.Perm es → Combines [.add, .sub] es' tree →
          ∀ ty, inferType? env .matrix tree = some ty ↔
            ∃ s, (∀ e ∈ es, shape e = s) ∧ ty = some (.matrix s)) ∧
      ∀ (a b c : Expr) (p q p' q' r' : Pos),
        inferType? env .matrix (.call p .mul [a, .call q .add [b, c]]) =
            inferType? env .matrix (.call p' .add [.call q' .mul [a, b], .call r' .mul [a, c]]) ∧
          inferType? env .matrix (.call p .mul [.call q .add [a, b], c]) =
            inferType? env .matrix
              (.call p' .add [.call q' .mul [a, c], .call r' .mul [b, c]]) := by
  refine ⟨fun es shape hne hes => ⟨?_, ?_, ?_⟩, ?_⟩
  · intro tree htree
    exact htree.inferType?_product hes hne
  · intro tree tree' htree htree'
    apply Option.ext
    intro ty
    rw [htree.inferType?_product hes hne, htree'.inferType?_product hes hne]
  · intro es' tree hperm htree ty
    rw [htree.inferType?_sum fun e he => hes e (hperm.mem_iff.1 he)]
    simp only [hperm.mem_iff]
  · intro a b c p q p' q' r'
    exact ⟨inferType?_mul_add, inferType?_add_mul⟩

/-- Both bracketings of `A B C`, with different shapes in between. -/
theorem infer_matrixAlgebra_threeFactors :
    let env : Env Binary64 :=
      ((Bindings.empty.insert (Text.ofString "A") (some (.matrix ⟨2, 3⟩))).insert
        (Text.ofString "B") (some (.matrix ⟨3, 4⟩))).insert (Text.ofString "C")
        (some (.matrix ⟨4, 5⟩))
    let a : Expr := .sym ⟨1, 1⟩ "A"
    let b : Expr := .sym ⟨1, 3⟩ "B"
    let c : Expr := .sym ⟨1, 5⟩ "C"
    HasShape env a ⟨2, 3⟩ ∧ HasShape env b ⟨3, 4⟩ ∧ HasShape env c ⟨4, 5⟩ ∧
      HasShape env (.call ⟨1, 5⟩ .mul [.call ⟨1, 3⟩ .mul [a, b], c]) ⟨2, 5⟩ ∧
      HasShape env (.call ⟨1, 3⟩ .mul [a, .call ⟨1, 5⟩ .mul [b, c]]) ⟨2, 5⟩ := by
  intro env a b c
  let shape : Expr → Shape := fun e =>
    if e.pos = ⟨1, 1⟩ then ⟨2, 3⟩ else if e.pos = ⟨1, 3⟩ then ⟨3, 4⟩ else ⟨4, 5⟩
  have ha : HasShape env a ⟨2, 3⟩ := rfl
  have hb : HasShape env b ⟨3, 4⟩ := rfl
  have hc : HasShape env c ⟨4, 5⟩ := rfl
  have hes : ∀ e ∈ [a, b, c], HasShape env e (shape e) := by
    simp only [List.forall_mem_cons]
    exact ⟨ha, hb, hc, nofun⟩
  have hchain : [a, b, c].IsChain fun e e' => (shape e).cols = (shape e').rows :=
    .cons_cons rfl (.cons_cons rfl (.singleton c))
  have hproduct := ((infer_matrixAlgebra env).1 [a, b, c] shape (by simp) hes).1
  refine ⟨ha, hb, hc, (hproduct _ ?_ _).2 ⟨hchain, rfl⟩, (hproduct _ ?_ _).2 ⟨hchain, rfl⟩⟩
  · exact .call ⟨1, 5⟩ (by simp) (.call ⟨1, 3⟩ (by simp) (.leaf a) (.leaf b)) (.leaf c)
  · exact .call ⟨1, 3⟩ (by simp) (.leaf a) (.call ⟨1, 5⟩ (by simp) (.leaf b) (.leaf c))

end ExprTyping
