import ExprTyping.Proofs.Typing

/-!
# Inference and the free symbols

The free symbols of an expression are collected in pre-order and without repetitions, whereas
inference works in post-order and stops at the first failure. Both come down to the symbol nodes of
the tree, which is how they are compared here.

- `Expr.mem_freeSymbols`: the free symbols are the names of the symbol nodes;
- `infer_congr`: inference reads the environment at symbol nodes only;
- `infer_freeSymbols`: the free symbols decide what inference finds, and a success needs a
  declaration of each of them.
-/

namespace ExprTyping

namespace Expr

theorem mem_distinct {names : List Text} {name : Text} :
    name ∈ distinct names ↔ name ∈ names := by
  -- The names kept so far are carried along, so the statement is about any of them.
  have step : ∀ (names seen : List Text),
      name ∈ names.foldl (fun seen n => if seen.contains n then seen else seen ++ [n]) seen ↔
        name ∈ seen ∨ name ∈ names := by
    intro names
    induction names with
    | nil => simp
    | cons n names ih =>
      intro seen
      rw [List.foldl_cons, ih, List.mem_cons]
      split
      · next h =>
        have hn : n ∈ seen := List.contains_iff_mem.1 h
        grind
      · rw [List.mem_append, List.mem_singleton, or_assoc]
  rw [distinct, step, or_iff_right List.not_mem_nil]

theorem mem_freeSymbols {e : Expr} {name : Text} :
    name ∈ e.freeSymbols ↔ ∃ p, sym p name ∈ e.nodes := by
  rw [freeSymbols, mem_distinct, List.mem_filterMap]
  constructor
  · rintro ⟨n, hn, hname⟩
    cases n <;> cases hname
    exact ⟨_, hn⟩
  · rintro ⟨p, hp⟩
    exact ⟨_, hp, rfl⟩

theorem mem_freeSymbols_sym (p : Pos) (name : Text) : name ∈ (sym p name).freeSymbols :=
  mem_freeSymbols.2 ⟨p, List.mem_singleton_self _⟩

end Expr

variable {β : Type}

/-- Whether two environments agree at every symbol among some nodes: both declare it with the same
type, or neither declares it. -/
def Env.AgreeAt (env env' : Env β) (nodes : List Expr) : Prop :=
  ∀ p name, Expr.sym p name ∈ nodes → env.get? name = env'.get? name

theorem Env.AgreeAt.mono {env env' : Env β} {nodes more : List Expr} (h : env.AgreeAt env' more)
    (hsub : nodes ⊆ more) : env.AgreeAt env' nodes :=
  fun p name hmem => h p name (hsub hmem)

theorem Env.agreeAt_of_freeSymbols {env env' : Env β} {e : Expr}
    (h : ∀ name ∈ e.freeSymbols, env.get? name = env'.get? name) : env.AgreeAt env' e.nodes :=
  fun p name hmem => h name (Expr.mem_freeSymbols.2 ⟨p, hmem⟩)

variable [Bound β] {env env' : Env β} {d : Domain β}

mutual

/-- Environments that agree at the symbols of an expression are interchangeable for inference, also
where it fails. -/
theorem infer_congr : ∀ e : Expr, env.AgreeAt env' e.nodes → infer env d e = infer env' d e
  | .lit p l, _ => by simp [infer]
  | .sym p name, h => by
    have hname : env.get? name = env'.get? name := h p name (List.mem_singleton_self _)
    simp only [infer, hname]
  | .call p op args, h => by
    -- The symbols of the arguments are among those of the call.
    have hargs : inferAll env d args = inferAll env' d args :=
      inferAll_congr args (h.mono (List.subset_cons_self _ _))
    simp only [infer, hargs]
  | .missing, _ => by simp [infer]

theorem inferAll_congr : ∀ es : List Expr, env.AgreeAt env' (Expr.visitAll (fun _ => true) es) →
    inferAll env d es = inferAll env' d es
  | [], _ => by simp [inferAll]
  | e :: es, h => by
    have hfirst : infer env d e = infer env' d e :=
      infer_congr e (h.mono (List.subset_append_left _ _))
    have hrest : inferAll env d es = inferAll env' d es :=
      inferAll_congr es (h.mono (List.subset_append_right _ _))
    simp only [inferAll, hfirst, hrest]

end

/-- Where inference succeeds, every symbol of the tree is declared. -/
theorem exists_get?_of_infer {e : Expr} {t : Typed β} (h : infer env d e = .ok t) {p : Pos}
    {name : Text} (hmem : Expr.sym p name ∈ e.nodes) : ∃ ty, env.get? name = some ty := by
  -- The symbol stands at a node of the typed tree, and there inference has looked it up.
  rw [← infer_erase e t h, ← Typed.map_erase_nodes, List.mem_map] at hmem
  obtain ⟨n, hn, herase⟩ := hmem
  have hsym : infer env d (.sym p name) = .ok n := by
    rw [← herase]
    exact infer_node e t h n hn
  obtain ⟨ty, hget, -⟩ := infer_sym_eq_ok.1 hsym
  exact ⟨ty, hget⟩

/-- In every domain, inference depends on the environment only through the free symbols:
environments that agree on these give the same typed tree or the same error. If inference succeeds,
all of them are declared. -/
theorem infer_freeSymbols (env : Env β) (d : Domain β) (e : Expr) :
    (∀ env' : Env β, (∀ name ∈ e.freeSymbols, env.get? name = env'.get? name) →
        infer env d e = infer env' d e) ∧
      ∀ t, infer env d e = .ok t → ∀ name ∈ e.freeSymbols, ∃ ty, env.get? name = some ty := by
  refine ⟨fun env' h => infer_congr e (Env.agreeAt_of_freeSymbols h), ?_⟩
  intro t ht name hname
  obtain ⟨p, hmem⟩ := Expr.mem_freeSymbols.1 hname
  exact exists_get?_of_infer ht hmem

/-- The symbol `B` does not occur in `A < A`, so forgetting it changes nothing, also in a domain in
which a comparison has the type of its first operand. -/
theorem infer_freeSymbols_comparison :
    let first : Domain Binary64 := ⟨"first", fun op args =>
      if op = .lt then .ok args.head?.join else .error (.noSignature op.name args)⟩
    let shape : Ty Binary64 := .matrix ⟨2, 3⟩
    let small : Env Binary64 := Bindings.empty.insert (Text.ofString "A") (some shape)
    let large : Env Binary64 := small.insert (Text.ofString "B") (some .bool)
    let e : Expr := .call ⟨1, 3⟩ .lt [.sym ⟨1, 1⟩ "A", .sym ⟨1, 5⟩ "A"]
    e.freeSymbols = [Text.ofString "A"] ∧ large.get? (Text.ofString "B") ≠ small.get? "B" ∧
      infer large first e = infer small first e ∧
      ∀ name ∈ e.freeSymbols, ∃ ty, small.get? name = some ty := by
  intro first shape small large e
  have hfree : e.freeSymbols = [Text.ofString "A"] := by decide
  have hagree : ∀ name ∈ e.freeSymbols, large.get? name = small.get? name := by
    intro name hname
    rw [hfree, List.mem_singleton] at hname
    subst hname
    decide
  have htyped : infer small first e = .ok (.call ⟨1, 3⟩ .lt
      [.sym ⟨1, 1⟩ "A" (some shape), .sym ⟨1, 5⟩ "A" (some shape)] shape) := rfl
  exact ⟨hfree, by decide, (infer_freeSymbols large first e).1 small hagree,
    (infer_freeSymbols small first e).2 _ htyped⟩

end ExprTyping
