import ExprTyping.Expr.Traversal
import ExprTyping.Infer

/-!
# The typing relation

`HasType env d e ty` says which type an expression has, by one rule for each kind of node and
without regard to the order in which inference visits them. An empty place has no rule, and a
symbol that was declared without a type has the type `none`.

- `infer_sound` and `infer_complete`: inference finds a typed expression exactly where the
  relation gives a type, and this is the type it finds;
- `infer_erase`: inference only adds types;
- `infer_node`: every node of a typed expression is what inference makes of that node alone, so
  that facts about the result of inference hold at all its nodes.
-/

namespace ExprTyping

variable {β : Type}

namespace Typed

mutual

/-- The nodes of a typed expression stand for the nodes of the expression, in the same order. -/
theorem map_erase_nodes : ∀ t : Typed β, t.nodes.map erase = t.erase.nodes
  | .lit p l ty => rfl
  | .sym p name ty => rfl
  | .call p op args ty => by
    rw [nodes, erase, List.map_cons, map_erase_nodesAll args, erase]
    rfl

theorem map_erase_nodesAll : ∀ ts : List (Typed β),
    (nodesAll ts).map erase = Expr.visitAll (fun _ => true) (eraseAll ts)
  | [] => rfl
  | t :: ts => by
    rw [nodesAll, eraseAll, List.map_append, map_erase_nodes t, map_erase_nodesAll ts]
    rfl

end

end Typed

variable [Bound β]

mutual

/-- The type of an expression under the declarations `env` in the domain `d`. -/
inductive HasType (env : Env β) (d : Domain β) : Expr → Option (Ty β) → Prop
  | int (p : Pos) {l : Literal} : l.kind = .int → HasType env d (.lit p l) (some .int)
  | real (p : Pos) {l : Literal} : l.kind ≠ .int → HasType env d (.lit p l) (some .real)
  | sym (p : Pos) {name : Text} {ty : Option (Ty β)} :
      env.get? name = some ty → HasType env d (.sym p name) ty
  | call (p : Pos) {op : Op} {args : List Expr} {tys : List (Option (Ty β))} {ty : Ty β} :
      op.isKnown → HasTypes env d args tys → d.resolve op tys = .ok (some ty) →
      HasType env d (.call p op args) (some ty)

/-- The types of several expressions, place by place. -/
inductive HasTypes (env : Env β) (d : Domain β) : List Expr → List (Option (Ty β)) → Prop
  | nil : HasTypes env d [] []
  | cons {e : Expr} {es : List Expr} {ty : Option (Ty β)} {tys : List (Option (Ty β))} :
      HasType env d e ty → HasTypes env d es tys → HasTypes env d (e :: es) (ty :: tys)

end

/-! ## One step of inference -/

omit [Bound β] in
theorem Literal.ty_of_int {l : Literal} (h : l.kind = .int) : l.ty = (.int : Ty β) := by
  rw [Literal.ty, h]

omit [Bound β] in
/-- A literal of any kind but an integer counts as a real one. -/
theorem Literal.ty_of_ne_int {l : Literal} (h : l.kind ≠ .int) : l.ty = (.real : Ty β) := by
  obtain ⟨kind, n, x⟩ := l
  cases kind with
  | int => exact absurd rfl h
  | real => rfl
  | other code outside => rfl

omit [Bound β] in
theorem Literal.ty_eq_or (l : Literal) : l.ty = (.int : Ty β) ∨ l.ty = (.real : Ty β) := by
  by_cases h : l.kind = .int
  · exact .inl (ty_of_int h)
  · exact .inr (ty_of_ne_int h)

theorem Domain.callType_eq_ok {d : Domain β} {op : Op} {tys : List (Option (Ty β))} {ty : Ty β} :
    d.callType op tys = .ok ty ↔ op.isKnown ∧ d.resolve op tys = .ok (some ty) := by
  unfold Domain.callType
  by_cases hop : op.isKnown
  · rw [if_pos hop]
    split <;> simp_all
  · rw [if_neg hop]
    simp [hop]

variable {env : Env β} {d : Domain β}

theorem infer_sym_eq_ok {p : Pos} {name : Text} {t : Typed β} :
    infer env d (.sym p name) = .ok t ↔ ∃ ty, env.get? name = some ty ∧ t = .sym p name ty := by
  rw [infer]
  cases h : env.get? name with
  | none => simp
  | some ty => simp [eq_comm]

/-- Inference of a call succeeds if that of its arguments does and the domain knows the call. -/
theorem infer_call_eq_ok {p : Pos} {op : Op} {args : List Expr} {t : Typed β} :
    infer env d (.call p op args) = .ok t ↔
      ∃ typed ty, inferAll env d args = .ok typed ∧ op.isKnown ∧
        d.resolve op (typed.map Typed.ty) = .ok (some ty) ∧ t = .call p op typed ty := by
  rw [infer]
  cases hargs : inferAll env d args with
  | error f => simp
  | ok typed =>
    dsimp only
    cases hcall : d.callType op (typed.map Typed.ty) with
    | error f =>
      -- The arguments have only one typing, so no other call could have been resolved.
      simp only [reduceCtorEq, false_iff]
      rintro ⟨typed', ty, h, hop, hresolve, -⟩
      cases h
      rw [Domain.callType_eq_ok.2 ⟨hop, hresolve⟩] at hcall
      cases hcall
    | ok ty =>
      obtain ⟨hop, hresolve⟩ := Domain.callType_eq_ok.1 hcall
      simp [hop, hresolve, eq_comm]

theorem inferAll_cons_eq_ok {e : Expr} {es : List Expr} {ts : List (Typed β)} :
    inferAll env d (e :: es) = .ok ts ↔
      ∃ t rest, infer env d e = .ok t ∧ inferAll env d es = .ok rest ∧ ts = t :: rest := by
  rw [inferAll]
  cases infer env d e with
  | error f => simp
  | ok t => cases inferAll env d es <;> simp [eq_comm]

/-! ## Inference and the relation -/

mutual

/-- The type that inference finds is one that the expression has. -/
theorem infer_sound : ∀ (e : Expr) (t : Typed β),
    infer env d e = .ok t → HasType env d e t.ty
  | .lit p l, t, h => by
    cases h
    by_cases hkind : l.kind = .int
    · rw [Typed.ty, Literal.ty_of_int hkind]
      exact .int p hkind
    · rw [Typed.ty, Literal.ty_of_ne_int hkind]
      exact .real p hkind
  | .sym p name, t, h => by
    obtain ⟨ty, hget, rfl⟩ := infer_sym_eq_ok.1 h
    exact .sym p hget
  | .call p op args, t, h => by
    obtain ⟨typed, ty, hargs, hop, hresolve, rfl⟩ := infer_call_eq_ok.1 h
    exact .call p hop (inferAll_sound args typed hargs) hresolve
  | .missing, t, h => by cases h

/-- The types that inference finds are ones that the expressions have. -/
theorem inferAll_sound : ∀ (es : List Expr) (ts : List (Typed β)),
    inferAll env d es = .ok ts → HasTypes env d es (ts.map Typed.ty)
  | [], ts, h => by
    cases h
    exact .nil
  | e :: es, ts, h => by
    obtain ⟨t, rest, ht, hrest, rfl⟩ := inferAll_cons_eq_ok.1 h
    exact .cons (infer_sound e t ht) (inferAll_sound es rest hrest)

end

mutual

/-- Inference succeeds on an expression that has a type, and finds this type. -/
theorem infer_complete : ∀ (e : Expr) (ty : Option (Ty β)),
    HasType env d e ty → ∃ t, infer env d e = .ok t ∧ t.ty = ty
  | .lit p l, ty, h => by
    cases h with
    | int _ hkind => exact ⟨_, rfl, congrArg some (Literal.ty_of_int hkind)⟩
    | real _ hkind => exact ⟨_, rfl, congrArg some (Literal.ty_of_ne_int hkind)⟩
  | .sym p name, ty, h => by
    cases h with
    | sym _ hget => exact ⟨.sym p name ty, infer_sym_eq_ok.2 ⟨ty, hget, rfl⟩, rfl⟩
  | .call p op args, ty, h => by
    cases h with
    | @call _ _ _ tys ty hop htys hresolve =>
      obtain ⟨typed, hargs, rfl⟩ := inferAll_complete args tys htys
      exact ⟨.call p op typed ty, infer_call_eq_ok.2 ⟨typed, ty, hargs, hop, hresolve, rfl⟩, rfl⟩
  | .missing, ty, h => by cases h

/-- Inference succeeds on expressions that have types, and finds these types. -/
theorem inferAll_complete : ∀ (es : List Expr) (tys : List (Option (Ty β))),
    HasTypes env d es tys → ∃ ts, inferAll env d es = .ok ts ∧ ts.map Typed.ty = tys
  | [], tys, h => by
    cases h
    exact ⟨[], rfl, rfl⟩
  | e :: es, tys, h => by
    cases h with
    | @cons _ _ ty tys he hes =>
      obtain ⟨t, ht, rfl⟩ := infer_complete e ty he
      obtain ⟨rest, hrest, rfl⟩ := inferAll_complete es tys hes
      exact ⟨t :: rest, inferAll_cons_eq_ok.2 ⟨t, rest, ht, hrest, rfl⟩, rfl⟩

end

/-- Where inference succeeds, the relation gives the type found and no other. -/
theorem hasType_iff_of_infer {e : Expr} {t : Typed β} (h : infer env d e = .ok t)
    (ty : Option (Ty β)) : HasType env d e ty ↔ ty = t.ty := by
  constructor
  · intro hty
    obtain ⟨t', ht', rfl⟩ := infer_complete e ty hty
    rw [h] at ht'
    cases ht'
    rfl
  · rintro rfl
    exact infer_sound e t h

/-! ## What inference leaves as it is -/

mutual

/-- Without its types, the result of inference is the expression that was typed. -/
theorem infer_erase : ∀ (e : Expr) (t : Typed β), infer env d e = .ok t → t.erase = e
  | .lit p l, t, h => by
    cases h
    rfl
  | .sym p name, t, h => by
    obtain ⟨ty, -, rfl⟩ := infer_sym_eq_ok.1 h
    rfl
  | .call p op args, t, h => by
    obtain ⟨typed, ty, hargs, -, -, rfl⟩ := infer_call_eq_ok.1 h
    rw [Typed.erase, inferAll_erase args typed hargs]
  | .missing, t, h => by cases h

/-- Without their types, the results of inference are the expressions that were typed. -/
theorem inferAll_erase : ∀ (es : List Expr) (ts : List (Typed β)),
    inferAll env d es = .ok ts → Typed.eraseAll ts = es
  | [], ts, h => by
    cases h
    rfl
  | e :: es, ts, h => by
    obtain ⟨t, rest, ht, hrest, rfl⟩ := inferAll_cons_eq_ok.1 h
    rw [Typed.eraseAll, infer_erase e t ht, inferAll_erase es rest hrest]

end

mutual

/-- Every node of a typed expression is the result of inference at that node. -/
theorem infer_node : ∀ (e : Expr) (t : Typed β), infer env d e = .ok t →
    ∀ n ∈ t.nodes, infer env d n.erase = .ok n
  | .lit p l, t, h => by
    cases h
    intro n hn
    rw [Typed.nodes, List.mem_singleton] at hn
    subst hn
    rfl
  | .sym p name, t, h => by
    obtain ⟨ty, -, rfl⟩ := infer_sym_eq_ok.1 h
    intro n hn
    rw [Typed.nodes, List.mem_singleton] at hn
    subst hn
    exact h
  | .call p op args, t, h => by
    have herase := infer_erase _ _ h
    obtain ⟨typed, ty, hargs, -, -, rfl⟩ := infer_call_eq_ok.1 h
    intro n hn
    rw [Typed.nodes, List.mem_cons] at hn
    rcases hn with rfl | hn
    · -- The node itself: without its types it is the expression that was typed.
      rw [herase, h]
    · exact inferAll_node args typed hargs n hn
  | .missing, t, h => by cases h

/-- Every node below typed expressions is the result of inference at that node. -/
theorem inferAll_node : ∀ (es : List Expr) (ts : List (Typed β)), inferAll env d es = .ok ts →
    ∀ n ∈ Typed.nodesAll ts, infer env d n.erase = .ok n
  | [], ts, h => by
    cases h
    simp [Typed.nodesAll]
  | e :: es, ts, h => by
    obtain ⟨t, rest, ht, hrest, rfl⟩ := inferAll_cons_eq_ok.1 h
    intro n hn
    rw [Typed.nodesAll, List.mem_append] at hn
    rcases hn with hn | hn
    · exact infer_node e t ht n hn
    · exact inferAll_node es rest hrest n hn

end

/-- Inference returns a typed expression exactly where the typing relation holds. Its nodes stand
for those of the expression in the same order, each has the one type that the relation gives it,
and without the types the expression itself is left. -/
theorem infer_iff_hasType (env : Env β) (d : Domain β) (e : Expr) :
    ((∃ t, infer env d e = .ok t) ↔ ∃ ty, HasType env d e ty) ∧
      ∀ t, infer env d e = .ok t →
        t.erase = e ∧ t.nodes.map Typed.erase = e.nodes ∧
          ∀ n ∈ t.nodes, ∀ ty, HasType env d n.erase ty ↔ ty = n.ty := by
  refine ⟨⟨?_, ?_⟩, fun t h => ⟨infer_erase e t h, ?_, fun n hn => ?_⟩⟩
  · rintro ⟨t, h⟩
    exact ⟨t.ty, infer_sound e t h⟩
  · rintro ⟨ty, h⟩
    obtain ⟨t, ht, -⟩ := infer_complete e ty h
    exact ⟨t, ht⟩
  · rw [Typed.map_erase_nodes, infer_erase e t h]
  · exact hasType_iff_of_infer (infer_node e t h n hn)

end ExprTyping
