import ExprTyping.Proofs.Registries

/-!
# Typing scalars

The table of the scalar domain lists every combination of numeric operands, and a call is looked up
in it from the front. What it says can be said without a table: an operator takes two numbers, two
booleans or one operand, and whether a number is an integer or a real matters only to a minus sign,
which keeps the type of its operand. So two runs of inference that differ in numeric types alone go
side by side.

- `Domain.mem_scalarRegistry` and `Domain.lookup_scalarRegistry`: the table and the rule agree;
- `scalarRule?_exchanged`: the rule under an exchange of integers and reals;
- `infer_sameForm`: two runs of inference;
- `infer_numericExchange`: what is the same in both of them.
-/

namespace ExprTyping

/-! ## The scalar table as a rule -/

namespace Ty

/-- Whether an operand is an integer or a real. -/
def IsNumber (a : Option (Ty Binary64)) : Prop :=
  a = some .int ∨ a = some .real

instance (a : Option (Ty Binary64)) : Decidable (IsNumber a) :=
  inferInstanceAs (Decidable (_ ∨ _))

end Ty

open Ty

/-- The type of an operator on two numbers. -/
def Op.onNumbers? : Op → Option (Ty Binary64)
  | .add | .sub | .mul | .truediv => some .real
  | .eq | .ne | .lt | .le | .gt | .ge => some .bool
  | _ => none

/-- The type of an operator on two booleans. -/
def Op.onBooleans? : Op → Option (Ty Binary64)
  | .eq | .ne | .and | .or => some .bool
  | _ => none

/-- The type of an operator on scalar operands, without a table. -/
def scalarRule? (op : Op) : List (Option (Ty Binary64)) → Option (Ty Binary64)
  | [a] =>
    match op with
    | .neg => if IsNumber a then a else none
    | .not => if a = some .bool then some .bool else none
    | _ => none
  | [a, b] =>
    if IsNumber a ∧ IsNumber b then op.onNumbers?
    else if a = some .bool ∧ b = some .bool then op.onBooleans?
    else none
  | _ => none

namespace Domain

variable {op : Op} {args : List (Option (Ty Binary64))} {ty : Ty Binary64}

theorem mem_scalarRegistry_of_numbers {a b : Option (Ty Binary64)} (ha : IsNumber a)
    (hb : IsNumber b) (h : op.onNumbers? = some ty) :
    ⟨op, [a, b], some ty⟩ ∈ scalarRegistry (β := Binary64) := by
  have hpair : ⟨op, [a, b], some ty⟩ ∈ numericPairs op ty := by
    rcases ha with rfl | rfl <;> rcases hb with rfl | rfl <;> simp [numericPairs]
  simp only [scalarRegistry, List.mem_append, List.mem_flatMap]
  refine .inl ?_
  cases op <;> cases h
  case add | sub | mul | truediv => exact .inl ⟨_, by decide, hpair⟩
  all_goals exact .inr ⟨_, by decide, hpair⟩

theorem mem_scalarRegistry_of_scalarRule? (h : scalarRule? op args = some ty) :
    ⟨op, args, some ty⟩ ∈ scalarRegistry (β := Binary64) := by
  unfold scalarRule? at h
  split at h
  · split at h
    · split at h
      · next hnum =>
        subst h
        rcases hnum with h | h <;> cases h <;> decide
      · cases h
    · split at h
      · next hbool =>
        cases h
        subst hbool
        decide
      · cases h
    · cases h
  · split at h
    · next hnum => exact mem_scalarRegistry_of_numbers hnum.1 hnum.2 h
    · split at h
      · next hbool =>
        obtain ⟨rfl, rfl⟩ := hbool
        cases op <;> cases h <;> decide
      · cases h
  · cases h

/-- The table lists exactly the calls that the rule gives a type. -/
theorem mem_scalarRegistry {sig : Signature Binary64} :
    sig ∈ scalarRegistry ↔ ∃ ty, scalarRule? sig.op sig.args = some ty ∧ sig.result = some ty := by
  constructor
  · have hall : (scalarRegistry (β := Binary64)).all fun sig =>
        sig.result.isSome && scalarRule? sig.op sig.args == sig.result := by
      decide
    intro h
    have hsig := List.all_eq_true.1 hall sig h
    simp only [Bool.and_eq_true, beq_iff_eq] at hsig
    obtain ⟨ty, hty⟩ := Option.isSome_iff_exists.1 hsig.1
    exact ⟨ty, hsig.2.trans hty, hty⟩
  · rintro ⟨ty, hrule, hresult⟩
    have h := mem_scalarRegistry_of_scalarRule? hrule
    rwa [← hresult] at h

theorem sameAll_self_of_mem {sig : Signature Binary64} (h : sig ∈ scalarRegistry) :
    sameAll sig.args sig.args := by
  rw [sameAll_iff, List.forall₂_same]
  intro a ha
  obtain ⟨τ, rfl, hτ⟩ := (isScalar_scalarRegistry sig h).2.1 a ha
  rcases hτ with rfl | rfl | rfl <;> rfl

/-- Searching the table is applying the rule. -/
theorem lookup_scalarRegistry (op : Op) (args : List (Option (Ty Binary64))) :
    scalarRegistry.lookup op args = (scalarRule? op args).map some := by
  unfold Registry.lookup
  cases hfind : scalarRegistry.find? fun sig => sig.op == op && sameAll sig.args args with
  | some sig =>
    -- The entry that was found is the one for these operands, since scalars are equal to
    -- themselves only.
    have hmem := List.mem_of_find?_eq_some hfind
    have hfits := List.find?_some hfind
    simp only [Bool.and_eq_true, beq_iff_eq] at hfits
    obtain ⟨rfl, hsame⟩ := hfits
    rw [eq_of_sameAll (isScalar_scalarRegistry sig hmem).2.1 hsame]
    obtain ⟨ty, hrule, hresult⟩ := mem_scalarRegistry.1 hmem
    rw [hrule, Option.map_some, Option.map_some, hresult]
  | none =>
    cases hrule : scalarRule? op args with
    | none => rfl
    | some ty =>
      have hmem := mem_scalarRegistry_of_scalarRule? hrule
      have hnot := List.find?_eq_none.1 hfind _ hmem
      simp [sameAll_self_of_mem hmem] at hnot

theorem isKnown_of_scalarRule? (h : scalarRule? op args = some ty) : op.isKnown := by
  cases op with
  | unknown code =>
    unfold scalarRule? at h
    split at h
    · cases h
    · split_ifs at h <;> cases h
    · cases h
  | _ => rfl

/-- The type of a call in the scalar domain. -/
theorem callType_scalar (op : Op) (args : List (Option (Ty Binary64))) :
    scalar.callType op args =
      match scalarRule? op args with
      | some ty => .ok ty
      | none => .error (.noSignature op.name args) := by
  have hresolve : scalar.resolve op args =
      match scalarRule? op args with
      | some ty => .ok (some ty)
      | none => .error (.noSignature op.name args) := by
    simp only [scalar, table, resolveTable, lookup_scalarRegistry]
    cases scalarRule? op args <;> rfl
  unfold callType
  rw [hresolve]
  cases hrule : scalarRule? op args with
  | some ty => rw [if_pos (isKnown_of_scalarRule? hrule)]
  | none => split <;> rfl

end Domain

/-! ## Exchanging numeric types -/

/-- Whether two types are equal up to an exchange of integers and reals. -/
def Ty.Exchanged (a b : Option (Ty Binary64)) : Prop :=
  a = b ∨ sameOption a b ∨ IsNumber a ∧ IsNumber b

namespace Ty

variable {a b : Option (Ty Binary64)}

/-- A type with the tag of a scalar is equal to itself only. -/
theorem eq_scalar_iff {name : String} (h : sameOption a b) :
    a = some (.scalar name) ↔ b = some (.scalar name) := by
  constructor
  · rintro rfl
    cases b with
    | none => cases h
    | some b => exact congrArg some (eq_of_same h)
  · rintro rfl
    cases a with
    | none => cases h
    | some a => exact congrArg some (eq_of_same (same_symm h))

theorem Exchanged.isNumber_iff (h : Exchanged a b) : IsNumber a ↔ IsNumber b := by
  rcases h with rfl | h | ⟨ha, hb⟩
  · rfl
  · exact or_congr (eq_scalar_iff h) (eq_scalar_iff h)
  · exact iff_of_true ha hb

theorem Exchanged.eq_bool_iff (h : Exchanged a b) : a = some .bool ↔ b = some .bool := by
  rcases h with rfl | h | ⟨ha, hb⟩
  · rfl
  · exact eq_scalar_iff h
  · refine iff_of_false ?_ ?_
    · rcases ha with rfl | rfl <;> decide
    · rcases hb with rfl | rfl <;> decide

end Ty

/-- Whether a call of an operator has the same type on both sides. Only a minus sign passes the
numeric type of its operand on. -/
def Op.SameResult (op : Op) (ty ty' : Ty Binary64) : Prop :=
  ty = ty' ∨ op = .neg ∧ IsNumber (some ty) ∧ IsNumber (some ty')

theorem Op.sameResult_self (op : Op) (r : Option (Ty Binary64)) : Option.Rel op.SameResult r r := by
  cases r with
  | none => exact .none
  | some ty => exact .some (.inl rfl)

/-- The rule tells numbers from booleans, but not integers from reals. -/
theorem scalarRule?_exchanged (op : Op) {args args' : List (Option (Ty Binary64))}
    (h : List.Forall₂ Ty.Exchanged args args') :
    Option.Rel op.SameResult (scalarRule? op args) (scalarRule? op args') := by
  rcases h with _ | ⟨ha, _ | ⟨hb, _ | ⟨_, _⟩⟩⟩
  · exact .none
  · next a a' =>
    cases op with
    | neg =>
      by_cases hnum : IsNumber a
      · have hnum' := ha.isNumber_iff.1 hnum
        simp only [scalarRule?, if_pos hnum, if_pos hnum']
        obtain ⟨ty, rfl⟩ : ∃ ty, a = some ty := by
          rcases hnum with rfl | rfl <;> exact ⟨_, rfl⟩
        obtain ⟨ty', rfl⟩ : ∃ ty', a' = some ty' := by
          rcases hnum' with rfl | rfl <;> exact ⟨_, rfl⟩
        exact .some (.inr ⟨rfl, hnum, hnum'⟩)
      · have hnum' := mt ha.isNumber_iff.2 hnum
        simp only [scalarRule?, if_neg hnum, if_neg hnum']
        exact .none
    | not =>
      simp only [scalarRule?, ha.eq_bool_iff]
      exact Op.sameResult_self _ _
    | _ => exact .none
  · simp only [scalarRule?, ha.isNumber_iff, hb.isNumber_iff, ha.eq_bool_iff, hb.eq_bool_iff]
    exact Op.sameResult_self _ _
  · exact .none

/-- Whether two errors have the same reason, operator and symbol, on operand types that are equal up
to an exchange of integers and reals. -/
structure TypeError.Exchanged (e e' : TypeError Binary64) : Prop where
  reason_eq : e.reason = e'.reason
  op_eq : e.op = e'.op
  symbol_eq : e.symbol = e'.symbol
  args_exchanged : List.Forall₂ Ty.Exchanged e.args e'.args

theorem Domain.callType_exchanged (op : Op) {args args' : List (Option (Ty Binary64))}
    (h : List.Forall₂ Ty.Exchanged args args') :
    Parallel TypeError.Exchanged op.SameResult (scalar.callType op args)
      (scalar.callType op args') := by
  have hrule := scalarRule?_exchanged op h
  rw [callType_scalar, callType_scalar]
  cases hty : scalarRule? op args <;> cases hty' : scalarRule? op args' <;>
    rw [hty, hty'] at hrule <;> cases hrule
  · exact .error ⟨rfl, rfl, rfl, h⟩
  · next hresult => exact .ok hresult

/-! ## Two runs of inference -/

/-- Whether two environments declare the same names, with types that are equal up to an exchange of
integers and reals at each name. -/
def Env.Exchanged (env env' : Env Binary64) : Prop :=
  ∀ name, Option.Rel Ty.Exchanged (env.get? name) (env'.get? name)

namespace Expr

mutual

/-- Whether two trees have the same shape and the same positions, and differ at most in their
literals. -/
inductive SameForm : Expr → Expr → Prop
  | lit (p : Pos) (l l' : Literal) : SameForm (.lit p l) (.lit p l')
  | sym (p : Pos) (name : Text) : SameForm (.sym p name) (.sym p name)
  | call (p : Pos) (op : Op) {args args' : List Expr} :
      AllSameForm args args' → SameForm (.call p op args) (.call p op args')
  | missing : SameForm .missing .missing

/-- Whether the trees of two lists have the same form, place by place. -/
inductive AllSameForm : List Expr → List Expr → Prop
  | nil : AllSameForm [] []
  | cons {e e' : Expr} {es es' : List Expr} :
      SameForm e e' → AllSameForm es es' → AllSameForm (e :: es) (e' :: es')

end

end Expr

namespace Typed

/-- The operator of a call. -/
def op? : Typed Binary64 → Option Op
  | .call _ op _ _ => some op
  | _ => none

/-- Whether two nodes have the same form and types that are equal up to an exchange of integers and
reals, and equal ones if they are calls of another operator than a minus sign. -/
structure NodeExchanged (m m' : Typed Binary64) : Prop where
  sameForm : m.erase.SameForm m'.erase
  ty_exchanged : Ty.Exchanged m.ty m'.ty
  ty_eq : ∀ op, m.op? = some op → op ≠ .neg → m.ty = m'.ty

/-- Whether this holds of all nodes of two typed trees. -/
def Exchanged (t t' : Typed Binary64) : Prop :=
  List.Forall₂ NodeExchanged t.nodes t'.nodes

variable {t t' : Typed Binary64} {ts ts' : List (Typed Binary64)}

theorem Exchanged.root (h : t.Exchanged t') : t.NodeExchanged t' := by
  unfold Exchanged at h
  cases t <;> cases t' <;> simp only [nodes] at h <;> exact (List.forall₂_cons.1 h).1

theorem allSameForm_eraseAll (h : List.Forall₂ Exchanged ts ts') :
    Expr.AllSameForm (eraseAll ts) (eraseAll ts') := by
  induction h with
  | nil => exact .nil
  | cons hfirst _ ih => exact .cons hfirst.root.sameForm ih

theorem exchanged_map_ty (h : List.Forall₂ Exchanged ts ts') :
    List.Forall₂ Ty.Exchanged (ts.map Typed.ty) (ts'.map Typed.ty) := by
  rw [List.forall₂_map_left_iff, List.forall₂_map_right_iff]
  exact h.imp fun _ _ hroot => hroot.root.ty_exchanged

theorem exchanged_call (p : Pos) (op : Op) (h : List.Forall₂ Exchanged ts ts')
    {ty ty' : Ty Binary64} (hty : op.SameResult ty ty') :
    (call p op ts ty).Exchanged (call p op ts' ty') := by
  have hbelow : List.Forall₂ NodeExchanged (nodesAll ts) (nodesAll ts') := by
    induction h with
    | nil => exact .nil
    | cons hfirst _ ih => exact List.rel_append hfirst ih
  refine .cons ⟨.call p op (allSameForm_eraseAll h), ?_, ?_⟩ hbelow
  · rcases hty with rfl | ⟨-, hnum, hnum'⟩
    · exact .inl rfl
    · exact .inr (.inr ⟨hnum, hnum'⟩)
  · rintro _ ⟨⟩ hneg
    rcases hty with rfl | ⟨rfl, -, -⟩
    · rfl
    · exact absurd rfl hneg

end Typed

/-- Whether two failures of inference are at the same position: both at an empty place, or both for
typing errors of the same kind. -/
def InferFault.Exchanged (f f' : InferFault Binary64) : Prop :=
  f.pos = f'.pos ∧ (f.error = .missingNode ∧ f'.error = .missingNode ∨
    ∃ e e', f.error = .typing e ∧ f'.error = .typing e' ∧ e.Exchanged e')

section Inference

variable {env env' : Env Binary64}

theorem Literal.isNumber_ty (l : Literal) : IsNumber (some l.ty) := by
  rcases l.ty_eq_or (β := Binary64) with hty | hty
  · exact .inl (congrArg some hty)
  · exact .inr (congrArg some hty)

theorem infer_sym_exchanged (henv : env.Exchanged env') (p : Pos) (name : Text) :
    Parallel InferFault.Exchanged Typed.Exchanged (infer env .scalar (.sym p name))
      (infer env' .scalar (.sym p name)) := by
  have hname := henv name
  rw [infer, infer]
  cases hget : env.get? name <;> cases hget' : env'.get? name <;> rw [hget, hget'] at hname <;>
    cases hname
  · exact .error ⟨rfl, .inr ⟨_, _, rfl, rfl, rfl, rfl, rfl, .nil⟩⟩
  · next hty => exact .ok (.cons ⟨.sym p name, hty, nofun⟩ .nil)

mutual

/-- Two runs of inference on trees of the same form go side by side. -/
theorem infer_sameForm (henv : env.Exchanged env') : ∀ e e' : Expr, e.SameForm e' →
    Parallel InferFault.Exchanged Typed.Exchanged (infer env .scalar e) (infer env' .scalar e')
  | .lit p l, e', h => by
    obtain ⟨_, _, l'⟩ := h
    exact .ok (.cons ⟨.lit p l l', .inr (.inr ⟨l.isNumber_ty, l'.isNumber_ty⟩), nofun⟩ .nil)
  | .sym p name, e', h => by
    cases h
    exact infer_sym_exchanged henv p name
  | .call p op args, e', h => by
    cases h with
    | @call _ _ _ args' hargs =>
      rw [infer, infer]
      obtain ⟨ts, ts', hts, hts', hexchanged⟩ | ⟨f, f', hf, hf', hfault⟩ :=
        inferAll_sameForm henv args args' hargs
      · rw [hts, hts']
        dsimp only
        -- The rule gives both calls a type or none, as their operands differ only in numeric types.
        obtain ⟨ty, ty', hty, hty', hresult⟩ | ⟨e, e', he, he', herror⟩ :=
          Domain.callType_exchanged op (Typed.exchanged_map_ty hexchanged)
        · rw [hty, hty']
          exact .ok (Typed.exchanged_call p op hexchanged hresult)
        · rw [he, he']
          exact .error ⟨rfl, .inr ⟨e, e', rfl, rfl, herror⟩⟩
      · rw [hf, hf']
        exact .error hfault
  | .missing, e', h => by
    cases h
    exact .error ⟨rfl, .inl ⟨rfl, rfl⟩⟩

theorem inferAll_sameForm (henv : env.Exchanged env') : ∀ es es' : List Expr,
    Expr.AllSameForm es es' →
    Parallel InferFault.Exchanged (List.Forall₂ Typed.Exchanged) (inferAll env .scalar es)
      (inferAll env' .scalar es')
  | [], es', h => by
    cases h
    exact .ok .nil
  | e :: es, es', h => by
    cases h with
    | @cons _ e' _ es' he hes =>
      rw [inferAll, inferAll]
      obtain ⟨t, t', ht, ht', hfirst⟩ | ⟨f, f', hf, hf', hfault⟩ := infer_sameForm henv e e' he
      · rw [ht, ht']
        dsimp only
        obtain ⟨ts, ts', hts, hts', hrest⟩ | ⟨f, f', hf, hf', hfault⟩ :=
          inferAll_sameForm henv es es' hes
        · rw [hts, hts']
          exact .ok (.cons hfirst hrest)
        · rw [hf, hf']
          exact .error hfault
      · rw [hf, hf']
        exact .error hfault

end

end Inference

/-- In the scalar domain it makes no difference to a check which numeric types operands have. Take
declarations that are equal up to an exchange of integers and reals, and trees of the same shape and
positions with any literals. Inference succeeds on both sides, with types that are equal up to such
an exchange at every node and equal at every call other than a minus sign, or it fails on both sides
at the same position: at an empty place, or for the same reason with the same operator and
symbol. -/
theorem infer_numericExchange {env env' : Env Binary64} {e e' : Expr} (henv : env.Exchanged env')
    (he : e.SameForm e') :
    (∃ t t', infer env .scalar e = .ok t ∧ infer env' .scalar e' = .ok t' ∧
        List.Forall₂ Typed.NodeExchanged t.nodes t'.nodes) ∨
      (∃ p, infer env .scalar e = .error ⟨.missingNode, p⟩ ∧
        infer env' .scalar e' = .error ⟨.missingNode, p⟩) ∨
      ∃ p error error', infer env .scalar e = .error ⟨.typing error, p⟩ ∧
        infer env' .scalar e' = .error ⟨.typing error', p⟩ ∧ error.reason = error'.reason ∧
        error.op = error'.op ∧ error.symbol = error'.symbol := by
  obtain ⟨t, t', ht, ht', hnodes⟩ | ⟨⟨_, p⟩, ⟨_, _⟩, hf, hf', rfl, hfault⟩ :=
    infer_sameForm henv e e' he
  · exact .inl ⟨t, t', ht, ht', hnodes⟩
  · obtain ⟨rfl, rfl⟩ | ⟨error, error', rfl, rfl, herror⟩ := hfault
    · exact .inr (.inl ⟨p, hf, hf'⟩)
    · exact .inr (.inr
        ⟨p, error, error', hf, hf', herror.reason_eq, herror.op_eq, herror.symbol_eq⟩)

/-- `-x == 1` with an integer `x` and `-x == 0.5` with a real one: the minus sign shows the
difference, the comparison does not. -/
theorem infer_numericExchange_minus :
    let env : Env Binary64 := Bindings.empty.insert (Text.ofString "x") (some .int)
    let env' : Env Binary64 := Bindings.empty.insert (Text.ofString "x") (some .real)
    let minus : Expr := .call ⟨1, 1⟩ .neg [.sym ⟨1, 2⟩ "x"]
    let e : Expr := .call ⟨1, 4⟩ .eq [minus, .lit ⟨1, 7⟩ (.ofInt 1)]
    let e' : Expr := .call ⟨1, 4⟩ .eq [minus, .lit ⟨1, 7⟩ (.ofReal (.ofDecimal false 5 (-1)))]
    env.Exchanged env' ∧ e.SameForm e' ∧ ∃ t t', infer env .scalar e = .ok t ∧
      infer env' .scalar e' = .ok t' ∧
      t.nodes.map Typed.ty = [some .bool, some .int, some .int, some .int] ∧
      t'.nodes.map Typed.ty = [some .bool, some .real, some .real, some .real] ∧
      List.Forall₂ Typed.NodeExchanged t.nodes t'.nodes := by
  intro env env' minus e e'
  have henv : env.Exchanged env' := by
    intro name
    simp only [env, env', Bindings.get?_insert, Bindings.get?_empty]
    split
    · exact .some (.inr (.inr ⟨.inl rfl, .inr rfl⟩))
    · exact .none
  have he : e.SameForm e' :=
    .call _ _ (.cons (.call _ _ (.cons (.sym _ _) .nil)) (.cons (.lit _ _ _) .nil))
  have h : infer env .scalar e = .ok (.call ⟨1, 4⟩ .eq
      [.call ⟨1, 1⟩ .neg [.sym ⟨1, 2⟩ "x" (some .int)] .int,
        .lit ⟨1, 7⟩ (.ofInt 1) .int] .bool) := rfl
  have h' : infer env' .scalar e' = .ok (.call ⟨1, 4⟩ .eq
      [.call ⟨1, 1⟩ .neg [.sym ⟨1, 2⟩ "x" (some .real)] .real,
        .lit ⟨1, 7⟩ (.ofReal (.ofDecimal false 5 (-1))) .real] .bool) := rfl
  refine ⟨henv, he, _, _, h, h', rfl, rfl, ?_⟩
  obtain ⟨t, t', ht, ht', hnodes⟩ | ⟨p, hf, -⟩ | ⟨p, error, error', hf, -⟩ :=
    infer_numericExchange henv he
  · rw [h] at ht
    rw [h'] at ht'
    cases ht
    cases ht'
    exact hnodes
  · rw [h] at hf
    cases hf
  · rw [h] at hf
    cases hf

end ExprTyping
