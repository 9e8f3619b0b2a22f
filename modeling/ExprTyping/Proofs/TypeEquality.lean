import Mathlib.Data.List.Forall2
import ExprTyping.Proofs.FirstFailure
import ExprTyping.Proofs.SignedZeros
import ExprTyping.Proofs.TypeFamilies

/-!
# Types that denote the same

Equal types need not be identical: a bound of an interval may be a zero of either sign. Equality is
symmetric and transitive, and it holds of a type with itself unless a bound is not a number. No
table and no arithmetic on shapes or intervals tells equal types apart, and so inference does not
either.

- `Ty.same_self`, `Ty.same_symm`, `Ty.same_trans`: equality of types;
- `Parallel`: two computations that both succeed or both fail, with related results;
- `Registry.lookup_congr`, `Interval.div_parallel`: a table and an operation on equal types;
- `Domain.callType_parallel`: a domain treats equal operand types alike;
- `infer_sameTypes`: so does inference with equal declarations.
-/

namespace ExprTyping

/-! ## Equal types -/

theorem Interval.same_iff {a b : Interval Binary64} :
    a.same b ↔ a.low.eq b.low ∧ a.high.eq b.high ∧ a.includesLow = b.includesLow ∧
      a.includesHigh = b.includesHigh := by
  have heq (x y : Binary64) : Bound.eq x y = x.eq y := rfl
  simp only [same, heq, Bool.and_eq_true, beq_iff_eq, and_assoc]

namespace Ty

variable {a b c : Ty Binary64}

/-- Whether all bounds of a type are numbers. -/
def NaNFree : Ty Binary64 → Prop
  | .interval iv => iv.low.isNaN = false ∧ iv.high.isNaN = false
  | _ => True

theorem same_self (h : a.NaNFree) : a.same a := by
  cases a with
  | interval iv =>
    have hlow : iv.low.eq iv.low := Binary64.eq_iff.2 ⟨rfl, h.1⟩
    have hhigh : iv.high.eq iv.high := Binary64.eq_iff.2 ⟨rfl, h.2⟩
    exact Interval.same_iff.2 ⟨hlow, hhigh, rfl, rfl⟩
  | _ => simp [same]

theorem same_symm (h : a.same b) : b.same a := by
  -- Types of different kinds are never equal, so three cases are left.
  cases a <;> cases b <;> simp only [same, beq_iff_eq, Bool.false_eq_true] at h ⊢
  · exact h.symm
  · exact h.symm
  · obtain ⟨hlow, hhigh, hil, hih⟩ := Interval.same_iff.1 h
    exact Interval.same_iff.2
      ⟨Binary64.eq_symm hlow, Binary64.eq_symm hhigh, hil.symm, hih.symm⟩

theorem same_trans (hab : a.same b) (hbc : b.same c) : a.same c := by
  cases a <;> cases b <;> cases c <;>
    simp only [same, beq_iff_eq, Bool.false_eq_true] at hab hbc ⊢
  · exact hab.trans hbc
  · exact hab.trans hbc
  · obtain ⟨hlow, hhigh, hil, hih⟩ := Interval.same_iff.1 hab
    obtain ⟨hlow', hhigh', hil', hih'⟩ := Interval.same_iff.1 hbc
    exact Interval.same_iff.2 ⟨Binary64.eq_trans hlow hlow', Binary64.eq_trans hhigh hhigh',
      hil.trans hil', hih.trans hih'⟩

theorem sameOption_self {a : Option (Ty Binary64)} (h : ∀ τ ∈ a, τ.NaNFree) : sameOption a a := by
  cases a with
  | none => rfl
  | some τ => exact same_self (h τ rfl)

theorem sameOption_symm {a b : Option (Ty Binary64)} (h : sameOption a b) : sameOption b a := by
  cases a <;> cases b <;> simp only [sameOption, Bool.false_eq_true] at h ⊢
  exact same_symm h

theorem sameOption_trans {a b c : Option (Ty Binary64)} (hab : sameOption a b)
    (hbc : sameOption b c) : sameOption a c := by
  cases a <;> cases b <;> cases c <;> simp only [sameOption, Bool.false_eq_true] at hab hbc ⊢
  exact same_trans hab hbc

theorem sameAll_iff {as bs : List (Option (Ty Binary64))} :
    sameAll as bs ↔ List.Forall₂ (fun a b => sameOption a b) as bs := by
  induction as generalizing bs with
  | nil => cases bs <;> simp [sameAll]
  | cons a as ih => cases bs <;> simp [sameAll, ih]

theorem sameAll_symm {as bs : List (Option (Ty Binary64))} (h : sameAll as bs) :
    sameAll bs as :=
  sameAll_iff.2 ((sameAll_iff.1 h).imp fun _ _ => sameOption_symm).flip

theorem sameAll_trans {as bs cs : List (Option (Ty Binary64))} (hab : sameAll as bs)
    (hbc : sameAll bs cs) : sameAll as cs := by
  induction as generalizing bs cs with
  | nil => cases bs <;> cases cs <;> simp_all [sameAll]
  | cons a as ih =>
    cases bs <;> cases cs <;> simp only [sameAll, Bool.and_eq_true, Bool.false_eq_true] at hab hbc ⊢
    exact ⟨sameOption_trans hab.1 hbc.1, ih hab.2 hbc.2⟩

theorem exists_of_same_matrix {s : Shape} (h : (matrix s).same b) :
    ∃ s', b = .matrix s' ∧ s = s' := by
  cases b <;> simp only [same, beq_iff_eq, Bool.false_eq_true] at h
  exact ⟨_, rfl, h⟩

theorem exists_of_same_interval {iv : Interval Binary64} (h : (interval iv).same b) :
    ∃ iv', b = .interval iv' ∧ iv.same iv' := by
  cases b <;> simp only [same, Bool.false_eq_true] at h
  exact ⟨_, rfl, h⟩

section Pair

variable {α : Type} {mk : α → Ty Binary64} {R : α → α → Prop}
  {as bs : List (Option (Ty Binary64))}

theorem exists_pair_of_sameAll (hmk : ∀ {a b}, (mk a).same b → ∃ a', b = mk a' ∧ R a a') {a b : α}
    (h : sameAll [some (mk a), some (mk b)] bs) :
    ∃ a' b', bs = [some (mk a'), some (mk b')] ∧ R a a' ∧ R b b' := by
  simp only [sameAll_iff, List.forall₂_cons_left_iff, List.forall₂_nil_left_iff] at h
  obtain ⟨τ, -, ha, ⟨υ, -, hb, rfl, rfl⟩, rfl⟩ := h
  cases τ <;> cases υ <;> simp only [sameOption, Bool.false_eq_true] at ha hb
  obtain ⟨a', rfl, hR⟩ := hmk ha
  obtain ⟨b', rfl, hR'⟩ := hmk hb
  exact ⟨a', b', rfl, hR, hR'⟩

/-- Of two equal lists of types, both or none consist of two types of the family `mk`. -/
theorem sameAll_pair_cases (hmk : ∀ {a b}, (mk a).same b → ∃ a', b = mk a' ∧ R a a')
    (h : sameAll as bs) :
    (∃ a b a' b', as = [some (mk a), some (mk b)] ∧ bs = [some (mk a'), some (mk b')] ∧
        R a a' ∧ R b b') ∨
      (∀ a b, as ≠ [some (mk a), some (mk b)]) ∧ ∀ a b, bs ≠ [some (mk a), some (mk b)] := by
  by_cases hpair : ∃ a b, as = [some (mk a), some (mk b)]
  · obtain ⟨a, b, rfl⟩ := hpair
    obtain ⟨a', b', rfl, ha, hb⟩ := exists_pair_of_sameAll hmk h
    exact .inl ⟨a, b, a', b', rfl, rfl, ha, hb⟩
  · refine .inr ⟨fun a b has => hpair ⟨a, b, has⟩, ?_⟩
    rintro a b rfl
    obtain ⟨a', b', has, -⟩ := exists_pair_of_sameAll hmk (sameAll_symm h)
    exact hpair ⟨a', b', has⟩

end Pair

end Ty

/-- A table does not tell equal operand types apart. -/
theorem Registry.lookup_congr (reg : Registry Binary64) (op : Op)
    {args args' : List (Option (Ty Binary64))} (h : Ty.sameAll args args') :
    reg.lookup op args = reg.lookup op args' := by
  have hfits (sig : Signature Binary64) : Ty.sameAll sig.args args = Ty.sameAll sig.args args' :=
    Bool.eq_iff_iff.2 ⟨(Ty.sameAll_trans · h), (Ty.sameAll_trans · (Ty.sameAll_symm h))⟩
  simp only [lookup, hfits]

/-! ## Computations side by side -/

section Parallel

variable {ε α γ : Type} {E : ε → ε → Prop} {R : α → α → Prop} {S : γ → γ → Prop}

/-- Whether two computations both succeed with results that `R` relates, or both fail with errors
that `E` relates. -/
def Parallel (E : ε → ε → Prop) (R : α → α → Prop) (x y : Except ε α) : Prop :=
  (∃ a b, x = .ok a ∧ y = .ok b ∧ R a b) ∨ ∃ e f, x = .error e ∧ y = .error f ∧ E e f

theorem Parallel.ok {a b : α} (h : R a b) : Parallel E R (.ok a) (.ok b) :=
  .inl ⟨a, b, rfl, rfl, h⟩

theorem Parallel.error {e f : ε} (h : E e f) : Parallel E R (.error e) (.error f) :=
  .inr ⟨e, f, rfl, rfl, h⟩

theorem Parallel.refl {x : Except ε α} (hR : ∀ a, x = .ok a → R a a)
    (hE : ∀ e, x = .error e → E e e) : Parallel E R x x := by
  cases x with
  | ok a => exact .ok (hR a rfl)
  | error e => exact .error (hE e rfl)

theorem Parallel.map {x y : Except ε α} (h : Parallel E R x y) {g : α → γ}
    (hg : ∀ a b, R a b → S (g a) (g b)) : Parallel E S (x.map g) (y.map g) := by
  obtain ⟨a, b, rfl, rfl, hab⟩ | ⟨e, f, rfl, rfl, hef⟩ := h
  · exact .ok (hg a b hab)
  · exact .error hef

end Parallel

/-- Whether two errors have the same reason and the same operator, on equal operand types. -/
structure TypeError.Alike (e e' : TypeError Binary64) : Prop where
  reason_eq : e.reason = e'.reason
  op_eq : e.op = e'.op
  args_same : Ty.sameAll e.args e'.args

/-! ## Interval arithmetic -/

namespace Interval

open Binary64

variable {a a' b b' : Interval Binary64}

theorem validBounds_congr {low low' high high' : Binary64} (hlow : low.rank? = low'.rank?)
    (hhigh : high.rank? = high'.rank?) : validBounds low high = validBounds low' high' := by
  have hnan : Bound.isNaN low = Bound.isNaN low' := isNaN_congr hlow
  have hnan' : Bound.isNaN high = Bound.isNaN high' := isNaN_congr hhigh
  have hneg : Bound.lt low Bound.zero = Bound.lt low' Bound.zero := lt_congr hlow rfl
  have hle : Bound.le high low = Bound.le high' low' := le_congr hhigh hlow
  simp only [validBounds, hnan, hnan', hneg, hle]

theorem contains_congr (h : a.same a') (x : Binary64) : a.contains x = a'.contains x := by
  obtain ⟨hlow, hhigh, hil, hih⟩ := same_iff.1 h
  have hbelow : Bound.lt x a.low = Bound.lt x a'.low := lt_congr rfl (rank?_of_eq hlow)
  have habove : Bound.lt a.high x = Bound.lt a'.high x := lt_congr (rank?_of_eq hhigh) rfl
  have hatLow : Bound.eq x a.low = Bound.eq x a'.low := eq_congr rfl (rank?_of_eq hlow)
  have hatHigh : Bound.eq x a.high = Bound.eq x a'.high := eq_congr rfl (rank?_of_eq hhigh)
  simp only [contains, hbelow, habove, hatLow, hatHigh, hil, hih]

theorem sameAll_operands (ha : a.same a') (hb : b.same b') :
    Ty.sameAll [some (.interval a), some (.interval b)]
      [some (.interval a'), some (.interval b')] := by
  simp [Ty.sameAll, Ty.sameOption, Ty.same, ha, hb]

/-- Numerically equal bounds make equal intervals, or neither pair makes one. -/
theorem derive_parallel (op : String) (ha : a.same a') (hb : b.same b')
    {low low' high high' : Binary64} (hlow : low.rank? = low'.rank?)
    (hhigh : high.rank? = high'.rank?) (il ih : Bool) :
    Parallel TypeError.Alike (fun c c' => c.same c') (derive op a b low high il ih)
      (derive op a' b' low' high' il ih) := by
  unfold derive
  rw [← validBounds_congr hlow hhigh]
  split
  · next hvalid =>
    -- Valid bounds are numbers, so having the same rank makes them equal.
    simp only [validBounds, Bool.not_eq_true', Bool.or_eq_false_iff] at hvalid
    obtain ⟨⟨⟨hnum, hnum'⟩, -⟩, -⟩ := hvalid
    exact .ok (same_iff.2 ⟨eq_iff.2 ⟨hlow, hnum⟩, eq_iff.2 ⟨hhigh, hnum'⟩, rfl, rfl⟩)
  · exact .error ⟨rfl, rfl, sameAll_operands ha hb⟩

theorem add_parallel (ha : a.same a') (hb : b.same b') :
    Parallel TypeError.Alike (fun c c' => c.same c') (a.add b) (a'.add b') := by
  obtain ⟨hal, hah, hail, haih⟩ := same_iff.1 ha
  obtain ⟨hbl, hbh, hbil, hbih⟩ := same_iff.1 hb
  simp only [add, hail, haih, hbil, hbih]
  exact derive_parallel "add" ha hb (rank?_add (rank?_of_eq hal) (rank?_of_eq hbl))
    (rank?_add (rank?_of_eq hah) (rank?_of_eq hbh)) _ _

theorem sub_parallel (ha : a.same a') (hb : b.same b') :
    Parallel TypeError.Alike (fun c c' => c.same c') (a.sub b) (a'.sub b') := by
  obtain ⟨hal, hah, hail, haih⟩ := same_iff.1 ha
  obtain ⟨hbl, hbh, hbil, hbih⟩ := same_iff.1 hb
  simp only [sub, hail, haih, hbil, hbih]
  exact derive_parallel "sub" ha hb (rank?_sub (rank?_of_eq hal) (rank?_of_eq hbh))
    (rank?_sub (rank?_of_eq hah) (rank?_of_eq hbl)) _ _

theorem div_parallel (ha : a.same a') (hb : b.same b') :
    Parallel TypeError.Alike (fun c c' => c.same c') (a.div b) (a'.div b') := by
  obtain ⟨hal, hah, hail, haih⟩ := same_iff.1 ha
  obtain ⟨hbl, hbh, hbil, hbih⟩ := same_iff.1 hb
  -- Both sides look for zeros and infinities with the same outcome.
  simp only [div, contains_congr ha, contains_congr hb, hail, haih, hbil, hbih]
  split
  · exact .error ⟨rfl, rfl, sameAll_operands ha hb⟩
  split
  · exact .error ⟨rfl, rfl, sameAll_operands ha hb⟩
  · exact derive_parallel "truediv" ha hb (rank?_extDiv (rank?_of_eq hal) (rank?_of_eq hbh))
      (rank?_extDiv (rank?_of_eq hah) (rank?_of_eq hbl)) _ _

end Interval

/-! ## Domains -/

namespace Domain

/-- The domains that are defined here, where all bounds of result types that a table lists are
numbers. -/
inductive NaNFree : Domain Binary64 → Prop
  | table (name : Text) {registry : Registry Binary64} :
      (∀ sig ∈ registry, ∀ τ ∈ sig.result, τ.NaNFree) → NaNFree (.table name registry)
  | matrix : NaNFree .matrix
  | interval : NaNFree .interval

variable {op : Op} {args args' : List (Option (Ty Binary64))}

theorem noSignature_parallel {α : Type} {R : α → α → Prop} (op : String)
    (h : Ty.sameAll args args') :
    Parallel TypeError.Alike R (.error (.noSignature op args)) (.error (.noSignature op args')) :=
  .error ⟨rfl, rfl, h⟩

theorem resolve_table_parallel {name : Text} {registry : Registry Binary64}
    (hresults : ∀ sig ∈ registry, ∀ τ ∈ sig.result, τ.NaNFree) (h : Ty.sameAll args args') :
    Parallel TypeError.Alike (fun a b => Ty.sameOption a b) ((table name registry).resolve op args)
      ((table name registry).resolve op args') := by
  simp only [table, resolveTable, registry.lookup_congr op h]
  cases hlookup : registry.lookup op args' with
  | none => exact noSignature_parallel _ h
  | some result =>
    -- The same entry decides on both sides.
    obtain ⟨sig, hsig, rfl⟩ := Option.map_eq_some_iff.1 hlookup
    exact .ok (Ty.sameOption_self (hresults sig (List.mem_of_find?_eq_some hsig)))

theorem resolve_matrix_of_not_pair
    (h : ∀ a b, args ≠ [some (.matrix a), some (.matrix b)]) :
    matrix.resolve op args = .error (.noSignature op.name args) := by
  show resolveMatrix op args = _
  unfold resolveMatrix
  split
  case h_4 => rfl
  all_goals exact absurd rfl (h _ _)

theorem resolve_interval_of_not_pair
    (h : ∀ a b, args ≠ [some (.interval a), some (.interval b)]) :
    interval.resolve op args = .error (.noSignature op.name args) := by
  show resolveInterval op args = _
  unfold resolveInterval
  split
  case h_4 => rfl
  all_goals exact absurd rfl (h _ _)

theorem nanFree_of_resolve_matrix {ty : Option (Ty Binary64)}
    (h : matrix.resolve op args = .ok ty) : ∀ τ ∈ ty, τ.NaNFree := by
  rintro τ rfl
  obtain ⟨-, -, -, c, -, rfl, -⟩ := resolve_matrix_eq_ok h
  trivial

theorem resolve_matrix_parallel (h : Ty.sameAll args args') :
    Parallel TypeError.Alike (fun a b => Ty.sameOption a b) (matrix.resolve op args)
      (matrix.resolve op args') := by
  obtain ⟨a, b, a', b', rfl, rfl, rfl, rfl⟩ | ⟨hne, hne'⟩ :=
    Ty.sameAll_pair_cases Ty.exists_of_same_matrix h
  · -- Equal shapes are identical, so both sides ask the same question.
    refine .refl (fun ty hty => Ty.sameOption_self (nanFree_of_resolve_matrix hty)) fun e he => ?_
    exact ⟨rfl, rfl, by rwa [(blames_resolve .matrix he).args_eq]⟩
  · rw [resolve_matrix_of_not_pair hne, resolve_matrix_of_not_pair hne']
    exact noSignature_parallel _ h

theorem resolve_interval_parallel (h : Ty.sameAll args args') :
    Parallel TypeError.Alike (fun a b => Ty.sameOption a b) (interval.resolve op args)
      (interval.resolve op args') := by
  obtain ⟨a, b, a', b', rfl, rfl, ha, hb⟩ | ⟨hne, hne'⟩ :=
    Ty.sameAll_pair_cases Ty.exists_of_same_interval h
  · cases op with
    | add => exact (Interval.add_parallel ha hb).map fun _ _ hc => hc
    | sub => exact (Interval.sub_parallel ha hb).map fun _ _ hc => hc
    | truediv => exact (Interval.div_parallel ha hb).map fun _ _ hc => hc
    | _ => exact noSignature_parallel _ h
  · rw [resolve_interval_of_not_pair hne, resolve_interval_of_not_pair hne']
    exact noSignature_parallel _ h

/-- Equal operand types give equal results, or the same failure of the call. -/
theorem callType_parallel {d : Domain Binary64} (hd : d.NaNFree) (op : Op)
    (h : Ty.sameAll args args') :
    Parallel TypeError.Alike (fun a b => a.same b) (d.callType op args) (d.callType op args') := by
  have hresolve : Parallel TypeError.Alike (fun a b => Ty.sameOption a b) (d.resolve op args)
      (d.resolve op args') := by
    cases hd with
    | table name hresults => exact resolve_table_parallel hresults h
    | matrix => exact resolve_matrix_parallel h
    | interval => exact resolve_interval_parallel h
  unfold callType
  by_cases hop : op.isKnown
  · rw [if_pos hop, if_pos hop]
    obtain ⟨a, b, ha, hb, hab⟩ | ⟨e, f, he, hf, hef⟩ := hresolve
    · rw [ha, hb]
      cases a <;> cases b <;> simp only [Ty.sameOption, Bool.false_eq_true] at hab
      · -- The domain knows the call and gives it no type.
        exact noSignature_parallel _ h
      · exact .ok hab
    · rw [he, hf]
      exact .error hef
  · rw [if_neg hop, if_neg hop]
    exact noSignature_parallel _ h

end Domain

/-! ## Inference -/

/-- Whether two environments declare the same names, and each name with equal types. -/
def Env.SameTypes (env env' : Env Binary64) : Prop :=
  ∀ name, Option.Rel (fun a b => Ty.sameOption a b) (env.get? name) (env'.get? name)

namespace Typed

/-- Whether two typed trees stand for the same expression, with equal types at every node. -/
def Alike (t t' : Typed Binary64) : Prop :=
  List.Forall₂ (fun m m' => m.erase = m'.erase ∧ Ty.sameOption m.ty m'.ty) t.nodes t'.nodes

variable {t t' : Typed Binary64} {ts ts' : List (Typed Binary64)}

theorem Alike.root (h : t.Alike t') : t.erase = t'.erase ∧ Ty.sameOption t.ty t'.ty := by
  unfold Alike at h
  cases t <;> cases t' <;> simp only [nodes] at h <;> exact (List.forall₂_cons.1 h).1

theorem eraseAll_eq (h : List.Forall₂ Alike ts ts') : eraseAll ts = eraseAll ts' := by
  induction h with
  | nil => rfl
  | cons hfirst _ ih => rw [eraseAll, eraseAll, hfirst.root.1, ih]

theorem sameAll_map_ty (h : List.Forall₂ Alike ts ts') :
    Ty.sameAll (ts.map Typed.ty) (ts'.map Typed.ty) := by
  rw [Ty.sameAll_iff, List.forall₂_map_left_iff, List.forall₂_map_right_iff]
  exact h.imp fun _ _ halike => halike.root.2

theorem alike_call (p : Pos) (op : Op) (h : List.Forall₂ Alike ts ts') {ty ty' : Ty Binary64}
    (hty : ty.same ty') : (call p op ts ty).Alike (call p op ts' ty') := by
  have hbelow : List.Forall₂ (fun m m' => m.erase = m'.erase ∧ Ty.sameOption m.ty m'.ty)
      (nodesAll ts) (nodesAll ts') := by
    induction h with
    | nil => exact .nil
    | cons hfirst _ ih => exact List.rel_append hfirst ih
  exact .cons ⟨by rw [erase, erase, eraseAll_eq h], hty⟩ hbelow

end Typed

/-- Whether two faults of inference are at the same position, for typing errors that are alike. -/
def InferFault.Alike (f f' : InferFault Binary64) : Prop :=
  f.pos = f'.pos ∧ ∃ e e', f.error = .typing e ∧ f'.error = .typing e' ∧ e.Alike e'

section Inference

variable {env env' : Env Binary64} {d : Domain Binary64}

theorem infer_sym_parallel (henv : env.SameTypes env') (p : Pos) (name : Text) :
    Parallel InferFault.Alike Typed.Alike (infer env d (.sym p name))
      (infer env' d (.sym p name)) := by
  have hname := henv name
  rw [infer, infer]
  cases hget : env.get? name <;> cases hget' : env'.get? name <;> rw [hget, hget'] at hname <;>
    cases hname
  · exact .error ⟨rfl, _, _, rfl, rfl, rfl, rfl, rfl⟩
  · next hty => exact .ok (.cons ⟨rfl, hty⟩ .nil)

mutual

/-- With equal declarations, inference of a complete expression finds equal types or fails in the
same way. -/
theorem infer_parallel (henv : env.SameTypes env') (hd : d.NaNFree) : ∀ e : Expr, e.isComplete →
    Parallel InferFault.Alike Typed.Alike (infer env d e) (infer env' d e)
  | .lit p l, _ => by
    have hty : (l.ty : Ty Binary64).same l.ty := by
      rcases l.ty_eq_or (β := Binary64) with hl | hl <;> rw [hl] <;> exact Ty.same_self trivial
    exact .ok (.cons ⟨rfl, hty⟩ .nil)
  | .sym p name, _ => infer_sym_parallel henv p name
  | .call p op args, hcomplete => by
    rw [Expr.isComplete] at hcomplete
    rw [infer, infer]
    obtain ⟨ts, ts', hts, hts', halike⟩ | ⟨f, f', hf, hf', hfault⟩ :=
      inferAll_parallel henv hd args hcomplete
    · -- The arguments have equal types, and so the domain treats both calls alike.
      rw [hts, hts']
      dsimp only
      obtain ⟨ty, ty', hty, hty', hsame⟩ | ⟨e, e', he, he', herror⟩ :=
        Domain.callType_parallel hd op (Typed.sameAll_map_ty halike)
      · rw [hty, hty']
        exact .ok (Typed.alike_call p op halike hsame)
      · rw [he, he']
        exact .error ⟨rfl, e, e', rfl, rfl, herror⟩
    · rw [hf, hf']
      exact .error hfault
  | .missing, hcomplete => by cases hcomplete

theorem inferAll_parallel (henv : env.SameTypes env') (hd : d.NaNFree) : ∀ es : List Expr,
    Expr.allComplete es →
    Parallel InferFault.Alike (List.Forall₂ Typed.Alike) (inferAll env d es) (inferAll env' d es)
  | [], _ => .ok .nil
  | e :: es, hcomplete => by
    rw [Expr.allComplete, Bool.and_eq_true] at hcomplete
    rw [inferAll, inferAll]
    obtain ⟨t, t', ht, ht', hfirst⟩ | ⟨f, f', hf, hf', hfault⟩ :=
      infer_parallel henv hd e hcomplete.1
    · rw [ht, ht']
      dsimp only
      obtain ⟨ts, ts', hts, hts', hrest⟩ | ⟨f, f', hf, hf', hfault⟩ :=
        inferAll_parallel henv hd es hcomplete.2
      · rw [hts, hts']
        exact .ok (.cons hfirst hrest)
      · rw [hf, hf']
        exact .error hfault
    · rw [hf, hf']
      exact .error hfault

end

end Inference

/-- Declarations with equal types are interchangeable for inference. In the matrix domain, in the
interval domain and in every table whose listed results have no NaN bounds, inference of a complete
expression succeeds on both sides, with equal types at corresponding nodes, or it fails on both sides
at the same position, for the same reason, with the same operator and with equal operand types. -/
theorem infer_sameTypes {env env' : Env Binary64} {d : Domain Binary64} {e : Expr}
    (henv : env.SameTypes env') (hd : d.NaNFree) (he : e.isComplete) :
    (∃ t t', infer env d e = .ok t ∧ infer env' d e = .ok t' ∧
        List.Forall₂ (fun m m' => m.erase = m'.erase ∧ Ty.sameOption m.ty m'.ty)
          t.nodes t'.nodes) ∨
      ∃ p error error', infer env d e = .error ⟨.typing error, p⟩ ∧
        infer env' d e = .error ⟨.typing error', p⟩ ∧ error.reason = error'.reason ∧
        error.op = error'.op ∧ Ty.sameAll error.args error'.args := by
  obtain ⟨t, t', ht, ht', halike⟩ | ⟨⟨_, p⟩, ⟨_, _⟩, hf, hf', rfl, error, error', rfl, rfl, halike⟩
    := infer_parallel henv hd e he
  · exact .inl ⟨t, t', ht, ht', halike⟩
  · exact .inr ⟨p, error, error', hf, hf', halike.reason_eq, halike.op_eq, halike.args_same⟩

/-- A quotient with a zero of either sign as lower bound of its dividend. The results are not
identical either. -/
theorem infer_sameTypes_zeros :
    let x : Ty Binary64 := .interval ⟨.zero, .infinity, true, false⟩
    let x' : Ty Binary64 := .interval ⟨.neg .zero, .infinity, true, false⟩
    let y : Ty Binary64 := .interval ⟨.zero, .infinity, false, false⟩
    let rest : Env Binary64 := Bindings.empty.insert (Text.ofString "y") (some y)
    let env : Env Binary64 := rest.insert (Text.ofString "x") (some x)
    let env' : Env Binary64 := rest.insert (Text.ofString "x") (some x')
    let e : Expr := .call ⟨1, 3⟩ .truediv [.sym ⟨1, 1⟩ "x", .sym ⟨1, 5⟩ "y"]
    env.SameTypes env' ∧ ∃ t t', infer env .interval e = .ok t ∧ infer env' .interval e = .ok t' ∧
      t.ty ≠ t'.ty ∧ Ty.sameOption t.ty t'.ty := by
  intro x x' y rest env env' e
  have henv : env.SameTypes env' := by
    intro name
    simp only [env, env', rest, Bindings.get?_insert, Bindings.get?_empty]
    split
    · exact .some (by decide)
    split
    · exact .some (by decide)
    · exact .none
  have h : infer env .interval e = .ok (.call ⟨1, 3⟩ .truediv
      [.sym ⟨1, 1⟩ "x" (some x), .sym ⟨1, 5⟩ "y" (some y)] y) := rfl
  have h' : infer env' .interval e = .ok (.call ⟨1, 3⟩ .truediv
      [.sym ⟨1, 1⟩ "x" (some x'), .sym ⟨1, 5⟩ "y" (some y)]
      (.interval ⟨.neg .zero, .infinity, false, false⟩)) := rfl
  obtain ⟨t, t', ht, ht', hnodes⟩ | ⟨p, error, error', herror, -⟩ :=
    infer_sameTypes henv .interval (e := e) (by decide)
  · rw [h] at ht
    rw [h'] at ht'
    cases ht
    cases ht'
    exact ⟨henv, _, _, h, h', by decide, (List.forall₂_cons.1 hnodes).1.2⟩
  · rw [h] at herror
    cases herror

end ExprTyping
