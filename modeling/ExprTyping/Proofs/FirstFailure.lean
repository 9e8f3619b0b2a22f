import ExprTyping.Diagnostic
import ExprTyping.Proofs.Typing

/-!
# Where inference stops

Inference takes arguments before their call and from left to right, so it meets the nodes of an
expression in post-order and stops at the first one that has no type. The report names this node:
its position, and either the undeclared symbol or the operator with the types of its operands.
Those errors come from the table, the shapes, the intervals and the engine itself; all of them
describe the call that failed in the same way.

- `Domain.blames_callType`: an error of a call names its operator and its operand types;
- `infer_firstFailure`: a fault of inference is that of the first node without a type;
- `report_firstFailure`: the report of such a fault.
-/

namespace ExprTyping

namespace Expr

mutual

/-- The nodes in post-order, a call behind its arguments. Empty places are left out. -/
def postOrder : Expr → List Expr
  | .lit p l => [.lit p l]
  | .sym p name => [.sym p name]
  | .call p op args => postOrderAll args ++ [.call p op args]
  | .missing => []

/-- The nodes of several expressions, one after the other. -/
def postOrderAll : List Expr → List Expr
  | [] => []
  | e :: es => e.postOrder ++ postOrderAll es

end

end Expr

variable {β : Type} [Bound β]

/-! ## Errors of calls -/

namespace TypeError

/-- The reasons why a call has no type. -/
def callReasons : List Reason :=
  [.noMatchingSignature, .shapeMismatch, .possibleZeroOverZero, .possibleInfOverInf,
    .invalidInterval]

/-- Whether an error is about the operator `op` on operands of the types `args`. -/
structure Blames (error : TypeError β) (op : String) (args : List (Option (Ty β))) : Prop where
  op_eq : error.op = op
  args_eq : error.args = args
  reason_mem : error.reason ∈ callReasons

theorem blames_onOperands {reason : Reason} (h : reason ∈ callReasons) (op : String)
    (args : List (Option (Ty β))) : (onOperands reason op args).Blames op args :=
  ⟨rfl, rfl, h⟩

theorem blames_noSignature (op : String) (args : List (Option (Ty β))) :
    (noSignature op args).Blames op args :=
  blames_onOperands (by decide) op args

end TypeError

namespace Shape

variable {a b : Shape} {error : TypeError β}

theorem blames_mismatch (op : String) (a b : Shape) :
    (mismatch op a b : TypeError β).Blames op [some (.matrix a), some (.matrix b)] :=
  TypeError.blames_onOperands (by decide) op _

theorem blames_entrywise {op : String} (h : entrywise op a b = .error error) :
    error.Blames op [some (.matrix a), some (.matrix b)] := by
  unfold entrywise at h
  split at h
  · cases h
  · cases h
    exact blames_mismatch op a b

theorem blames_mul (h : mul a b = .error error) :
    error.Blames "mul" [some (.matrix a), some (.matrix b)] := by
  unfold mul at h
  split at h
  · cases h
  · cases h
    exact blames_mismatch "mul" a b

end Shape

namespace Interval

variable {a b : Interval β} {error : TypeError β}

theorem blames_derive {op : String} {low high : β} {includesLow includesHigh : Bool}
    (h : derive op a b low high includesLow includesHigh = .error error) :
    error.Blames op [some (.interval a), some (.interval b)] := by
  unfold derive at h
  split at h
  · cases h
  · cases h
    exact ⟨rfl, rfl, by simp [TypeError.callReasons]⟩

theorem blames_div (h : div a b = .error error) :
    error.Blames "truediv" [some (.interval a), some (.interval b)] := by
  unfold div at h
  dsimp only at h
  split at h
  · cases h
    exact TypeError.blames_onOperands (by decide) _ _
  · split at h
    · cases h
      exact TypeError.blames_onOperands (by decide) _ _
    · exact blames_derive h

end Interval

namespace Domain

variable {d : Domain β} {op : Op} {args : List (Option (Ty β))} {error : TypeError β}

omit [Bound β] in
theorem eq_error_of_map {α : Type} {x : Except (TypeError β) α} {f : α → Option (Ty β)}
    (h : x.map f = .error error) : x = .error error := by
  cases x with
  | error e =>
    cases h
    rfl
  | ok a => cases h

/-- The domains that are defined here: tables over any registry, matrices and intervals. -/
inductive IsStandard : Domain β → Prop
  | table (name : Text) (registry : Registry β) : IsStandard (.table name registry)
  | matrix : IsStandard .matrix
  | interval : IsStandard .interval

theorem blames_resolve (hd : d.IsStandard) (h : d.resolve op args = .error error) :
    error.Blames op.name args := by
  cases hd with
  | table name registry =>
    change resolveTable registry op args = _ at h
    unfold resolveTable at h
    split at h
    · cases h
    · cases h
      exact TypeError.blames_noSignature _ _
  | matrix =>
    change resolveMatrix op args = _ at h
    unfold resolveMatrix at h
    split at h
    · exact Shape.blames_entrywise (eq_error_of_map h)
    · exact Shape.blames_entrywise (eq_error_of_map h)
    · exact Shape.blames_mul (eq_error_of_map h)
    · cases h
      exact TypeError.blames_noSignature _ _
  | interval =>
    change resolveInterval op args = _ at h
    unfold resolveInterval at h
    split at h
    · exact Interval.blames_derive (eq_error_of_map h)
    · exact Interval.blames_derive (eq_error_of_map h)
    · exact Interval.blames_div (eq_error_of_map h)
    · cases h
      exact TypeError.blames_noSignature _ _

/-- An error of a call names its operator and its operand types, wherever it was made. -/
theorem blames_callType (hd : d.IsStandard) (h : d.callType op args = .error error) :
    error.Blames op.name args := by
  unfold callType at h
  split at h
  · split at h
    · cases h
    · -- The domain knows the call and gives it no type.
      cases h
      exact TypeError.blames_noSignature _ _
    · next e hresolve =>
      cases h
      exact blames_resolve hd hresolve
  · cases h
    exact TypeError.blames_noSignature _ _

end Domain

/-! ## The first node without a type -/

/-- Whether an expression has a type. -/
def Typable (env : Env β) (d : Domain β) (e : Expr) : Prop :=
  ∃ ty, HasType env d e ty

/-- Whether an error says why a node has no type although all its children have one: the symbol is
not declared, or the operator has no type on the types of the children. -/
def Explains (env : Env β) (d : Domain β) (error : TypeError β) : Expr → Prop
  | .sym _ name => error.reason = .unboundSymbol ∧ error.symbol = name
  | .call _ op args => HasTypes env d args error.args ∧ error.op = op.name ∧
      error.reason ∈ TypeError.callReasons
  | _ => False

/-- Whether an error is what inference stops with at a node whose children all have types. -/
def StopsAt (env : Env β) (d : Domain β) (error : TypeError β) : Expr → Prop
  | .sym _ name => error = .unbound name
  | .call _ op args => ∃ tys, HasTypes env d args tys ∧ d.callType op tys = .error error
  | _ => False

/-- Whether the first of the nodes without a type is the cause of a fault. -/
def FirstFailure (env : Env β) (d : Domain β) (nodes : List Expr) (f : InferFault β) : Prop :=
  ∃ before n after error, nodes = before ++ n :: after ∧ (∀ m ∈ before, Typable env d m) ∧
    ¬ Typable env d n ∧ StopsAt env d error n ∧ f = ⟨.typing error, n.pos⟩

variable {env : Env β} {d : Domain β}

theorem StopsAt.explains (hd : d.IsStandard) {error : TypeError β} {n : Expr}
    (h : StopsAt env d error n) : Explains env d error n := by
  cases n with
  | lit p l => exact h
  | sym p name =>
    subst h
    exact ⟨rfl, rfl⟩
  | call p op args =>
    -- The error lists the types of the arguments.
    obtain ⟨tys, htys, hcall⟩ := h
    have hblames := Domain.blames_callType hd hcall
    rw [← hblames.args_eq] at htys
    exact ⟨htys, hblames.op_eq, hblames.reason_mem⟩
  | missing => exact h

theorem typable_iff {e : Expr} : Typable env d e ↔ ∃ t, infer env d e = .ok t := by
  constructor
  · rintro ⟨ty, hty⟩
    obtain ⟨t, ht, -⟩ := infer_complete e ty hty
    exact ⟨t, ht⟩
  · rintro ⟨t, ht⟩
    exact ⟨t.ty, infer_sound e t ht⟩

theorem not_typable {e : Expr} {f : InferFault β} (h : infer env d e = .error f) :
    ¬ Typable env d e := by
  intro htypable
  obtain ⟨t, ht⟩ := typable_iff.1 htypable
  rw [h] at ht
  cases ht

namespace FirstFailure

variable {nodes : List Expr} {f : InferFault β}

theorem append_right (h : FirstFailure env d nodes f) (more : List Expr) :
    FirstFailure env d (nodes ++ more) f := by
  obtain ⟨before, n, after, error, rfl, hbefore, hn, hstops, hf⟩ := h
  exact ⟨before, n, after ++ more, error, by simp, hbefore, hn, hstops, hf⟩

theorem append_left {front : List Expr} (hfront : ∀ m ∈ front, Typable env d m)
    (h : FirstFailure env d nodes f) : FirstFailure env d (front ++ nodes) f := by
  obtain ⟨before, n, after, error, rfl, hbefore, hn, hstops, hf⟩ := h
  refine ⟨front ++ before, n, after, error, by simp, ?_, hn, hstops, hf⟩
  exact List.forall_mem_append.2 ⟨hfront, hbefore⟩

theorem singleton {n : Expr} {error : TypeError β} (hn : ¬ Typable env d n)
    (hstops : StopsAt env d error n) : FirstFailure env d [n] ⟨.typing error, n.pos⟩ :=
  ⟨[], n, [], error, rfl, nofun, hn, hstops, rfl⟩

end FirstFailure

mutual

/-- All nodes of an expression that inference types have a type. -/
theorem typable_postOrder : ∀ (e : Expr) (t : Typed β), infer env d e = .ok t →
    ∀ m ∈ e.postOrder, Typable env d m
  | .lit p l, t, h => by
    intro m hm
    rw [Expr.postOrder, List.mem_singleton] at hm
    exact typable_iff.2 ⟨t, hm ▸ h⟩
  | .sym p name, t, h => by
    intro m hm
    rw [Expr.postOrder, List.mem_singleton] at hm
    exact typable_iff.2 ⟨t, hm ▸ h⟩
  | .call p op args, t, h => by
    obtain ⟨typed, ty, hargs, -, -, -⟩ := infer_call_eq_ok.1 h
    intro m hm
    rw [Expr.postOrder, List.mem_append, List.mem_singleton] at hm
    rcases hm with hm | rfl
    · exact typable_postOrderAll args typed hargs m hm
    · exact typable_iff.2 ⟨t, h⟩
  | .missing, t, h => by cases h

theorem typable_postOrderAll : ∀ (es : List Expr) (ts : List (Typed β)),
    inferAll env d es = .ok ts → ∀ m ∈ Expr.postOrderAll es, Typable env d m
  | [], ts, h => by simp [Expr.postOrderAll]
  | e :: es, ts, h => by
    obtain ⟨t, rest, ht, hrest, -⟩ := inferAll_cons_eq_ok.1 h
    rw [Expr.postOrderAll]
    exact List.forall_mem_append.2
      ⟨typable_postOrder e t ht, typable_postOrderAll es rest hrest⟩

end

mutual

/-- A fault of inference is that of the first node in post-order that has no type. -/
theorem infer_firstFailure : ∀ (e : Expr) (f : InferFault β), e.isComplete →
    infer env d e = .error f → FirstFailure env d e.postOrder f
  | .lit p l, f, _, h => by cases h
  | .sym p name, f, _, h => by
    have hn := not_typable h
    rw [infer] at h
    cases hget : env.get? name with
    | some ty =>
      rw [hget] at h
      cases h
    | none =>
      rw [hget] at h
      cases h
      exact .singleton hn rfl
  | .call p op args, f, hcomplete, h => by
    have hn := not_typable h
    rw [Expr.isComplete] at hcomplete
    rw [infer] at h
    rw [Expr.postOrder]
    cases hargs : inferAll env d args with
    | error g =>
      -- The failure is below the call, which stands behind all nodes of its arguments.
      rw [hargs] at h
      cases h
      exact (inferAll_firstFailure args f hcomplete hargs).append_right _
    | ok typed =>
      rw [hargs] at h
      dsimp only at h
      cases hcall : d.callType op (typed.map Typed.ty) with
      | ok ty =>
        rw [hcall] at h
        cases h
      | error error =>
        -- All arguments have types, and the operator has none on them.
        rw [hcall] at h
        cases h
        have htypes := inferAll_sound args typed hargs
        exact (FirstFailure.singleton hn ⟨_, htypes, hcall⟩).append_left
          (typable_postOrderAll args typed hargs)
  | .missing, f, hcomplete, _ => by cases hcomplete

/-- A fault among several expressions is that of the first node without a type, from left to
right. -/
theorem inferAll_firstFailure : ∀ (es : List Expr) (f : InferFault β), Expr.allComplete es →
    inferAll env d es = .error f → FirstFailure env d (Expr.postOrderAll es) f
  | [], f, _, h => by cases h
  | e :: es, f, hcomplete, h => by
    rw [Expr.allComplete, Bool.and_eq_true] at hcomplete
    obtain ⟨he, hes⟩ := hcomplete
    rw [inferAll] at h
    rw [Expr.postOrderAll]
    cases hfirst : infer env d e with
    | error g =>
      rw [hfirst] at h
      cases h
      exact (infer_firstFailure e f he hfirst).append_right _
    | ok t =>
      -- The first expression has types throughout, so the failure is in the others.
      rw [hfirst] at h
      dsimp only at h
      cases hrest : inferAll env d es with
      | ok ts =>
        rw [hrest] at h
        cases h
      | error g =>
        rw [hrest] at h
        cases h
        exact (inferAll_firstFailure es f hes hrest).append_left (typable_postOrder e t hfirst)

end

/-- If inference in a table, the matrix or the interval domain fails on a complete expression, the
report is about the first node in post-order that has no type. All nodes before it and all its
children have types, and the report has the given filename, the position of the node, and an error
that names the undeclared symbol or the operator with the types of the children. -/
theorem report_firstFailure (env : Env Binary64) {d : Domain Binary64} (hd : d.IsStandard)
    (filename : Text) {e : Expr} {f : InferFault Binary64} (hcomplete : e.isComplete)
    (h : infer env d e = .error f) :
    ∃ before n after error, e.postOrder = before ++ n :: after ∧
      (∀ m ∈ before, Typable env d m) ∧ ¬ Typable env d n ∧ Explains env d error n ∧
      Diagnostic.ofInfer filename f = ⟨.type, filename, n.pos, some (.typing error)⟩ := by
  obtain ⟨before, n, after, error, hnodes, hbefore, hn, hstops, rfl⟩ :=
    infer_firstFailure e f hcomplete h
  exact ⟨before, n, after, error, hnodes, hbefore, hn, hstops.explains hd, rfl⟩

/-- In `A B + C` the product of two shapes that do not fit comes before the undeclared symbol. -/
theorem report_firstFailure_product :
    let shape : Ty Binary64 := .matrix ⟨2, 3⟩
    let env : Env Binary64 :=
      (Bindings.empty.insert (Text.ofString "A") (some shape)).insert (Text.ofString "B")
        (some shape)
    let product : Expr := .call ⟨1, 3⟩ .mul [.sym ⟨1, 1⟩ "A", .sym ⟨1, 3⟩ "B"]
    let e : Expr := .call ⟨1, 5⟩ .add [product, .sym ⟨1, 7⟩ "C"]
    let error : TypeError Binary64 :=
      .onOperands .shapeMismatch "mul" [some shape, some shape]
    infer env .matrix e = .error ⟨.typing error, ⟨1, 3⟩⟩ ∧
      ∃ before n after, e.postOrder = before ++ n :: after ∧
        (∀ m ∈ before, Typable env .matrix m) ∧ ¬ Typable env .matrix n ∧
        Explains env .matrix error n ∧ n.pos = ⟨1, 3⟩ := by
  intro shape env product e error
  have h : infer env .matrix e = .error ⟨.typing error, ⟨1, 3⟩⟩ := rfl
  obtain ⟨before, n, after, found, hnodes, hbefore, hn, hexplains, hreport⟩ :=
    report_firstFailure env .matrix "input" (by decide) h
  simp only [Diagnostic.ofInfer, Diagnostic.mk.injEq, Option.some.injEq, Cause.typing.injEq,
    true_and] at hreport
  obtain ⟨hpos, rfl⟩ := hreport
  exact ⟨h, before, n, after, hnodes, hbefore, hn, hexplains, hpos.symm⟩

end ExprTyping
