import Mathlib.Data.List.Find
import Mathlib.Data.List.Pairwise
import ExprTyping.Proofs.TypeEquality

/-!
# The order of a registry

The first signature that fits a call decides it. Two signatures fit the same call only if they fit
each other, because equality of types is symmetric and transitive. So the order of a registry
matters only between signatures that overlap, and a registry can be extended at its end without
loss.

- `Registry.IsUnambiguous`: registries without overlapping signatures;
- `Registry.lookup_perm` and `Registry.lookup_append`: a reordered and an extended registry;
- `infer_of_resolve_eq` and `infer_of_extends`: inference sees of a domain only what it resolves;
- `infer_registry`: inference with a reordered and with an extended registry.
-/

namespace ExprTyping

/-! ## Look-ups -/

/-- Whether two signatures are for the same operator on equal operand types. -/
def Signature.Overlaps (sig sig' : Signature Binary64) : Prop :=
  sig.op = sig'.op ∧ Ty.sameAll sig.args sig'.args

instance (sig sig' : Signature Binary64) : Decidable (sig.Overlaps sig') :=
  inferInstanceAs (Decidable (_ ∧ _))

theorem Signature.Overlaps.symm {sig sig' : Signature Binary64} (h : sig.Overlaps sig') :
    sig'.Overlaps sig :=
  ⟨h.1.symm, Ty.sameAll_symm h.2⟩

namespace Registry

/-- Whether no two signatures of a registry overlap. -/
def IsUnambiguous (reg : Registry Binary64) : Prop :=
  reg.Pairwise fun sig sig' => ¬ sig.Overlaps sig'

instance (reg : Registry Binary64) : Decidable reg.IsUnambiguous :=
  inferInstanceAs (Decidable (List.Pairwise _ _))

variable {reg reg' : Registry Binary64} {op : Op} {args : List (Option (Ty Binary64))}

/-- Two signatures that fit one call overlap, so an unambiguous registry holds at most one that
does. -/
theorem IsUnambiguous.eq_of_fits (h : reg.IsUnambiguous) {sig sig' : Signature Binary64}
    (hsig : sig ∈ reg) (hsig' : sig' ∈ reg) (hfits : sig.op = op ∧ Ty.sameAll sig.args args)
    (hfits' : sig'.op = op ∧ Ty.sameAll sig'.args args) : sig = sig' := by
  have hsymm : Std.Symm fun sig sig' : Signature Binary64 => ¬ sig.Overlaps sig' :=
    ⟨fun _ _ hdisjoint hoverlap => hdisjoint hoverlap.symm⟩
  have hoverlap : sig.Overlaps sig' :=
    ⟨hfits.1.trans hfits'.1.symm, Ty.sameAll_trans hfits.2 (Ty.sameAll_symm hfits'.2)⟩
  by_contra hne
  exact List.Pairwise.forall h hsig hsig' hne hoverlap

/-- The order of an unambiguous registry does not matter. -/
theorem lookup_perm (h : reg.IsUnambiguous) (hperm : reg.Perm reg') (op : Op)
    (args : List (Option (Ty Binary64))) : reg.lookup op args = reg'.lookup op args := by
  unfold lookup
  refine congrArg (Option.map Signature.result) (List.find?_eq_find?_of_perm hperm ?_)
  rintro sig ⟨hsig, hfits⟩ sig' ⟨hsig', hfits'⟩
  simp only [Bool.and_eq_true, beq_iff_eq] at hfits hfits'
  exact h.eq_of_fits hsig hsig' hfits hfits'

example :
    let sig : Signature Binary64 := ⟨.add, [some .int, some .int], some .int⟩
    let sig' : Signature Binary64 := ⟨.add, [some .int, some .int], some .real⟩
    Registry.lookup [sig, sig'] .add [some .int, some .int] ≠
      Registry.lookup [sig', sig] .add [some .int, some .int] := by
  decide

/-- Signatures are asked only where those in front of them know nothing. -/
theorem lookup_append (reg more : Registry Binary64) (op : Op)
    (args : List (Option (Ty Binary64))) :
    (reg ++ more).lookup op args = (reg.lookup op args).or (more.lookup op args) := by
  rw [lookup, List.find?_append, Option.map_or]
  rfl

end Registry

/-! ## Inference -/

section Domains

variable {β : Type} [Bound β] {env : Env β} {d d' : Domain β}

mutual

/-- Domains that resolve every call alike give the same typed tree or the same failure. -/
theorem infer_of_resolve_eq (h : ∀ op args, d.resolve op args = d'.resolve op args) : ∀ e : Expr,
    infer env d e = infer env d' e
  | .lit p l => by simp [infer]
  | .sym p name => by simp [infer]
  | .call p op args => by
    have hargs : inferAll env d args = inferAll env d' args := inferAll_of_resolve_eq h args
    simp only [infer, hargs, Domain.callType, h]
  | .missing => by simp [infer]

theorem inferAll_of_resolve_eq (h : ∀ op args, d.resolve op args = d'.resolve op args) :
    ∀ es : List Expr, inferAll env d es = inferAll env d' es
  | [] => by simp [inferAll]
  | e :: es => by
    have hfirst : infer env d e = infer env d' e := infer_of_resolve_eq h e
    have hrest : inferAll env d es = inferAll env d' es := inferAll_of_resolve_eq h es
    simp only [inferAll, hfirst, hrest]

end

/-- Whether the second domain gives every call that has a type in the first one the same type. -/
def Domain.IsExtendedBy (d d' : Domain β) : Prop :=
  ∀ op args ty, d.resolve op args = .ok (some ty) → d'.resolve op args = .ok (some ty)

mutual

/-- What inference finds in a domain, it finds in every extension of it. -/
theorem infer_of_extends (h : d.IsExtendedBy d') : ∀ (e : Expr) (t : Typed β),
    infer env d e = .ok t → infer env d' e = .ok t
  | .lit p l, t, ht => by
    cases ht
    rfl
  | .sym p name, t, ht => infer_sym_eq_ok.2 (infer_sym_eq_ok.1 ht)
  | .call p op args, t, ht => by
    obtain ⟨typed, ty, hargs, hop, hresolve, rfl⟩ := infer_call_eq_ok.1 ht
    have hargs' := inferAll_of_extends h args typed hargs
    exact infer_call_eq_ok.2 ⟨typed, ty, hargs', hop, h op _ ty hresolve, rfl⟩
  | .missing, t, ht => by cases ht

theorem inferAll_of_extends (h : d.IsExtendedBy d') : ∀ (es : List Expr) (ts : List (Typed β)),
    inferAll env d es = .ok ts → inferAll env d' es = .ok ts
  | [], ts, hts => by
    cases hts
    rfl
  | e :: es, ts, hts => by
    obtain ⟨t, rest, ht, hrest, rfl⟩ := inferAll_cons_eq_ok.1 hts
    exact inferAll_cons_eq_ok.2
      ⟨t, rest, infer_of_extends h e t ht, inferAll_of_extends h es rest hrest, rfl⟩

end

end Domains

namespace Domain

variable {reg : Registry Binary64}

theorem resolve_table_perm (h : reg.IsUnambiguous) {reg' : Registry Binary64}
    (hperm : reg.Perm reg') (name name' : Text) (op : Op) (args : List (Option (Ty Binary64))) :
    (table name reg).resolve op args = (table name' reg').resolve op args := by
  simp only [table, resolveTable, Registry.lookup_perm h hperm op args]

theorem resolve_table_eq_ok {name : Text} {op : Op} {args : List (Option (Ty Binary64))}
    {result : Option (Ty Binary64)} :
    (table name reg).resolve op args = .ok result ↔ reg.lookup op args = some result := by
  simp only [table, resolveTable]
  cases reg.lookup op args <;> simp

/-- A table is extended by signatures behind its own, whether or not they overlap. -/
theorem isExtendedBy_append (name name' : Text) (reg more : Registry Binary64) :
    (table name reg).IsExtendedBy (table name' (reg ++ more)) := by
  intro op args ty h
  rw [resolve_table_eq_ok] at h ⊢
  rw [Registry.lookup_append, h, Option.some_or]

end Domain

/-- Reordering a registry without overlapping signatures changes nothing about inference, neither a
typed tree nor a failure. Signatures added behind a registry, overlapping or not, leave every typed
tree as it was. -/
theorem infer_registry (name name' : Text) (reg : Registry Binary64) (env : Env Binary64)
    (e : Expr) :
    (reg.IsUnambiguous → ∀ reg', reg.Perm reg' →
        infer env (.table name reg) e = infer env (.table name' reg') e) ∧
      ∀ more t, infer env (.table name reg) e = .ok t →
        infer env (.table name' (reg ++ more)) e = .ok t := by
  constructor
  · intro h reg' hperm
    exact infer_of_resolve_eq (Domain.resolve_table_perm h hperm name name') e
  · intro more t ht
    exact infer_of_extends (Domain.isExtendedBy_append name name' reg more) e t ht

/-- Two signatures for an operand with bounds that are not numbers do not overlap, since neither
fits any call. The table also has a signature without a result, and one for an operand without a
type that the signature behind it overlaps. -/
theorem infer_registry_oddEntries :
    let odd : Ty Binary64 := .interval ⟨.nan, .nan, true, true⟩
    let reg : Registry Binary64 := [⟨.neg, [some odd], some .int⟩, ⟨.neg, [some odd], some .real⟩,
      ⟨.add, [some .int, none], some .bool⟩, ⟨.neg, [some .bool], none⟩]
    let more : Registry Binary64 := [⟨.add, [some .int, none], some .real⟩]
    let env : Env Binary64 := Bindings.empty.insert (Text.ofString "x") none
    let sum : Expr := .call ⟨1, 4⟩ .add [.lit ⟨1, 3⟩ (.ofInt 1), .sym ⟨1, 5⟩ "x"]
    let t : Typed Binary64 := .call ⟨1, 4⟩ .add
      [.lit ⟨1, 3⟩ (.ofInt 1) .int, .sym ⟨1, 5⟩ "x" none] .bool
    reg.IsUnambiguous ∧ reg.Perm reg.reverse ∧
      infer env (.table "t" reg) (.call ⟨1, 1⟩ .neg [sum]) =
        infer env (.table "u" reg.reverse) (.call ⟨1, 1⟩ .neg [sum]) ∧
      infer env (.table "t" reg) sum = .ok t ∧
      infer env (.table "u" (reg ++ more)) sum = .ok t := by
  intro odd reg more env sum t
  have hreg : reg.IsUnambiguous := by decide
  have hperm : reg.Perm reg.reverse := reg.reverse_perm.symm
  have ht : infer env (.table "t" reg) sum = .ok t := rfl
  exact ⟨hreg, hperm, (infer_registry "t" "u" reg env _).1 hreg _ hperm, ht,
    (infer_registry "t" "u" reg env sum).2 more t ht⟩

end ExprTyping
