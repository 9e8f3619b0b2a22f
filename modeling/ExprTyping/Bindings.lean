import ExprTyping.Text.Basic

/-!
# Bindings of names

A finite map from names to values. Entries are kept in ascending order of the names' bytes, which
is the order in which they are listed, and each name has one entry; so two bindings that agree on
every name are equal.
-/

namespace ExprTyping

namespace Text

theorem rank_injective {g h : Glyph} (e : rank g = rank h) : g = h := by
  cases g with
  | char c =>
    cases h with
    | char d =>
      simp only [rank, Nat.add_right_cancel_iff] at e
      rw [Char.ext (UInt32.toNat_inj.1 e)]
    | stray b =>
      have := b.toNat_lt
      simp only [rank] at e
      omega
  | stray a =>
    cases h with
    | char d =>
      have := a.toNat_lt
      simp only [rank] at e
      omega
    | stray b => rw [UInt8.toNat_inj.1 e]

/-- Behind a mark that occurs in neither list, the rests agree. -/
theorem eq_of_append_mark_eq {a b x y : List Nat} (ha : 0 ∉ a) (hb : 0 ∉ b)
    (h : a ++ 0 :: x = b ++ 0 :: y) : x = y := by
  induction a generalizing b with
  | nil =>
    cases b with
    | nil => simpa using h
    | cons n b =>
      simp only [List.cons_append, List.nil_append, List.cons.injEq] at h
      exact absurd (by simp [h.1]) hb
  | cons m a ih =>
    cases b with
    | nil =>
      simp only [List.cons_append, List.nil_append, List.cons.injEq] at h
      exact absurd (by simp [h.1]) ha
    | cons n b =>
      simp only [List.cons_append, List.cons.injEq] at h
      exact ih (fun hm => ha (by simp [hm])) (fun hm => hb (by simp [hm])) h.2

theorem sortKey_injective {t u : Text} (h : sortKey t = sortKey u) : t = u := by
  have mark (v : Text) : 0 ∉ (toBytes v).map (·.toNat + 1) := by simp
  have hr := eq_of_append_mark_eq (mark t) (mark u) h
  clear h
  induction t generalizing u with
  | nil => cases u <;> simp_all
  | cons g t ih =>
    cases u with
    | nil => simp_all
    | cons k u =>
      simp only [List.map_cons, List.cons.injEq] at hr
      rw [rank_injective hr.1, ih hr.2]

theorem Before.irrefl (t : Text) : ¬ Before t t :=
  List.lt_irrefl _

theorem Before.trans {t u v : Text} (h : Before t u) (k : Before u v) : Before t v :=
  List.lt_trans h k

/-- Of two different texts one comes first. -/
theorem Before.of_not_before {t u : Text} (hne : t ≠ u) (h : ¬ Before t u) : Before u t := by
  rcases List.le_total (sortKey u) (sortKey t) with hle | hle
  · rcases List.le_iff_lt_or_eq.1 hle with hlt | heq
    · exact hlt
    · exact absurd (sortKey_injective heq).symm hne
  · rcases List.le_iff_lt_or_eq.1 hle with hlt | heq
    · exact absurd hlt h
    · exact absurd (sortKey_injective heq) hne

end Text

/-- Names with their values, in ascending order of the names. -/
structure Bindings (α : Type) where
  /-- The entries. -/
  entries : List (Text × α)
  /-- Every name comes before those of the entries behind it. -/
  ordered : entries.Pairwise fun a b => Text.Before a.1 b.1

namespace Bindings

variable {α : Type}

/-- No names. -/
def empty : Bindings α := ⟨[], .nil⟩

instance : Inhabited (Bindings α) := ⟨empty⟩

/-- The value of a name among some entries. -/
def find (name : Text) : List (Text × α) → Option α
  | [] => none
  | (n, a) :: rest => if n = name then some a else find name rest

/-- The value of a name. -/
def get? (b : Bindings α) (name : Text) : Option α :=
  find name b.entries

/-- Puts a name at its place, replacing the value it may have. -/
def place (name : Text) (value : α) : List (Text × α) → List (Text × α)
  | [] => [(name, value)]
  | (n, a) :: rest =>
    if n = name then (name, value) :: rest
    else if Text.Before name n then (name, value) :: (n, a) :: rest
    else (n, a) :: place name value rest

theorem mem_place {name : Text} {value : α} {entries : List (Text × α)} {e : Text × α}
    (h : e ∈ place name value entries) : e = (name, value) ∨ e ∈ entries := by
  fun_induction place name value entries <;> grind

theorem ordered_place (name : Text) (value : α) {entries : List (Text × α)}
    (h : entries.Pairwise fun a b => Text.Before a.1 b.1) :
    (place name value entries).Pairwise fun a b => Text.Before a.1 b.1 := by
  fun_induction place name value entries with
  | case1 => simp
  | case2 =>
    rw [List.pairwise_cons] at h ⊢
    exact h
  | case3 n a rest hne hlt =>
    refine List.pairwise_cons.2 ⟨fun b hb => ?_, h⟩
    rcases List.mem_cons.1 hb with rfl | hb
    · exact hlt
    · exact hlt.trans ((List.pairwise_cons.1 h).1 b hb)
  | case4 n a rest hne hlt ih =>
    rw [List.pairwise_cons] at h ⊢
    refine ⟨fun b hb => ?_, ih h.2⟩
    rcases mem_place hb with rfl | hb
    · exact Text.Before.of_not_before (fun e => hne e.symm) hlt
    · exact h.1 b hb

/-- Binds a name, replacing the value it may have. -/
def insert (b : Bindings α) (name : Text) (value : α) : Bindings α :=
  ⟨place name value b.entries, ordered_place name value b.ordered⟩

/-- Forgets a name. -/
def erase (b : Bindings α) (name : Text) : Bindings α :=
  ⟨b.entries.filter fun entry => entry.1 != name, b.ordered.filter _⟩

/-- The bindings of a list of pairs; later pairs win. -/
def ofList (pairs : List (Text × α)) : Bindings α :=
  pairs.foldl (fun b pair => b.insert pair.1 pair.2) empty

/-- The names in order. -/
def names (b : Bindings α) : List Text :=
  b.entries.map Prod.fst

/-- The number of names. -/
def size (b : Bindings α) : Nat :=
  b.entries.length

/-! ## The view -/

theorem find_place (name other : Text) (value : α) (entries : List (Text × α)) :
    find other (place name value entries) =
      if name = other then some value else find other entries := by
  fun_induction place name value entries <;> grind [find]

@[simp] theorem get?_insert (b : Bindings α) (name other : Text) (value : α) :
    (b.insert name value).get? other = if name = other then some value else b.get? other :=
  find_place name other value b.entries

theorem find_filter (name other : Text) (entries : List (Text × α)) :
    find other (entries.filter fun entry => entry.1 != name) =
      if name = other then none else find other entries := by
  induction entries with
  | nil => simp [find]
  | cons e rest ih =>
    rw [List.filter_cons]
    split <;> grind [find]

@[simp] theorem get?_erase (b : Bindings α) (name other : Text) :
    (b.erase name).get? other = if name = other then none else b.get? other :=
  find_filter name other b.entries

@[simp] theorem get?_empty (name : Text) : (empty : Bindings α).get? name = none := rfl

end Bindings

end ExprTyping
