import ExprTyping.Proofs.Phrases

/-!
# The trees that sources hold

A tree that is read from a source is printable: its names are read as themselves, its numbers have
numerals, its calls have as many arguments as their operators take, and no minus sign stands in front
of a literal. This is so for every source, also where stray bytes stand in it.

- `Cursor.exists_scanWord_of_mem`: where the items of a source come from;
- `Token.printable_atom`: the leaves that tokens become;
- `Phrase.printable`: the tree of a phrase, from those of its tokens;
- `printable_of_parseExpr`: the tree of a source.
-/

namespace ExprTyping

open Cursor

/-! ## Numbers -/

namespace Literal

/-- Negation is exact, except on the smallest integer. -/
theorem toInt_neg {n : Int64} (h : -(2 ^ 63 - 1) ≤ n.toInt) : (-n).toInt = -n.toInt := by
  have hlt := n.toInt_lt
  rw [Int64.toInt_neg]
  exact Int.bmod_eq_of_le (by omega) (by omega)

theorem Printable.negate {l : Literal} (h : l.Printable) : l.negate.Printable := by
  obtain ⟨kind, n, x⟩ := l
  cases kind with
  | int =>
    have hlt := n.toInt_lt
    change -(2 ^ 63 - 1) ≤ n.toInt at h
    show -(2 ^ 63 - 1) ≤ (-n).toInt
    rw [toInt_neg h]
    omega
  | real =>
    cases x with
    | nan => exact h
    | num s k => exact h
  | other code outside => exact h

theorem isNaN_ofDecimal (neg : Bool) (digits : Nat) (exponent : Int) :
    (Binary64.ofDecimal neg digits exponent).isNaN = false := by
  cases exponent <;> rfl

theorem printable_of_realTok {n : Numeral} {l : Literal} (hl : l.IsPlain)
    (h : realTok n = .ok l.tok) : l.Printable := by
  obtain ⟨kind, m, x⟩ := l
  unfold realTok at h
  split at h
  · cases h
  · next hfinite =>
    rcases hl with rfl | rfl
    · cases h
    · cases h
      exact ⟨isNaN_ofDecimal _ _ _, Bool.eq_false_iff.2 hfinite⟩

/-- A numeral has no sign, so it is far from the smallest integer. -/
theorem printable_of_integerTok {digits : List Char} {l : Literal}
    (hl : l.IsPlain) (h : integerTok digits = .ok l.tok) : l.Printable := by
  obtain ⟨kind, m, x⟩ := l
  unfold integerTok at h
  dsimp only at h
  split at h
  · next hrange =>
    rcases hl with rfl | rfl
    · cases h
      show -(2 ^ 63 - 1) ≤ (Int64.ofNat (Numeral.natOfDigits digits)).toInt
      rw [Int64.toInt_ofNat_of_lt hrange]
      omega
    · cases h
  · cases h

theorem printable_of_numberTok {plain : Bool} {m : Mantissa} {e : Exponent} {l : Literal}
    (hl : l.IsPlain) (h : numberTok plain m e = .ok l.tok) :
    l.Printable := by
  obtain ⟨n, hreal⟩ | ⟨digits, hinteger⟩ := numberTok_cases h
  · exact printable_of_realTok hl hreal
  · exact printable_of_integerTok hl hinteger

/-- The word of a literal is a numeral. -/
theorem tok_cases (l : Literal) : (∃ n, l.tok = .integer n) ∨ ∃ x, l.tok = .real x := by
  obtain ⟨kind, n, x⟩ := l
  cases kind with
  | int => exact .inl ⟨n, rfl⟩
  | real => exact .inr ⟨x, rfl⟩
  | other code outside => exact .inr ⟨x, rfl⟩

/-- Only numerals give literals, and only printable ones. -/
theorem printable_of_scanWord {first : Char} {c behind : Cursor} {l : Literal} {q : Pos}
    (hl : l.IsPlain)
    (h : scanWord first c = (.token ⟨l.tok, q⟩, behind)) : l.Printable := by
  unfold scanWord at h
  split at h
  · next hsign _ =>
    cases h
    unfold withEquals? at hsign
    rcases l.tok_cases with ⟨n, htok⟩ | ⟨x, htok⟩ <;> rw [htok] at hsign <;>
      split at hsign <;> cases hsign
  · split at h
    · next hsign =>
      cases h
      unfold alone? at hsign
      rcases l.tok_cases with ⟨n, htok⟩ | ⟨x, htok⟩ <;> rw [htok] at hsign <;>
        split at hsign <;> cases hsign
    · split at h
      · unfold scanNumber at h
        dsimp only at h
        split at h
        · next htok =>
          cases h
          exact printable_of_numberTok hl htok
        · cases h
      · split at h
        · have htok : nameTok _ = l.tok := (Token.mk.inj (Item.token.inj (Prod.mk.inj h).1)).1
          unfold nameTok at htok
          rcases l.tok_cases with ⟨n, hnum⟩ | ⟨x, hnum⟩ <;> rw [hnum] at htok <;>
            split_ifs at htok
        · cases h

end Literal

/-! ## Names -/

/-- A name that goes on over a stray byte goes on over what the byte is read as. -/
theorem Cursor.continuesName_toChar {g : Glyph} (h : continuesName g) :
    continuesName (.char g.toChar) := by
  cases g with
  | char c => exact h
  | stray b =>
    show continuesName (.char '�')
    decide

/-- A name that is read from a source is read as itself. -/
theorem exists_items_of_scanWord {first : Char} {c behind : Cursor} {name : Text} {q : Pos}
    (h : scanWord first c = (.token ⟨.ident name, q⟩, behind)) :
    ∃ start, name.items = [.token ⟨.ident name, start⟩] := by
  obtain ⟨hstart, hdigit, hname, htok⟩ := scanWord_ident h
  have hmore : ∀ d ∈ Text.toChars (c.rest.takeWhile continuesName), continuesName (.char d) := by
    intro d hd
    obtain ⟨g, hg, rfl⟩ := List.mem_map.1 hd
    exact continuesName_toChar (List.all_eq_true.1 List.all_takeWhile g hg)
  have hreads := reads_name hstart hdigit hmore
  rw [← hname, htok] at hreads
  obtain ⟨ts, hts, hitems⟩ := hreads.items
  obtain ⟨⟨tok, start⟩, rfl, rfl⟩ := List.map_eq_singleton_iff.1 hts
  exact ⟨start, hitems⟩

/-! ## Trees -/

namespace Cursor

/-- Every item is a word that is read somewhere. -/
theorem exists_scanWord_of_mem {c : Cursor} {item : Item} (h : item ∈ c.scanAll.1) :
    ∃ first d behind, scanWord first d = (item, behind) := by
  fun_induction scanAll c with
  | case1 c behind hscan => cases h
  | case2 c found behind hscan items final hfinal ih =>
    rcases List.mem_cons.1 h with rfl | hmem
    · obtain ⟨g, t, p, d, -, hword⟩ := exists_scanWord_of_scanAll (scanAll_of_scan hscan)
      exact ⟨_, _, _, hword⟩
    · exact ih (by rwa [hfinal])

end Cursor

/-- The leaf that a token of a source becomes. -/
theorem Token.printable_atom {source : Text} {t : Token} {e : Expr} (ht : .token t ∈ source.items)
    (he : t.atom? = some e) : e.Printable := by
  obtain ⟨first, c, behind, hword⟩ := exists_scanWord_of_mem ht
  obtain ⟨tok, q⟩ := t
  cases tok with
  | integer n =>
    cases he
    exact .lit q (Literal.printable_of_scanWord (l := .ofInt n) (.inl rfl) hword)
  | real x =>
    cases he
    exact .lit q (Literal.printable_of_scanWord (l := .ofReal x) (.inr rfl) hword)
  | ident name =>
    cases he
    obtain ⟨start, hitems⟩ := exists_items_of_scanWord hword
    exact .sym q hitems
  | _ => cases he

/-- A literal takes a minus sign in, and anything else is called with it. -/
theorem Expr.Printable.negated {e : Expr} (h : e.Printable) (pos : Pos) :
    (e.negated pos).Printable := by
  cases h with
  | lit p hl => exact .lit pos hl.negate
  | sym p hname => exact .unary pos rfl rfl nofun (.sym p hname)
  | unary p hknown harity hlit he => exact .unary pos rfl rfl nofun (.unary p hknown harity hlit he)
  | binary p hknown harity hl hr => exact .unary pos rfl rfl nofun (.binary p hknown harity hl hr)

theorem Tok.arity_of_binary {t : Tok} {op : Op} {priority : Nat}
    (h : t.binary? = some (op, priority)) : op.isKnown ∧ op.arity = 2 := by
  cases t <;> cases h <;> exact ⟨rfl, rfl⟩

/-- The tree of a phrase is printable if its leaves are. -/
theorem Phrase.printable {loose : Bool} {ts : List Token} {e : Expr} (h : Phrase loose ts e)
    (hatoms : ∀ t ∈ ts, ∀ a, t.atom? = some a → a.Printable) : e.Printable := by
  induction h with
  | @atom t e ht => exact hatoms t (List.mem_singleton_self t) e ht
  | parens _ _ _ ih => exact ih fun t ht => hatoms t (by simp [ht])
  | @negation t _ _ _ _ ih => exact (ih fun t ht => hatoms t (by simp [ht])).negated t.pos
  | complement _ _ ih => exact .unary _ rfl rfl nofun (ih fun t ht => hatoms t (by simp [ht]))
  | binary ht _ _ ihl ihr =>
    obtain ⟨hknown, harity⟩ := Tok.arity_of_binary ht
    exact .binary _ hknown harity (ihl fun t ht => hatoms t (by simp [ht]))
      (ihr fun t ht => hatoms t (by simp [ht]))
  | adjacent _ _ _ ihl ihr =>
    refine .binary _ rfl rfl (ihl fun t ht => hatoms t (by simp [ht])) (ihr fun t ht => hatoms t ?_)
    exact List.mem_append_right _ ht

/-- A tree that is read from a source is printable. -/
theorem printable_of_parseExpr {filename source : Text} {e : Expr}
    (h : parseExpr filename source = .ok e) : e.Printable := by
  obtain ⟨ts, loose, hitems, hphrase⟩ := exists_phrase_of_parseExpr h
  refine hphrase.printable fun t ht a ha => ?_
  have hmem : .token t ∈ source.items := hitems ▸ List.mem_map_of_mem ht
  exact Token.printable_atom hmem ha

end ExprTyping
