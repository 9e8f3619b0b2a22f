import ExprTyping.Proofs.Decoding
import ExprTyping.Proofs.Lexing
import ExprTyping.Proofs.SourceTrees

/-!
# What is written out can be read in one way only

The text of an expression with every call written out tells the expression apart from all others
that a source can hold. The scanner reads this text word by word, so it is enough to look at the
words: an operator may be spelled like a symbol, but a parenthesis opens behind it and never behind
a symbol; the arguments of a call end at a comma or at the closing parenthesis; and integers and
reals are different words, each with its sign in front.

- `Expr.WrittenOut` are the words of an expression;
- `Expr.Printable.exists_reads`: the text is read as these words;
- `Expr.WrittenOut.unique`: the words come from one expression only, wherever they end;
- `Expr.Printable.exists_chars`: the text is all characters, so its bytes determine it.
-/

namespace ExprTyping

open Cursor

/-! ## Words -/

theorem nameTok_injective : Function.Injective nameTok := by
  intro t u h
  unfold nameTok at h
  split_ifs at h <;> simp_all

namespace Op

/-- The word of the name of an operator. -/
def word (op : Op) : Tok :=
  nameTok op.name

theorem ofName?_name {op : Op} (h : op.isKnown) : ofName? op.name = some op := by
  cases op with
  | unknown code => cases h
  | _ => decide

theorem name_injective {op op' : Op} (h : op.isKnown) (h' : op'.isKnown)
    (heq : op.name = op'.name) : op = op' := by
  have hname := ofName?_name h
  rw [heq, ofName?_name h'] at hname
  exact (Option.some.inj hname).symm

theorem word_injective {op op' : Op} (h : op.isKnown) (h' : op'.isKnown)
    (heq : op.word = op'.word) : op = op' := by
  have htext : Text.ofString op.name = Text.ofString op'.name := nameTok_injective heq
  exact name_injective h h' (String.toList_inj.1 (ofChars_injective htext))

theorem reads_name {op : Op} (h : op.isKnown) : Reads op.name [op.word] := by
  cases op with
  | unknown code outside => cases h
  | _ => exact ExprTyping.reads_name (by decide) (by decide) (List.all_eq_true.1 rfl)

end Op

/-- The words of a literal: its numeral, or a minus sign and the numeral of its opposite. -/
inductive Literal.WrittenOut (l : Literal) : List Tok → Prop
  | numeral : l.IsPlain → l.WrittenOut [l.tok]
  | opposite : l.IsPlain → l.WrittenOut [.minus, l.negate.tok]

namespace Expr

/-- The words of an expression with every call written out. -/
inductive WrittenOut : Expr → List Tok → Prop
  | lit (pos : Pos) {l : Literal} {toks : List Tok} : l.WrittenOut toks → WrittenOut (.lit pos l) toks
  | sym (pos : Pos) (name : Text) : WrittenOut (.sym pos name) [.ident name]
  | unary (pos : Pos) {op : Op} {e : Expr} {toks : List Tok} : op.isKnown → WrittenOut e toks →
      WrittenOut (.call pos op [e]) (op.word :: .openParen :: (toks ++ [.closeParen]))
  | binary (pos : Pos) {op : Op} {l r : Expr} {ls rs : List Tok} : op.isKnown → WrittenOut l ls →
      WrittenOut r rs → WrittenOut (.call pos op [l, r])
        (op.word :: .openParen :: (ls ++ .comma :: (rs ++ [.closeParen])))

end Expr

/-! ## Reading the words -/

/-- The name of an operator and its arguments in parentheses. -/
theorem Reads.call {op : Op} {w : Text} {toks : List Tok} (hop : op.isKnown) (h : Reads w toks) :
    Reads (op.name ++ "(" ++ w ++ ")") (op.word :: .openParen :: (toks ++ [.closeParen])) := by
  have hclose : Reads [.char ')'] [.closeParen] := reads_alone rfl (by decide) (by decide)
  have hopen : Reads (.char '(' :: (w ++ [.char ')'])) (.openParen :: (toks ++ [.closeParen])) :=
    (h.append (by decide) hclose).sign rfl rfl (by decide) (by decide)
  have htext : (op.name ++ "(" ++ w ++ ")" : Text) =
      Text.ofString op.name ++ .char '(' :: (w ++ [.char ')']) := by
    simp [Text.ofString, Text.ofChars]
  rw [htext]
  exact (Op.reads_name hop).append (by decide) hopen

/-- Two arguments with a comma between them. -/
theorem Reads.comma {u v : Text} {us vs : List Tok} (hu : Reads u us) (hv : Reads v vs) :
    Reads (u ++ .char ',' :: .char ' ' :: v) (us ++ .comma :: vs) :=
  hu.append (by decide) (hv.blank.sign rfl rfl (by decide) (by decide))

namespace Expr

/-- An expression that a source can hold is written out in words. -/
theorem Printable.exists_reads {e : Expr} (h : e.Printable) :
    ∃ toks, e.WrittenOut toks ∧ Reads e.render toks := by
  induction h with
  | @lit pos l hl =>
    obtain hreads | hreads := Literal.reads_render hl
    · exact ⟨_, .lit pos (.numeral hl.isPlain), hreads⟩
    · exact ⟨_, .lit pos (.opposite hl.isPlain), hreads⟩
  | @sym pos name start hname => exact ⟨_, .sym pos name, reads_of_items hname⟩
  | @unary pos op e hknown harity hlit he ih =>
    obtain ⟨toks, hwritten, hreads⟩ := ih
    exact ⟨_, .unary pos hknown hwritten, hreads.call hknown⟩
  | @binary pos op l r hknown harity hl hr ihl ihr =>
    obtain ⟨ls, hls, hlreads⟩ := ihl
    obtain ⟨rs, hrs, hrreads⟩ := ihr
    have htext : (call pos op [l, r]).render =
        op.name ++ "(" ++ (l.render ++ .char ',' :: .char ' ' :: r.render) ++ ")" := by
      simp [render, renderAll, Text.join, Text.ofString, Text.ofChars]
    have hwords : ls ++ Tok.comma :: (rs ++ [.closeParen]) = ls ++ .comma :: rs ++ [.closeParen] :=
      (List.append_assoc ls (.comma :: rs) [.closeParen]).symm
    refine ⟨_, .binary pos hknown hls hrs, ?_⟩
    rw [htext, hwords]
    exact (hlreads.comma hrreads).call hknown

end Expr

/-- A text is read in one way only. -/
theorem Reads.unique {w : Text} {toks toks' : List Tok} (h : Reads w toks) (h' : Reads w toks') :
    toks = toks' := by
  obtain ⟨ts, rfl, hitems⟩ := h.items
  obtain ⟨ts', rfl, hitems'⟩ := h'.items
  rw [hitems] at hitems'
  rw [List.map_injective_iff.2 (fun _ _ => Item.token.inj) hitems']

/-! ## One expression only -/

namespace Literal

theorem bare_of_tok {l m : Literal} (hl : l.IsPlain) (hm : m.IsPlain) (h : l.tok = m.tok) :
    l.bare = m.bare := by
  obtain ⟨k, n, x⟩ := l
  obtain ⟨k', n', x'⟩ := m
  rcases hl with rfl | rfl <;> rcases hm with rfl | rfl <;> cases h <;> rfl

theorem tok_ne_minus (l : Literal) : l.tok ≠ .minus := by
  rcases l.tok_cases with ⟨n, htok⟩ | ⟨x, htok⟩ <;> rw [htok] <;> exact nofun

/-- No name starts the words of a literal. -/
theorem WrittenOut.head_ne {l : Literal} {tok : Tok} {toks rest rest' : List Tok}
    (h : l.WrittenOut toks) (hname : tok.isName) : toks ++ rest ≠ tok :: rest' := by
  intro heq
  cases h with
  | numeral =>
    obtain ⟨rfl, -⟩ := List.cons.inj heq
    rcases l.tok_cases with ⟨n, htok⟩ | ⟨x, htok⟩ <;> rw [htok] at hname <;> cases hname
  | opposite =>
    obtain ⟨rfl, -⟩ := List.cons.inj heq
    cases hname

theorem WrittenOut.unique {l m : Literal} {toks toks' rest rest' : List Tok}
    (h : l.WrittenOut toks) (h' : m.WrittenOut toks') (heq : toks ++ rest = toks' ++ rest') :
    l.bare = m.bare ∧ rest = rest' := by
  cases h with
  | numeral hl =>
    cases h' with
    | numeral hm =>
      obtain ⟨htok, hrest⟩ := List.cons.inj heq
      exact ⟨bare_of_tok hl hm htok, hrest⟩
    | opposite => exact absurd (List.cons.inj heq).1 l.tok_ne_minus
  | opposite hl =>
    cases h' with
    | numeral => exact absurd (List.cons.inj heq).1.symm m.tok_ne_minus
    | opposite hm =>
      obtain ⟨htok, hrest⟩ := List.cons.inj (List.cons.inj heq).2
      have hnegated : l.negate.bare = m.negate.bare := bare_of_tok hl hm htok
      have hbare := bare_negate hnegated
      rw [negate_negate, negate_negate] at hbare
      exact ⟨hbare, hrest⟩

end Literal

namespace Op

theorem isName_word (op : Op) : op.word.isName := by
  unfold word nameTok
  split_ifs <;> rfl

/-- Calls that are written in the same words apply the same operator. -/
theorem call_injective {op op' : Op} {us vs rest rest' : List Tok} (h : op.isKnown)
    (h' : op'.isKnown)
    (heq : op.word :: .openParen :: us ++ rest = op'.word :: .openParen :: vs ++ rest') :
    op = op' ∧ us ++ rest = vs ++ rest' := by
  obtain ⟨hword, hmore⟩ := List.cons.inj heq
  exact ⟨word_injective h h' hword, (List.cons.inj hmore).2⟩

end Op

namespace Expr

/-- The words of an expression are those of no other one, and nothing of what follows them belongs to
them. Only an opening parenthesis must not follow: it would make a call of a symbol. -/
theorem WrittenOut.unique {e e' : Expr} {toks toks' rest rest' : List Tok} (h : e.WrittenOut toks)
    (h' : e'.WrittenOut toks') (heq : toks ++ rest = toks' ++ rest')
    (hrest : rest.head? ≠ some .openParen) (hrest' : rest'.head? ≠ some .openParen) :
    e.bare = e'.bare ∧ rest = rest' := by
  induction h generalizing e' toks' rest rest' with
  | lit pos hl =>
    cases h' with
    | lit pos' hm => exact (hl.unique hm heq).imp_left (congrArg (Expr.lit .nowhere))
    | sym pos' name => exact absurd heq (hl.head_ne rfl)
    | @unary _ op => exact absurd heq (hl.head_ne op.isName_word)
    | @binary _ op => exact absurd heq (hl.head_ne op.isName_word)
  | sym pos name =>
    cases h' with
    | lit pos' hm => exact absurd heq.symm (hm.head_ne rfl)
    | sym pos' name' =>
      obtain ⟨hname, rfl⟩ := List.cons.inj heq
      exact ⟨congrArg (Expr.sym .nowhere) (Tok.ident.inj hname), rfl⟩
    -- The name may be that of an operator, but no parenthesis follows it.
    | unary | binary => exact absurd (congrArg List.head? (List.cons.inj heq).2) hrest
  | @unary pos op e toks hop he ih =>
    cases h' with
    | lit pos' hm => exact absurd heq.symm (hm.head_ne op.isName_word)
    | sym pos' name => exact absurd (congrArg List.head? (List.cons.inj heq).2.symm) hrest'
    | unary pos' hop' he' =>
      obtain ⟨rfl, hargs⟩ := Op.call_injective hop hop' heq
      rw [List.append_assoc, List.append_assoc] at hargs
      obtain ⟨hbare, hend⟩ := ih he' hargs nofun nofun
      exact ⟨congrArg (Expr.call .nowhere op [·]) hbare, (List.cons.inj hend).2⟩
    | binary pos' hop' hl' hr' =>
      -- Behind the first argument stands a closing parenthesis here and a comma there.
      obtain ⟨-, hargs⟩ := Op.call_injective hop hop' heq
      rw [List.append_assoc, List.append_assoc] at hargs
      obtain ⟨-, hend⟩ := ih hl' hargs nofun nofun
      cases hend
  | @binary pos op l r ls rs hop hl hr ihl ihr =>
    cases h' with
    | lit pos' hm => exact absurd heq.symm (hm.head_ne op.isName_word)
    | sym pos' name => exact absurd (congrArg List.head? (List.cons.inj heq).2.symm) hrest'
    | unary pos' hop' he' =>
      obtain ⟨-, hargs⟩ := Op.call_injective hop hop' heq
      rw [List.append_assoc, List.append_assoc] at hargs
      obtain ⟨-, hend⟩ := ihl he' hargs nofun nofun
      cases hend
    | binary pos' hop' hl' hr' =>
      obtain ⟨rfl, hargs⟩ := Op.call_injective hop hop' heq
      rw [List.append_assoc, List.append_assoc] at hargs
      obtain ⟨hleft, hmore⟩ := ihl hl' hargs nofun nofun
      -- Both have a comma behind the first argument, and the second one goes up to the end.
      simp only [List.cons_append, List.cons.injEq, true_and, List.append_assoc] at hmore
      obtain ⟨hright, hend⟩ := ihr hr' hmore nofun nofun
      exact ⟨by simp only [bare, bareAll, hleft, hright], (List.cons.inj hend).2⟩

end Expr

/-! ## Bytes -/

/-- A name that is read as itself is all characters. -/
theorem Text.exists_chars_of_items {name : Text} {start : Pos}
    (h : name.items = [.token ⟨.ident name, start⟩]) : ∃ cs, name = Text.ofChars cs := by
  have hmem : .token ⟨.ident name, start⟩ ∈ name.items := h ▸ List.mem_singleton_self _
  obtain ⟨first, c, behind, hword⟩ := exists_scanWord_of_mem hmem
  exact ⟨_, (scanWord_ident hword).2.2.1⟩

theorem Literal.exists_chars (l : Literal) : ∃ cs, l.render = Text.ofChars cs := by
  obtain ⟨kind, n, x⟩ := l
  cases kind with
  | int =>
    show ∃ cs, Text.ofInt n.toInt = Text.ofChars cs
    cases n.toInt with
    | ofNat m => exact ⟨_, rfl⟩
    | negSucc m => exact ⟨'-' :: _, rfl⟩
  | real => exact ⟨_, render_real n x⟩
  | other code outside => exact ⟨_, render_real n x⟩

namespace Expr

/-- An expression that a source can hold is written out in characters, even if the source has stray
bytes. -/
theorem Printable.exists_chars {e : Expr} (h : e.Printable) : ∃ cs, e.render = Text.ofChars cs := by
  induction h with
  | @lit pos l hl => exact l.exists_chars
  | sym pos hname => exact Text.exists_chars_of_items hname
  | @unary pos op e hknown harity hlit he ih =>
    obtain ⟨cs, hcs⟩ := ih
    refine ⟨op.name.toList ++ '(' :: (cs ++ [')']), ?_⟩
    simp [render, renderAll, Text.join, hcs, Text.ofString, Text.ofChars]
  | @binary pos op l r hknown harity hl hr ihl ihr =>
    obtain ⟨cs, hcs⟩ := ihl
    obtain ⟨ds, hds⟩ := ihr
    refine ⟨op.name.toList ++ '(' :: (cs ++ ',' :: ' ' :: (ds ++ [')'])), ?_⟩
    simp [render, renderAll, Text.join, hcs, hds, Text.ofString, Text.ofChars]

theorem Printable.ofBytes_toBytes_render {e : Expr} (h : e.Printable) :
    Text.ofBytes e.render.toBytes = e.render := by
  obtain ⟨cs, hcs⟩ := h.exists_chars
  have hbytes : Text.toBytes (Text.ofChars cs) = cs.flatMap String.utf8EncodeChar :=
    List.flatMap_map ..
  rw [hcs, hbytes, Text.ofBytes_encode]

mutual

/-- Positions and the signs in front of integers are not written. -/
theorem render_bare : ∀ e : Expr, e.bare.render = e.render
  | .lit _ ⟨.int, _, _⟩ => rfl
  | .lit _ ⟨.real, _, _⟩ => rfl
  | .lit _ ⟨.other _ _, _, _⟩ => rfl
  | .sym _ _ => rfl
  | .call _ op args => by rw [bare, render, render, renderAll_bareAll args]
  | .missing => rfl

theorem renderAll_bareAll : ∀ es : List Expr, renderAll (bareAll es) = renderAll es
  | [] => rfl
  | e :: es => by rw [bareAll, renderAll, renderAll, render_bare e, renderAll_bareAll es]

end

end Expr

/-- The text of an expression that was read identifies it: two of them are written out in the same
bytes exactly if they agree up to positions and up to the numbers of their literals that do not
count. -/
theorem render_bytes_eq_iff {filename filename' source source' : Text} {e e' : Expr}
    (h : parseExpr filename source = .ok e) (h' : parseExpr filename' source' = .ok e') :
    Text.toBytes e.render = Text.toBytes e'.render ↔ e.bare = e'.bare := by
  have he := printable_of_parseExpr h
  have he' := printable_of_parseExpr h'
  refine ⟨fun hbytes => ?_, fun hbare => ?_⟩
  · have htext : e.render = e'.render := by
      rw [← he.ofBytes_toBytes_render, hbytes, he'.ofBytes_toBytes_render]
    obtain ⟨toks, hwritten, hreads⟩ := he.exists_reads
    obtain ⟨toks', hwritten', hreads'⟩ := he'.exists_reads
    rw [htext] at hreads
    have htoks := hreads.unique hreads'
    exact (hwritten.unique hwritten' (congrArg (· ++ []) htoks) nofun nofun).1
  · rw [← e.render_bare, hbare, e'.render_bare]

/-- A sign in front of an integer zero and a symbol that is called like an operator. -/
theorem render_bytes_eq_iff_zero :
    let e : Expr := .call ⟨1, 4⟩ .add [.lit ⟨1, 1⟩ ⟨.int, 0, .neg .zero⟩, .sym ⟨1, 6⟩ "add"]
    let e' : Expr := .call ⟨1, 4⟩ .add [.lit ⟨1, 2⟩ (.ofInt 0), .sym ⟨1, 5⟩ "add"]
    parseExpr "first" "-0 + add" = .ok e ∧ parseExpr "second" "(0)+add # sum" = .ok e' ∧
      e.render = "add(0, add)" ∧ e.bare = e'.bare := by
  intro e e'
  have hitems : Text.items "-0 + add" = ([⟨.minus, ⟨1, 1⟩⟩, ⟨.integer 0, ⟨1, 2⟩⟩, ⟨.plus, ⟨1, 4⟩⟩,
      ⟨.ident "add", ⟨1, 6⟩⟩] : List Token).map .token := by
    decide +kernel
  have hitems' : Text.items "(0)+add # sum" = ([⟨.openParen, ⟨1, 1⟩⟩, ⟨.integer 0, ⟨1, 2⟩⟩,
      ⟨.closeParen, ⟨1, 3⟩⟩, ⟨.plus, ⟨1, 4⟩⟩, ⟨.ident "add", ⟨1, 5⟩⟩] : List Token).map .token := by
    decide +kernel
  have h : parseExpr "first" "-0 + add" = .ok e := parseExpr_eq_ok.2 (by rw [hitems]; rfl)
  have h' : parseExpr "second" "(0)+add # sum" = .ok e' := parseExpr_eq_ok.2 (by rw [hitems']; rfl)
  exact ⟨h, h', by decide +kernel, (render_bytes_eq_iff h h').1 (by decide +kernel)⟩

end ExprTyping
