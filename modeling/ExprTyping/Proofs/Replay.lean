import ExprTyping.Proofs.Annotations
import ExprTyping.Proofs.SessionRecord

/-!
# Replaying a session

What a session shows of its declared symbols is enough to declare them again. A declaration stores
only names that its own text can carry: the name ends at the first space and has no blank in front.
The types it stores are those of annotations, which their own texts denote. So a declaration can be
written for every stored symbol, and as each name is stored once, the order does not matter.

- `IsDeclarable`: the names that a declaration can store;
- `Env.IsReplayable`: the environments that declarations lead to, and `isReplayable_evalAll`: a
  session that starts without symbols only reaches these;
- `asks_declarationLine`: the input written for a symbol asks for this symbol with its type;
- `Bindings.ofList_of_perm`: bindings are made of their entries in any order;
- `Session.replay_declarations`: replaying in any order succeeds and leads to the same environment.
-/

namespace ExprTyping

/-! ## Trimmed text -/

namespace Text

theorem trimStart_eq_self {t : Text} (h : ∀ g ∈ t.head?, isBlank g = false) : trimStart t = t := by
  cases t with
  | nil => rfl
  | cons g t => rw [trimStart, List.dropWhile_cons, h g rfl, if_neg Bool.false_ne_true]

/-- A text that ends in something visible is only trimmed in front. -/
theorem trim_concat (t : Text) {g : Glyph} (hg : isBlank g = false) :
    trim (t ++ [g]) = trimStart t ++ [g] := by
  have hstart : trimStart (t ++ [g]) = trimStart t ++ [g] := by
    induction t with
    | nil => rw [trimStart, List.nil_append, List.dropWhile_cons, hg]; rfl
    | cons first t ih =>
      rw [List.cons_append, trimStart, trimStart, List.dropWhile_cons, List.dropWhile_cons]
      split
      · exact ih
      · rfl
  rw [trim, hstart, trimEnd, List.reverse_append, List.reverse_singleton, List.singleton_append,
    List.dropWhile_cons, hg, if_neg Bool.false_ne_true, List.reverse_cons, List.reverse_reverse]

/-- Trimming leaves no blank in front. -/
theorem isBlank_head_trim (t : Text) : ∀ g ∈ (trim t).head?, isBlank g = false := by
  intro g hg
  -- The end that is dropped does not matter for what stands in front.
  obtain ⟨blanks, hstart⟩ : ∃ blanks, trimStart t = trim t ++ blanks := by
    obtain ⟨blanks, h⟩ := List.dropWhile_suffix isBlank (l := (trimStart t).reverse)
    refine ⟨blanks.reverse, ?_⟩
    rw [trim, trimEnd, ← List.reverse_append, h, List.reverse_reverse]
  have hhead : (trimStart t).head? = some g := by
    rw [hstart, List.head?_append, Option.mem_def.1 hg]
    rfl
  have hvisible := List.head?_dropWhile_not isBlank t
  rw [show (t.dropWhile isBlank).head? = some g from hhead] at hvisible
  exact hvisible

end Text

/-- A type that can be written as an annotation ends in something visible. -/
theorem exists_render_concat {t : Ty Binary64} (h : t.WellFormed) :
    ∃ u g, t.render = u ++ [g] ∧ Text.isBlank g = false := by
  cases t with
  | scalar name =>
    rcases h with rfl | rfl | rfl
    · exact ⟨Text.ofString "in", .char 't', rfl, by decide⟩
    · exact ⟨Text.ofString "rea", .char 'l', rfl, by decide⟩
    · exact ⟨Text.ofString "boo", .char 'l', rfl, by decide⟩
  | matrix shape => exact ⟨_, .char ')', rfl, by decide⟩
  | interval iv =>
    rw [Ty.render, Interval.render]
    by_cases hhigh : iv.includesHigh
    · rw [if_pos hhigh]
      exact ⟨_, .char ']', rfl, by decide⟩
    · rw [if_neg hhigh]
      exact ⟨_, .char ')', rfl, by decide⟩

/-! ## What declarations can store -/

/-- Whether a declaration can introduce a name. -/
structure IsDeclarable (name : Text) : Prop where
  /-- The name is not empty. -/
  ne_nil : name ≠ []
  /-- The name has no space in it, where the annotation would start. -/
  no_space : .char ' ' ∉ name
  /-- No blank stands in front of the name. -/
  head : ∀ g ∈ name.head?, Text.isBlank g = false

/-- Whether declarations can bring about all bindings of an environment. -/
def Env.IsReplayable (env : Env Binary64) : Prop :=
  ∀ e ∈ env.entries, IsDeclarable e.1 ∧ ∃ t, e.2 = some t ∧ t.WellFormed

theorem isDeclarable_of_asks {line name : Text} {t : Ty Binary64}
    (h : Asks line (.declare name t)) : IsDeclarable name ∧ t.WellFormed := by
  cases h with
  | @declare _ source _ hline hname hspace _ hty =>
    refine ⟨⟨hname, hspace, fun g hg => ?_⟩, wellFormed_of_ofText (parseType_eq_ok.1 hty)⟩
    -- The name stands in front of the argument, which has been trimmed.
    obtain ⟨tail, -, -, hargument⟩ := hline
    apply Text.isBlank_head_trim tail g
    rw [hargument, List.head?_append, Option.mem_def.1 hg]
    rfl

/-- A change that an input asks for keeps what declarations can bring about. -/
theorem isReplayable_onEnv {env : Env Binary64} (henv : env.IsReplayable) {line : Text}
    {c : Change} (h : Asks line c) : Env.IsReplayable (c.onEnv env) := by
  rintro ⟨name, ty⟩ he
  rw [← Bindings.get?_eq_some_iff, Change.get?_onEnv] at he
  split_ifs at he with hsubject
  · -- Of the changes of a symbol only a declaration leaves a binding.
    cases c with
    | declare other t =>
      cases he
      cases hsubject
      obtain ⟨hname, ht⟩ := isDeclarable_of_asks h
      exact ⟨hname, t, rfl, ht⟩
    | forget other => cases he
    | switch d => cases he
  · exact henv _ (Bindings.get?_eq_some_iff.1 he)

namespace Session

variable [TreePrinter]

theorem isReplayable_eval {s : Session} (hs : s.env.IsReplayable) (line : Text) :
    (s.eval line).session.env.IsReplayable := by
  by_cases h : ∃ c, Asks line c
  · obtain ⟨c, hc⟩ := h
    rw [eval_of_asks hc]
    exact isReplayable_onEnv hs hc
  · rwa [eval_session_of_not_asks fun c hc => h ⟨c, hc⟩]

/-- A session that starts without symbols only reaches what declarations can bring about. -/
theorem isReplayable_evalAll {s : Session} (hs : s.env = .empty) (lines : List Text) :
    (s.evalAll lines).env.IsReplayable := by
  have hstart : s.env.IsReplayable := by
    rw [hs]
    exact fun _ he => absurd he List.not_mem_nil
  clear hs
  induction lines generalizing s with
  | nil => exact hstart
  | cons line lines ih =>
    rw [evalAll_cons]
    exact ih (isReplayable_eval hstart line)

end Session

/-! ## Declaring what is shown -/

/-- The input that declares a symbol with the type that is shown for it. -/
def declarationLine (e : Text × Option (Ty Binary64)) : Text :=
  Text.ofString ":let " ++ e.1 ++ Text.ofString " " ++ Ty.renderOption e.2

/-- The input that is written for a symbol asks for this symbol with its type. -/
theorem asks_declarationLine {name : Text} {t : Ty Binary64} (hname : IsDeclarable name)
    (ht : t.WellFormed) : Asks (declarationLine (name, some t)) (.declare name t) := by
  obtain ⟨u, g, hrender, hg⟩ := exists_render_concat ht
  -- No end of the argument is blank: the name is in front, the text of the type behind.
  have hargument : Text.trim (name ++ .char ' ' :: t.render) = name ++ .char ' ' :: t.render := by
    rw [hrender, ← List.cons_append, ← List.append_assoc, Text.trim_concat _ hg,
      Text.trimStart_eq_self]
    intro g hg
    -- What is in front of the argument is in front of the name.
    obtain ⟨first, name, rfl⟩ := List.exists_cons_of_ne_nil hname.ne_nil
    exact hname.head g hg
  have hline : Invokes (declarationLine (name, some t)) "let" (name ++ .char ' ' :: t.render) := by
    refine ⟨.char ' ' :: (name ++ .char ' ' :: t.render), ?_, ?_, ?_⟩
    · have hsplit : declarationLine (name, some t) =
          (.char ':' :: (Text.ofString "let " ++ name ++ .char ' ' :: u)) ++ [g] := by
        show Text.ofString ":let " ++ name ++ Text.ofString " " ++ t.render = _
        rw [hrender]
        simp [Text.ofString, Text.ofChars]
      rw [hsplit, Text.trim_concat _ hg, Text.trimStart_eq_self, hrender]
      · simp [Text.ofString, Text.ofChars]
      · rintro g ⟨⟩
        decide
    · rintro g ⟨⟩
      rfl
    · rw [Text.trim_blank, hargument]
  refine .declare hline hname.ne_nil hname.no_space ?_ (parseType_eq_ok.2 (ofText_render ht))
  rw [hrender, Text.trim_concat _ hg]
  exact List.append_ne_nil_of_right_ne_nil _ (List.cons_ne_nil g [])

/-! ## Any order -/

namespace Bindings

variable {α : Type}

/-- Pairs with different names all end up in the bindings, next to what these held before. -/
theorem get?_foldl_insert {pairs : List (Text × α)} (h : (pairs.map Prod.fst).Nodup)
    (b : Bindings α) {name : Text} {a : α} :
    (pairs.foldl (fun b pair => b.insert pair.1 pair.2) b).get? name = some a ↔
      (name, a) ∈ pairs ∨ name ∉ pairs.map Prod.fst ∧ b.get? name = some a := by
  -- The bindings grow from pair to pair, so they vary in the induction.
  induction pairs generalizing b with
  | nil => simp
  | cons pair pairs ih =>
    obtain ⟨first, c⟩ := pair
    rw [List.map_cons, List.nodup_cons] at h
    rw [List.foldl_cons, ih h.2, get?_insert, List.map_cons, List.mem_cons, List.mem_cons]
    by_cases hname : first = name
    · subst hname
      have hlater : (first, a) ∉ pairs := fun hmem => h.1 (List.mem_map.2 ⟨_, hmem, rfl⟩)
      simp [hlater, h.1, eq_comm]
    · simp [hname, Ne.symm hname]

theorem nodup_names (b : Bindings α) : b.names.Nodup := by
  refine List.Pairwise.map Prod.fst ?_ b.ordered
  rintro d e hbefore heq
  rw [heq] at hbefore
  exact Text.Before.irrefl _ hbefore

/-- Bindings are made of their entries, in any order. -/
theorem ofList_of_perm {b : Bindings α} {pairs : List (Text × α)} (h : pairs.Perm b.entries) :
    ofList pairs = b := by
  have hnodup : (pairs.map Prod.fst).Nodup := (h.map Prod.fst).nodup_iff.2 b.nodup_names
  apply ext_get?
  intro name
  apply Option.ext
  intro a
  have hempty : (empty : Bindings α).get? name ≠ some a := nofun
  rw [ofList, get?_foldl_insert hnodup, h.mem_iff, ← get?_eq_some_iff]
  simp only [hempty, and_false, or_false]

end Bindings

namespace Session

section Replay

variable [TreePrinter]

/-- Declarations insert their symbols one after the other. -/
theorem evalAll_declarationLine {order : List (Text × Option (Ty Binary64))}
    (h : ∀ e ∈ order, IsDeclarable e.1 ∧ ∃ t, e.2 = some t ∧ t.WellFormed) (s : Session) :
    (s.evalAll (order.map declarationLine)).env =
      order.foldl (fun env e => env.insert e.1 e.2) s.env := by
  induction order generalizing s with
  | nil => rfl
  | cons e order ih =>
    obtain ⟨⟨hname, t, ht, hwell⟩, horder⟩ := List.forall_mem_cons.1 h
    obtain ⟨name, _⟩ := e
    cases ht
    rw [List.map_cons, evalAll_cons, eval_of_asks (asks_declarationLine hname hwell), ih horder]
    rfl

/-- A session can be replayed from what it shows of its symbols. Take the symbols that a session has
after any inputs, if it had none before, and declare each one with the type that is shown for it, in
any order, in a session without symbols. All these inputs succeed without a word, and the two
sessions end with the same symbols, each with the same type. -/
theorem replay_declarations {s fresh : Session} (hs : s.env = .empty) (hfresh : fresh.env = .empty)
    (lines : List Text) {order : List (Text × Option (Ty Binary64))}
    (horder : order.Perm (s.evalAll lines).env.entries) :
    (∀ before line after, order.map declarationLine = before ++ line :: after →
        ((fresh.evalAll before).eval line).failure = none ∧
          ((fresh.evalAll before).eval line).out = []) ∧
      (fresh.evalAll (order.map declarationLine)).env = (s.evalAll lines).env := by
  have hstored : ∀ e ∈ order, IsDeclarable e.1 ∧ ∃ t, e.2 = some t ∧ t.WellFormed :=
    fun e he => isReplayable_evalAll hs lines e (horder.mem_iff.1 he)
  constructor
  · intro before line after hsplit
    have hline : line ∈ order.map declarationLine := by
      rw [hsplit]
      exact List.mem_append_right _ List.mem_cons_self
    obtain ⟨⟨name, _⟩, he, rfl⟩ := List.mem_map.1 hline
    obtain ⟨hname, t, ht, hwell⟩ := hstored _ he
    cases ht
    rw [eval_of_asks (asks_declarationLine hname hwell)]
    exact ⟨rfl, rfl⟩
  · rw [evalAll_declarationLine hstored, hfresh]
    exact Bindings.ofList_of_perm horder

end Replay

/-- A name with a tab, another that is a stray byte, a third one that is forgotten again, and a
declaration that fails. -/
theorem replay_declarations_oddNames :
    let _ : TreePrinter := ⟨Typed.render⟩
    let s : Session := ⟨.empty, .interval, "<repl>", none⟩
    let fresh : Session := ⟨.empty, .scalar, "<stdin>", none⟩
    let stray : Text := [.stray 0xFF]
    let lines : List Text := [Text.ofString "  :let \t+\t  ( 0,1E21 ]  ",
      Text.ofString ":let x\ny matrix(02, 3)",
      Text.ofString ":let " ++ stray ++ Text.ofString " int",
      Text.ofString ":let x bogus", Text.ofString ":unset x\ny"]
    let order : List (Text × Option (Ty Binary64)) := [(stray, some (.scalar "int")),
      (Text.ofString "+\t", some (.interval ⟨.ofOrd false 0, .ofDecimal false 1 21, false, true⟩))]
    let integer := Text.ofString ":let " ++ stray ++ Text.ofString " int"
    let interval := Text.ofString ":let +\t (0, 1e+21]"
    order.Perm (s.evalAll lines).env.entries ∧ order.map declarationLine = [integer, interval] ∧
      ((fresh.evalAll [integer]).eval interval).failure = none ∧
      (fresh.evalAll [integer, interval]).env = (s.evalAll lines).env := by
  intro printer s fresh stray lines order integer interval
  have horder : order.Perm (s.evalAll lines).env.entries := by
    have hentries : (s.evalAll lines).env.entries = order.reverse := by decide +kernel
    rw [hentries]
    exact order.reverse_perm.symm
  have hlines : order.map declarationLine = [integer, interval] := by decide +kernel
  obtain ⟨hsucceeds, hsame⟩ := @replay_declarations printer s fresh rfl rfl lines order horder
  rw [hlines] at hsucceeds hsame
  exact ⟨horder, hlines, (hsucceeds [integer] interval [] rfl).1, hsame⟩

end Session

end ExprTyping
