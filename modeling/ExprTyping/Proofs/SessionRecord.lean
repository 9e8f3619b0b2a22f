import Mathlib.Tactic.ByContra
import Mathlib.Tactic.SplitIfs
import ExprTyping.Session.Basic

/-!
# What a session remembers

A session changes in three ways: a symbol is declared, a symbol is forgotten, or the domain is
switched. Which of them an input asks for can be told from its text alone, so a session is the
record of such inputs: each name and the domain are as the last input about them has left them.

- `Asks`: the change that an input asks for, by its text;
- `Command.change?_ofText`: reading an input finds this change;
- `Session.run_cases`: running a command makes its change, or prints something, or fails, and leaves
  the session as it is in the last two cases;
- `Session.last_change`: after a run of inputs, what the last one about a name or the domain left;
- `Session.evalAll_record`: the whole record, and inputs about different things commute.
-/

namespace ExprTyping

/-! ## Bindings by their view -/

namespace Bindings

variable {α : Type}

theorem find_eq_none_of_before {name : Text} {entries : List (Text × α)}
    (h : ∀ e ∈ entries, Text.Before name e.1) : find name entries = none := by
  induction entries with
  | nil => rfl
  | cons e rest ih =>
    rw [List.forall_mem_cons] at h
    obtain ⟨n, a⟩ := e
    have hne : n ≠ name := by
      rintro rfl
      exact Text.Before.irrefl n h.1
    rw [find, if_neg hne, ih h.2]

/-- A name that has a value is not before all names. -/
theorem not_before_of_find {n : Text} {e : Text × α} {rest : List (Text × α)}
    (hrest : (e :: rest).Pairwise fun a b => Text.Before a.1 b.1)
    (h : find n (e :: rest) ≠ none) : ¬ Text.Before n e.1 := by
  intro hlt
  apply h
  rw [List.pairwise_cons] at hrest
  apply find_eq_none_of_before
  rw [List.forall_mem_cons]
  exact ⟨hlt, fun f hf => hlt.trans (hrest.1 f hf)⟩

/-- Entries in ascending order are determined by the values of the names. -/
theorem entries_eq_of_find {l r : List (Text × α)}
    (hl : l.Pairwise fun a b => Text.Before a.1 b.1)
    (hr : r.Pairwise fun a b => Text.Before a.1 b.1)
    (h : ∀ name, find name l = find name r) : l = r := by
  have hhead (e : Text × α) (t : List (Text × α)) : find e.1 (e :: t) = some e.2 := by
    rw [find, if_pos rfl]
  induction l generalizing r with
  | nil =>
    cases r with
    | nil => rfl
    | cons e r =>
      have hfind := h e.1
      rw [hhead] at hfind
      cases hfind
  | cons d l ih =>
    cases r with
    | nil =>
      have hfind := h d.1
      rw [hhead] at hfind
      cases hfind
    | cons e r =>
      -- Neither first name comes before the other one, which has a value on both sides.
      have hde : ¬ Text.Before d.1 e.1 :=
        not_before_of_find hr (by rw [← h, hhead]; exact Option.some_ne_none _)
      have hed : ¬ Text.Before e.1 d.1 :=
        not_before_of_find hl (by rw [h, hhead]; exact Option.some_ne_none _)
      have hname : d.1 = e.1 :=
        Decidable.byContradiction fun hne => hed (Text.Before.of_not_before hne hde)
      have hvalue : d.2 = e.2 := by
        have hfind := h d.1
        rw [hhead, hname, hhead] at hfind
        exact Option.some.inj hfind
      obtain rfl : d = e := Prod.ext hname hvalue
      rw [List.pairwise_cons] at hl hr
      rw [ih hl.2 hr.2]
      intro name
      by_cases hd : d.1 = name
      · subst hd
        rw [find_eq_none_of_before hl.1, find_eq_none_of_before hr.1]
      · have hfind := h name
        rwa [find, find, if_neg hd, if_neg hd] at hfind

theorem mem_of_find {name : Text} {a : α} {entries : List (Text × α)}
    (h : find name entries = some a) : (name, a) ∈ entries := by
  induction entries with
  | nil => cases h
  | cons e rest ih =>
    obtain ⟨n, b⟩ := e
    rw [find] at h
    split_ifs at h with hname
    · cases h
      rw [hname]
      exact List.mem_cons_self
    · exact List.mem_cons_of_mem _ (ih h)

/-- A name has the value of its entry. -/
theorem get?_eq_some_iff {b : Bindings α} {name : Text} {a : α} :
    b.get? name = some a ↔ (name, a) ∈ b.entries := by
  refine ⟨mem_of_find, fun h => ?_⟩
  obtain ⟨entries, hordered⟩ := b
  show find name entries = some a
  induction entries with
  | nil => cases h
  | cons e rest ih =>
    rw [List.pairwise_cons] at hordered
    rcases List.mem_cons.1 h with rfl | h
    · rw [find, if_pos rfl]
    · -- The name stands behind the first one, so it is another one.
      have hne : e.1 ≠ name := by
        rintro rfl
        exact Text.Before.irrefl e.1 (hordered.1 (e.1, a) h)
      rw [find, if_neg hne]
      exact ih hordered.2 h

/-- Bindings that agree on every name are equal. -/
theorem ext_get? {b c : Bindings α} (h : ∀ name, b.get? name = c.get? name) : b = c := by
  obtain ⟨l, hl⟩ := b
  obtain ⟨r, hr⟩ := c
  obtain rfl := entries_eq_of_find hl hr h
  rfl

end Bindings

/-! ## Changes -/

/-- What an input changes in a session. -/
inductive Change where
  /-- A symbol is declared with a type. -/
  | declare (name : Text) (ty : Ty Binary64)
  /-- A symbol is declared no longer. -/
  | forget (name : Text)
  /-- Another domain is used. -/
  | switch (d : Domain Binary64)

/-- What a change is about. -/
inductive Subject where
  /-- A symbol. -/
  | symbol (name : Text)
  /-- The domain. -/
  | domain
  deriving DecidableEq

namespace Change

/-- What a change is about. -/
def subject : Change → Subject
  | .declare name _ => .symbol name
  | .forget name => .symbol name
  | .switch _ => .domain

/-- The declared symbols after a change. -/
def onEnv (env : Env Binary64) : Change → Env Binary64
  | .declare name ty => env.insert name (some ty)
  | .forget name => env.erase name
  | .switch _ => env

/-- The domain after a change. -/
def onDomain (d : Domain Binary64) : Change → Domain Binary64
  | .switch d' => d'
  | _ => d

/-- What a change leaves of the symbol that it is about. -/
def declaration : Change → Option (Option (Ty Binary64))
  | .declare _ ty => some (some ty)
  | _ => none

theorem get?_onEnv (env : Env Binary64) (c : Change) (name : Text) :
    (c.onEnv env).get? name =
      if c.subject = .symbol name then c.declaration else env.get? name := by
  cases c with
  | declare other ty => simp [onEnv, subject, declaration]
  | forget other => simp [onEnv, subject, declaration]
  | switch d => rfl

/-- Changes of different symbols, or of a symbol and the domain, do not depend on their order. -/
theorem onEnv_comm {c d : Change} (h : c.subject ≠ d.subject) (env : Env Binary64) :
    d.onEnv (c.onEnv env) = c.onEnv (d.onEnv env) := by
  apply Bindings.ext_get?
  intro name
  simp only [get?_onEnv]
  by_cases hc : c.subject = .symbol name
  · have hd : d.subject ≠ .symbol name := fun hd => h (hc.trans hd.symm)
    rw [if_pos hc, if_pos hc, if_neg hd]
  · rw [if_neg hc, if_neg hc]

theorem onDomain_comm {c d : Change} (h : c.subject ≠ d.subject) (dom : Domain Binary64) :
    d.onDomain (c.onDomain dom) = c.onDomain (d.onDomain dom) := by
  cases c with
  | switch c' =>
    cases d with
    | switch d' => exact absurd rfl h
    | _ => rfl
  | _ => cases d <;> rfl

end Change

/-! ## What an input asks for -/

namespace Text

/-- Cutting a text finds the first place where it can be cut. -/
theorem cut_spec (c : Char) (t : Text) :
    match cut c t with
    | (before, none) => t = before ∧ .char c ∉ before
    | (before, some behind) => t = before ++ .char c :: behind ∧ .char c ∉ before := by
  induction t with
  | nil => exact ⟨rfl, List.not_mem_nil⟩
  | cons g t ih =>
    rw [cut]
    by_cases hg : g = .char c
    · rw [if_pos hg, hg]
      exact ⟨rfl, List.not_mem_nil⟩
    · rw [if_neg hg]
      rcases hcut : cut c t with ⟨before, _ | behind⟩
      all_goals
        rw [hcut] at ih
        refine ⟨congrArg (g :: ·) ih.1, ?_⟩
        rw [List.mem_cons, not_or]
        exact ⟨Ne.symm hg, ih.2⟩

theorem cut_of_notMem {c : Char} {t : Text} (h : .char c ∉ t) : cut c t = (t, none) := by
  induction t with
  | nil => rfl
  | cons g t ih =>
    rw [List.mem_cons, not_or] at h
    rw [cut, if_neg (Ne.symm h.1), ih h.2]

theorem cut_append {c : Char} {before : Text} (h : .char c ∉ before) (behind : Text) :
    cut c (before ++ .char c :: behind) = (before, some behind) := by
  induction before with
  | nil => rw [List.nil_append, cut, if_pos rfl]
  | cons g before ih =>
    rw [List.mem_cons, not_or] at h
    rw [List.cons_append, cut, if_neg (Ne.symm h.1), ih h.2]

/-- A blank in front is trimmed. -/
theorem trim_blank (t : Text) : trim (.char ' ' :: t) = trim t := rfl

end Text

/-- Whether an input is a colon and a word, with an argument behind a blank if it is not empty. -/
def Invokes (line word argument : Text) : Prop :=
  ∃ tail : Text, Text.trim line = .char ':' :: (word ++ tail) ∧
    (∀ g ∈ tail.head?, g = .char ' ') ∧ Text.trim tail = argument

/-- The change that an input asks for. Declarations need a name, which ends at the first blank, and
an annotation that can be read; a domain has to be one of the built-in ones. -/
inductive Asks (line : Text) : Change → Prop
  | declare {name source : Text} {ty : Ty Binary64} :
      Invokes line "let" (name ++ .char ' ' :: source) → name ≠ [] → .char ' ' ∉ name →
      Text.trim source ≠ [] → parseType source = .ok ty → Asks line (.declare name ty)
  | forget {name : Text} : Invokes line "unset" name → name ≠ [] → Asks line (.forget name)
  | switch {name : Text} {d : Domain Binary64} :
      Invokes line "domain" name → name ≠ [] → Domain.ofName? name = some d → Asks line (.switch d)

namespace Command

/-- The change that a command makes. -/
def change? : Command → Option Change
  | .declare name source => (parseType source).toOption.map (.declare name)
  | .forget name => some (.forget name)
  | .switchDomain name => (Domain.ofName? name).map .switch
  | _ => none

theorem ofText_colon {line rest : Text} (h : Text.trim line = .char ':' :: rest) :
    ofText line =
      named (Text.cut ' ' rest).1 (Text.trim ((Text.cut ' ' rest).2.getD [])) := by
  unfold ofText
  rw [h]
  rfl

theorem ofText_expression {line : Text} (h : ∀ rest, Text.trim line ≠ .char ':' :: rest) :
    ofText line = .typeOf (Text.trim line) := by
  unfold ofText
  split
  · next rest hrest => exact absurd hrest (h rest)
  · rfl

theorem ofText_of_invokes {line word argument : Text} (hword : .char ' ' ∉ word)
    (h : Invokes line word argument) : ofText line = named word argument := by
  obtain ⟨tail, htrim, hhead, rfl⟩ := h
  rw [ofText_colon htrim]
  cases tail with
  | nil =>
    rw [List.append_nil, Text.cut_of_notMem hword]
    rfl
  | cons g t =>
    obtain rfl := hhead g rfl
    rw [Text.cut_append hword, Text.trim_blank]
    rfl

/-- An input is an expression or invokes the command it is read as. -/
theorem exists_invokes (line : Text) :
    ofText line = .typeOf (Text.trim line) ∨
      ∃ word argument, .char ' ' ∉ word ∧ Invokes line word argument ∧
        ofText line = named word argument := by
  by_cases h : ∃ rest, Text.trim line = .char ':' :: rest
  · obtain ⟨rest, htrim⟩ := h
    right
    have hspec := Text.cut_spec ' ' rest
    rw [ofText_colon htrim]
    rcases hcut : Text.cut ' ' rest with ⟨word, _ | behind⟩
    · rw [hcut] at hspec
      refine ⟨word, [], hspec.2, ⟨[], ?_, nofun, rfl⟩, rfl⟩
      rw [htrim, hspec.1, List.append_nil]
    · rw [hcut] at hspec
      refine ⟨word, Text.trim behind, hspec.2, ⟨.char ' ' :: behind, ?_, ?_, rfl⟩, rfl⟩
      · rw [htrim, hspec.1]
      · rintro g ⟨⟩
        rfl
  · left
    exact ofText_expression fun rest hrest => h ⟨rest, hrest⟩

theorem named_let (argument : Text) : named "let" argument = declaration argument := rfl

theorem named_unset (argument : Text) :
    named "unset" argument = if argument.isEmpty then .forgetNothing else .forget argument := rfl

theorem named_domain (argument : Text) :
    named "domain" argument =
      if argument.isEmpty then .showDomain else .switchDomain argument := rfl

theorem change?_ite {p : Prop} [Decidable p] {a b : Command} {c : Change}
    (h : (if p then a else b).change? = some c) :
    p ∧ a.change? = some c ∨ b.change? = some c := by
  by_cases hp : p
  · rw [if_pos hp] at h
    exact .inl ⟨hp, h⟩
  · rw [if_neg hp] at h
    exact .inr h

/-- Only three commands change a session. -/
theorem change?_named {word argument : Text} {c : Change}
    (h : (named word argument).change? = some c) :
    word = Text.ofString "let" ∨ word = Text.ofString "unset" ∨ word = Text.ofString "domain" := by
  have hword {name : String} (hany : [name].any fun n => Text.ofString n == word) :
      word = Text.ofString name := by
    simp only [List.any_cons, List.any_nil, Bool.or_false, beq_iff_eq] at hany
    exact hany.symm
  -- The branches in the order of the definition; the other commands change nothing.
  rcases change?_ite h with ⟨-, h⟩ | h
  · cases h
  rcases change?_ite h with ⟨-, h⟩ | h
  · cases h
  rcases change?_ite h with ⟨hdomain, -⟩ | h
  · exact .inr (.inr (hword hdomain))
  rcases change?_ite h with ⟨hlet, -⟩ | h
  · exact .inl (hword hlet)
  rcases change?_ite h with ⟨hunset, -⟩ | h
  · exact .inr (.inl (hword hunset))
  rcases change?_ite h with ⟨-, h⟩ | h
  · cases h
  rcases change?_ite h with ⟨-, h⟩ | h
  · cases h
  rcases change?_ite h with ⟨-, h⟩ | h
  · cases h
  · cases h

theorem toOption_eq_some {α ε : Type} {r : Except ε α} {a : α} :
    r.toOption = some a ↔ r = .ok a := by
  cases r <;> simp [Except.toOption]

/-- What a declaration needs. -/
theorem change?_declaration {argument : Text} {c : Change} :
    (declaration argument).change? = some c ↔
      ∃ name source ty, argument = name ++ .char ' ' :: source ∧ name ≠ [] ∧ .char ' ' ∉ name ∧
        Text.trim source ≠ [] ∧ parseType source = .ok ty ∧ c = .declare name ty := by
  constructor
  · intro h
    have hspec := Text.cut_spec ' ' argument
    unfold declaration at h
    rcases hcut : Text.cut ' ' argument with ⟨name, _ | source⟩
    · rw [hcut] at h
      cases h
    · rw [hcut] at h hspec
      dsimp only at h
      split_ifs at h with hempty
      · cases h
      · simp only [Bool.or_eq_true, List.isEmpty_iff, not_or] at hempty
        simp only [change?, Option.map_eq_some_iff, toOption_eq_some] at h
        obtain ⟨ty, hty, rfl⟩ := h
        exact ⟨name, source, ty, hspec.1, hempty.1, hspec.2, hempty.2, hty, rfl⟩
  · rintro ⟨name, source, ty, rfl, hname, hblank, hsource, hty, rfl⟩
    unfold declaration
    rw [Text.cut_append hblank]
    simp [hname, hsource, change?, hty, Except.toOption]

theorem declaration_cases (argument : Text) : declaration argument = .declareNothing ∨
    ∃ name source, declaration argument = .declare name source := by
  unfold declaration
  rcases Text.cut ' ' argument with ⟨name, _ | source⟩
  · exact .inl rfl
  · dsimp only
    split_ifs
    · exact .inl rfl
    · exact .inr ⟨name, source, rfl⟩

/-- Reading an input finds the change that it asks for. -/
theorem change?_ofText {line : Text} {c : Change} :
    (ofText line).change? = some c ↔ Asks line c := by
  constructor
  · intro h
    rcases exists_invokes line with hexpr | ⟨word, argument, -, hinvokes, hnamed⟩
    · rw [hexpr] at h
      cases h
    · rw [hnamed] at h
      rcases change?_named h with rfl | rfl | rfl
      · rw [named_let] at h
        obtain ⟨name, source, ty, rfl, hname, hblank, hsource, hty, rfl⟩ :=
          change?_declaration.1 h
        exact .declare hinvokes hname hblank hsource hty
      · rw [named_unset] at h
        split_ifs at h with hempty
        · cases h
        · cases h
          exact .forget hinvokes (fun hnil => hempty (by rw [hnil]; rfl))
      · rw [named_domain] at h
        split_ifs at h with hempty
        · cases h
        · obtain ⟨d, hd, rfl⟩ := Option.map_eq_some_iff.1 h
          exact .switch hinvokes (fun hnil => hempty (by rw [hnil]; rfl)) hd
  · intro h
    cases h with
    | declare hinvokes hname hblank hsource hty =>
      rw [ofText_of_invokes (by decide) hinvokes, named_let]
      exact change?_declaration.2 ⟨_, _, _, rfl, hname, hblank, hsource, hty, rfl⟩
    | forget hinvokes hname =>
      rw [ofText_of_invokes (by decide) hinvokes, named_unset, if_neg (by simpa using hname)]
      rfl
    | switch hinvokes hname hd =>
      rw [ofText_of_invokes (by decide) hinvokes, named_domain, if_neg (by simpa using hname)]
      exact Option.map_eq_some_iff.2 ⟨_, hd, rfl⟩

end Command

/-! ## One input -/

namespace Session

/-- The session after a change. -/
def apply (s : Session) (c : Change) : Session :=
  { s with env := c.onEnv s.env, domain := c.onDomain s.domain }

theorem apply_comm {c d : Change} (h : c.subject ≠ d.subject) (s : Session) :
    (s.apply c).apply d = (s.apply d).apply c := by
  unfold apply
  rw [Change.onEnv_comm h, Change.onDomain_comm h]

theorem printsResult_cases {α : Type} (s : Session) (render : α → Text) (r : Except Failure α) :
    (∃ out, s.printsResult render r = s.prints out) ∨ ∃ f, s.printsResult render r = s.fails f := by
  cases r with
  | ok a => exact .inl ⟨_, rfl⟩
  | error f => exact .inr ⟨f, rfl⟩

variable [TreePrinter]

/-- All that running a command can do: make its change, or print something, or fail. -/
theorem run_cases (s : Session) (cmd : Command) :
    (∃ c, cmd.change? = some c ∧ s.run cmd = becomes (s.apply c)) ∨
      cmd.change? = none ∧ ((∃ out, s.run cmd = s.prints out) ∨ ∃ f, s.run cmd = s.fails f) := by
  cases cmd with
  | typeOf source => exact .inr ⟨rfl, printsResult_cases _ _ _⟩
  | help => exact .inr ⟨rfl, .inl ⟨_, rfl⟩⟩
  | quit => exact .inr ⟨rfl, .inr ⟨_, rfl⟩⟩
  | showDomain => exact .inr ⟨rfl, .inl ⟨_, rfl⟩⟩
  | switchDomain name =>
    rw [run, Command.change?]
    cases (Domain.ofName? name : Option (Domain Binary64)) with
    | none => exact .inr ⟨rfl, .inr ⟨_, rfl⟩⟩
    | some d => exact .inl ⟨.switch d, rfl, rfl⟩
  | declare name source =>
    rw [run, Command.change?]
    cases parseType source with
    | error d => exact .inr ⟨rfl, .inr ⟨_, rfl⟩⟩
    | ok ty => exact .inl ⟨.declare name ty, rfl, rfl⟩
  | declareNothing => exact .inr ⟨rfl, .inr ⟨_, rfl⟩⟩
  | forget name => exact .inl ⟨.forget name, rfl, rfl⟩
  | forgetNothing => exact .inr ⟨rfl, .inr ⟨_, rfl⟩⟩
  | listSymbols => exact .inr ⟨rfl, .inl ⟨_, rfl⟩⟩
  | dump source => exact .inr ⟨rfl, printsResult_cases _ _ _⟩
  | free source => exact .inr ⟨rfl, printsResult_cases _ _ _⟩
  | unknown name => exact .inr ⟨rfl, .inr ⟨_, rfl⟩⟩

/-- An input that asks for a change makes it, without a failure and without a word. -/
theorem eval_of_asks {line : Text} {c : Change} (h : Asks line c) (s : Session) :
    s.eval line = becomes (s.apply c) := by
  rw [← Command.change?_ofText] at h
  rcases s.run_cases (Command.ofText line) with ⟨d, hd, hrun⟩ | ⟨hnone, -⟩
  · rw [h] at hd
    cases hd
    exact hrun
  · rw [h] at hnone
    cases hnone

/-- An input that asks for no change leaves the session as it is. -/
theorem eval_session_of_not_asks {line : Text} (h : ∀ c, ¬ Asks line c) (s : Session) :
    (s.eval line).session = s := by
  rcases s.run_cases (Command.ofText line) with ⟨c, hc, -⟩ | ⟨-, ⟨out, hrun⟩ | ⟨f, hrun⟩⟩
  · exact absurd (Command.change?_ofText.1 hc) (h c)
  · rw [eval, hrun]
    rfl
  · rw [eval, hrun]
    rfl

/-- A failure leaves no trace. -/
theorem eval_of_failure {s : Session} {line : Text} (h : (s.eval line).failure ≠ none) :
    (s.eval line).session = s ∧ (s.eval line).out = [] := by
  unfold eval at h ⊢
  rcases s.run_cases (Command.ofText line) with ⟨c, -, hrun⟩ | ⟨-, ⟨out, hrun⟩ | ⟨f, hrun⟩⟩
  · rw [hrun] at h
    exact absurd rfl h
  · rw [hrun] at h
    exact absurd rfl h
  · rw [hrun]
    exact ⟨rfl, rfl⟩

/-! ## Runs of inputs -/

/-- The session after some inputs. -/
def evalAll (s : Session) (lines : List Text) : Session :=
  lines.foldl (fun s line => (s.eval line).session) s

@[simp] theorem evalAll_nil (s : Session) : s.evalAll [] = s := rfl

@[simp] theorem evalAll_cons (s : Session) (line : Text) (lines : List Text) :
    s.evalAll (line :: lines) = (s.eval line).session.evalAll lines := rfl

@[simp] theorem evalAll_append (s : Session) (before after : List Text) :
    s.evalAll (before ++ after) = (s.evalAll before).evalAll after :=
  List.foldl_append

/-- Whether no input asks for a change of a subject. -/
def Untouched (subject : Subject) (lines : List Text) : Prop :=
  ∀ line ∈ lines, ∀ c, Asks line c → c.subject ≠ subject

/-- Take some part of a session that only the changes of one subject affect. After a run of inputs
it is what the last of these changes has left of it, or what it was if there was none. -/
theorem last_change {α : Type} (view : Session → α) {subject : Subject} {left : Change → α}
    (hview : ∀ s c, view (s.apply c) = if c.subject = subject then left c else view s)
    (s : Session) (lines : List Text) :
    (∃ before line after c, lines = before ++ line :: after ∧ Asks line c ∧ c.subject = subject ∧
        Untouched subject after ∧ view (s.evalAll lines) = left c) ∨
      Untouched subject lines ∧ view (s.evalAll lines) = view s := by
  -- The first input matters only if no later one is about the subject, so the session varies.
  induction lines generalizing s with
  | nil => exact .inr ⟨fun _ h => absurd h List.not_mem_nil, rfl⟩
  | cons line lines ih =>
    rw [evalAll_cons]
    rcases ih (s.eval line).session with
      ⟨before, last, after, c, rfl, hasks, hsubject, hafter, hleft⟩ | ⟨hlines, hkept⟩
    · exact .inl ⟨line :: before, last, after, c, rfl, hasks, hsubject, hafter, hleft⟩
    · -- Nothing behind the first input is about the subject: it was the last one, or there is none.
      by_cases hfirst : ∃ c, Asks line c ∧ c.subject = subject
      · obtain ⟨c, hasks, hsubject⟩ := hfirst
        refine .inl ⟨[], line, lines, c, rfl, hasks, hsubject, hlines, ?_⟩
        rw [hkept, eval_of_asks hasks]
        exact (hview s c).trans (if_pos hsubject)
      · have huntouched : ∀ c, Asks line c → c.subject ≠ subject :=
          fun c hasks hsubject => hfirst ⟨c, hasks, hsubject⟩
        refine .inr ⟨List.forall_mem_cons.2 ⟨huntouched, hlines⟩, hkept.trans ?_⟩
        by_cases hasks : ∃ c, Asks line c
        · obtain ⟨c, hasks⟩ := hasks
          rw [eval_of_asks hasks]
          exact (hview s c).trans (if_neg (huntouched c hasks))
        · rw [eval_session_of_not_asks (fun c h => hasks ⟨c, h⟩)]

/-- Neighbouring inputs that ask for changes of different subjects may change places. -/
theorem evalAll_swap {a b : Text} {c d : Change} (ha : Asks a c) (hb : Asks b d)
    (h : c.subject ≠ d.subject) (s : Session) (before after : List Text) :
    s.evalAll (before ++ a :: b :: after) = s.evalAll (before ++ b :: a :: after) := by
  simp only [evalAll_append, evalAll_cons, eval_of_asks ha, eval_of_asks hb, becomes]
  rw [apply_comm h]

theorem run_declare_failure (s : Session) {name source : Text}
    (h : (Command.declare name source).change? = none) :
    (s.run (.declare name source)).failure ≠ none := by
  rw [run]
  cases hty : parseType source with
  | ok ty =>
    rw [Command.change?, hty] at h
    cases h
  | error d => exact Option.some_ne_none _

/-- A declaration, a request to forget or a switch that asks for no change fails. -/
theorem failure_of_not_asks {line argument : Text} (h : ∀ c, ¬ Asks line c)
    (hline : Invokes line "let" argument ∨ Invokes line "unset" argument ∨
      Invokes line "domain" argument ∧ argument ≠ []) (s : Session) :
    (s.eval line).failure ≠ none := by
  have hnone : (Command.ofText line).change? = none :=
    Option.eq_none_iff_forall_ne_some.2 fun c hc => h c (Command.change?_ofText.1 hc)
  unfold eval
  rcases hline with hline | hline | ⟨hline, hargument⟩
  · rw [Command.ofText_of_invokes (by decide) hline, Command.named_let] at hnone ⊢
    -- The argument is no declaration at all, or one whose annotation cannot be read.
    rcases Command.declaration_cases argument with hcmd | ⟨name, source, hcmd⟩
    · rw [hcmd]
      exact Option.some_ne_none _
    · rw [hcmd] at hnone ⊢
      exact s.run_declare_failure hnone
  · rw [Command.ofText_of_invokes (by decide) hline, Command.named_unset] at hnone ⊢
    split_ifs at hnone ⊢
    · exact Option.some_ne_none _
    · cases hnone
  · rw [Command.ofText_of_invokes (by decide) hline, Command.named_domain,
      if_neg (by simpa using hargument)] at hnone ⊢
    rw [run, Option.map_eq_none_iff.1 hnone]
    exact Option.some_ne_none _

/-- The inputs that ask for a change are the declarations, the requests to forget and the switches
that succeed. -/
theorem exists_asks_iff (s : Session) (line : Text) :
    (∃ c, Asks line c) ↔ (s.eval line).failure = none ∧ ∃ argument,
      Invokes line "let" argument ∨ Invokes line "unset" argument ∨
        Invokes line "domain" argument ∧ argument ≠ [] := by
  constructor
  · rintro ⟨c, h⟩
    refine ⟨by rw [eval_of_asks h]; rfl, ?_⟩
    cases h with
    | declare hline _ _ _ _ => exact ⟨_, .inl hline⟩
    | forget hline _ => exact ⟨_, .inr (.inl hline)⟩
    | switch hline hname _ => exact ⟨_, .inr (.inr ⟨hline, hname⟩)⟩
  · rintro ⟨hsuccess, argument, hline⟩
    by_contra h
    exact failure_of_not_asks (fun c hc => h ⟨c, hc⟩) hline s hsuccess

/-- A session is the record of its successful inputs. A failure leaves it as it is and prints
nothing. Only declarations, requests to forget and switches that succeed change it. After any run of
inputs, every name has the type of its last declaration unless it was forgotten since, or is as it
was if no input was about it, and the domain is the one last switched to. Neighbouring inputs about
different names, or about a name and the domain, may change places. -/
theorem evalAll_record :
    (∀ (s : Session) (line : Text), (s.eval line).failure ≠ none →
      (s.eval line).session = s ∧ (s.eval line).out = []) ∧
    (∀ (s : Session) (line : Text), (∃ c, Asks line c) ↔
      (s.eval line).failure = none ∧ ∃ argument, Invokes line "let" argument ∨
        Invokes line "unset" argument ∨ Invokes line "domain" argument ∧ argument ≠ []) ∧
    (∀ (s : Session) (line : Text), (∀ c, ¬ Asks line c) → (s.eval line).session = s) ∧
    (∀ (s : Session) (lines : List Text) (name : Text),
      (∃ before line after ty, lines = before ++ line :: after ∧ Asks line (.declare name ty) ∧
        Untouched (.symbol name) after ∧ (s.evalAll lines).env.get? name = some (some ty)) ∨
      (∃ before line after, lines = before ++ line :: after ∧ Asks line (.forget name) ∧
        Untouched (.symbol name) after ∧ (s.evalAll lines).env.get? name = none) ∨
      Untouched (.symbol name) lines ∧ (s.evalAll lines).env.get? name = s.env.get? name) ∧
    (∀ (s : Session) (lines : List Text),
      (∃ before line after d, lines = before ++ line :: after ∧ Asks line (.switch d) ∧
        Untouched .domain after ∧ (s.evalAll lines).domain = d) ∨
      Untouched .domain lines ∧ (s.evalAll lines).domain = s.domain) ∧
    ∀ (s : Session) (before after : List Text) (a b : Text) (c d : Change), Asks a c → Asks b d →
      c.subject ≠ d.subject →
        s.evalAll (before ++ a :: b :: after) = s.evalAll (before ++ b :: a :: after) := by
  refine ⟨fun s line => eval_of_failure, exists_asks_iff,
    fun s line h => eval_session_of_not_asks h s, fun s lines name => ?_, fun s lines => ?_,
    fun s before after a b c d ha hb h => evalAll_swap ha hb h s before after⟩
  · have hview (s : Session) (c : Change) : (s.apply c).env.get? name =
        if c.subject = .symbol name then c.declaration else s.env.get? name :=
      Change.get?_onEnv s.env c name
    rcases last_change (·.env.get? name) hview s lines with
      ⟨before, line, after, c, hlines, hasks, hsubject, hafter, hleft⟩ | h
    · cases c with
      | declare other ty =>
        cases hsubject
        exact .inl ⟨before, line, after, ty, hlines, hasks, hafter, hleft⟩
      | forget other =>
        cases hsubject
        exact .inr (.inl ⟨before, line, after, hlines, hasks, hafter, hleft⟩)
      | switch d => cases hsubject
    · exact .inr (.inr h)
  · -- Only a switch has the domain as its subject, so any domain may stand for the other changes.
    have hview (s' : Session) (c : Change) : (s'.apply c).domain =
        if c.subject = .domain then c.onDomain s.domain else s'.domain := by
      cases c <;> rfl
    rcases last_change (·.domain) hview s lines with
      ⟨before, line, after, c, hlines, hasks, hsubject, hafter, hleft⟩ | h
    · cases c with
      | switch d => exact .inl ⟨before, line, after, d, hlines, hasks, hafter, hleft⟩
      | _ => cases hsubject
    · exact .inr h

end Session

end ExprTyping
