import ExprTyping.Proofs.Annotations
import ExprTyping.Proofs.SessionRecord

/-!
# Session files and the sessions they open

A session file is valid if its domain exists and if its time pattern and all annotations can be
read. The checks, the declared types and the opening of a session each read the texts on their own;
here they are compared with one relation between annotations and types. Nothing is known about the
library of time patterns but that it is a function.

- `Annotates`: an environment has the annotated names, with the types that the annotations denote;
- `Config.environment_cases`: this is the environment of a session file, or the least name with an
  annotation that cannot be read is blamed;
- `Config.validate_eq_ok` and `Config.exists_ofConfig`: valid session files open sessions;
- `Config.declareEach`: some declarations, one after the other, of which those that fail change
  nothing;
- `Config.valid_opens`: valid session files, the sessions they open, and their declarations.
-/

namespace ExprTyping

/-! ## Least names -/

namespace Text

theorem le_of_marked_lt {a b : List UInt8} {x y : List Nat}
    (h : a.map (·.toNat + 1) ++ 0 :: x < b.map (·.toNat + 1) ++ 0 :: y) : a ≤ b := by
  induction a generalizing b with
  | nil => exact List.nil_le b
  | cons m a ih =>
    cases b with
    | nil =>
      -- The mark is below all bytes.
      rw [List.map_cons, List.map_nil, List.cons_append, List.nil_append,
        List.cons_lt_cons_iff] at h
      omega
    | cons n b =>
      rw [List.map_cons, List.map_cons, List.cons_append, List.cons_append,
        List.cons_lt_cons_iff] at h
      rw [List.cons_le_cons_iff]
      rcases h with h | ⟨h, hrest⟩
      · exact .inl (UInt8.lt_iff_toNat_lt.2 (by omega))
      · exact .inr ⟨UInt8.toNat_inj.1 (by omega), ih hrest⟩

/-- A text that comes before another one is not above it in the order of bytes. -/
theorem toBytes_le_of_before {t u : Text} (h : Before t u) : toBytes t ≤ toBytes u :=
  le_of_marked_lt h

end Text

theorem bind_eq_ok {ε α β : Type} {x : Except ε α} {f : α → Except ε β} {b : β} :
    (x >>= f) = .ok b ↔ ∃ a, x = .ok a ∧ f a = .ok b := by
  cases x <;> simp [bind, Except.bind]

/-! ## Annotations and types -/

/-- Whether `env` declares exactly the annotated names, each with the type that its annotation
denotes. -/
def Annotates (annotations : Bindings Text) (env : Env Binary64) : Prop :=
  ∀ name, Option.Rel (fun source ty => ∃ t, parseType source = .ok t ∧ ty = some t)
    (annotations.get? name) (env.get? name)

namespace Annotates

variable {annotations : Bindings Text} {env env' : Env Binary64}

theorem get? (h : Annotates annotations env) {name source : Text}
    (hget : annotations.get? name = some source) :
    ∃ t, parseType source = .ok t ∧ env.get? name = some (some t) := by
  have hname := h name
  rw [hget] at hname
  generalize env.get? name = found at hname ⊢
  obtain ⟨t, ht, rfl⟩ := hname
  exact ⟨t, ht, rfl⟩

theorem get?_none (h : Annotates annotations env) {name : Text}
    (hget : annotations.get? name = none) : env.get? name = none := by
  have hname := h name
  rw [hget] at hname
  generalize env.get? name = found at hname ⊢
  cases hname
  rfl

/-- Annotations describe at most one environment. -/
theorem unique (h : Annotates annotations env) (h' : Annotates annotations env') : env = env' := by
  apply Bindings.ext_get?
  intro name
  cases hget : annotations.get? name with
  | none => rw [h.get?_none hget, h'.get?_none hget]
  | some source =>
    obtain ⟨t, ht, hfound⟩ := h.get? hget
    obtain ⟨t', ht', hfound'⟩ := h'.get? hget
    rw [ht, Except.ok.injEq] at ht'
    rw [hfound, hfound', ht']

theorem insert (h : Annotates annotations env) (name : Text) {source : Text} {t : Ty Binary64}
    (ht : parseType source = .ok t) :
    Annotates (annotations.insert name source) (env.insert name (some t)) := by
  intro other
  rw [Bindings.get?_insert, Bindings.get?_insert]
  split_ifs with hname
  · exact .some ⟨t, ht, rfl⟩
  · exact h other

end Annotates

/-- What is wrong with an annotation is known. -/
theorem exists_cause_of_parseType {source : Text} {e : Diagnostic}
    (h : parseType source = .error e) : ∃ cause, e.cause = some cause := by
  unfold parseType at h
  cases hread : Ty.ofText source with
  | ok t =>
    rw [hread] at h
    cases h
  | error f =>
    rw [hread] at h
    cases h
    cases f <;> exact ⟨_, rfl⟩

namespace Config

/-! ## The environment of a session file -/

variable {path name source : Text} {env env' : Env Binary64} {entries : List (Text × Text)}

theorem declaredType_of_ok {t : Ty Binary64} (path name : Text) (h : parseType source = .ok t) :
    declaredType path name source = .ok t := by
  rw [declaredType, h]
  rfl

theorem declaredType_of_error {e : Diagnostic} {cause : Cause} (path name : Text)
    (h : parseType source = .error e) (hcause : e.cause = some cause) :
    declaredType path name source = .error (fault path (.declaration name cause)) := by
  rw [declaredType, h]
  show Except.error (fault path (.declaration name (e.cause.getD _))) = _
  rw [hcause, Option.getD_some]

theorem declareAll_cons_of_ok {t : Ty Binary64} (path name : Text) (env : Env Binary64)
    (entries : List (Text × Text)) (h : parseType source = .ok t) :
    declareAll path env ((name, source) :: entries) =
      declareAll path (env.insert name (some t)) entries := by
  rw [declareAll, declaredType_of_ok path name h]
  rfl

theorem declareAll_cons_of_error {e : Diagnostic} {cause : Cause} (path name : Text)
    (env : Env Binary64) (entries : List (Text × Text)) (h : parseType source = .error e)
    (hcause : e.cause = some cause) :
    declareAll path env ((name, source) :: entries) =
      .error (fault path (.declaration name cause)) := by
  rw [declareAll, declaredType_of_error path name h hcause]
  rfl

/-- All annotations can be read, or the first one that cannot is blamed. -/
theorem declareAll_cases (path : Text) (env : Env Binary64) (entries : List (Text × Text)) :
    (∃ env', declareAll path env entries = .ok env') ∨
      ∃ before name source after e cause, entries = before ++ (name, source) :: after ∧
        (∀ entry ∈ before, ∃ t, parseType entry.2 = .ok t) ∧ parseType source = .error e ∧
        e.cause = some cause ∧
        declareAll path env entries = .error (fault path (.declaration name cause)) := by
  -- The types found so far go into the environment, so it varies.
  induction entries generalizing env with
  | nil => exact .inl ⟨env, rfl⟩
  | cons entry entries ih =>
    obtain ⟨name, source⟩ := entry
    cases hread : parseType source with
    | ok t =>
      rw [declareAll_cons_of_ok path name env entries hread]
      rcases ih (env.insert name (some t)) with
        hok | ⟨before, bad, text, after, e, cause, rfl, hbefore, he, hcause, herror⟩
      · exact .inl hok
      · refine .inr ⟨(name, source) :: before, bad, text, after, e, cause, rfl, ?_, he, hcause,
          herror⟩
        exact List.forall_mem_cons.2 ⟨⟨t, hread⟩, hbefore⟩
    | error e =>
      obtain ⟨cause, hcause⟩ := exists_cause_of_parseType hread
      exact .inr ⟨[], name, source, entries, e, cause, rfl, fun _ h => absurd h List.not_mem_nil,
        hread, hcause, declareAll_cons_of_error path name env entries hread hcause⟩

/-- Annotated names get the types that their annotations denote; the others are as they were. -/
theorem get?_declareAll (hordered : entries.Pairwise fun a b => Text.Before a.1 b.1)
    (h : declareAll path env entries = .ok env') (name : Text) :
    (∀ source, Bindings.find name entries = some source →
        ∃ t, parseType source = .ok t ∧ env'.get? name = some (some t)) ∧
      (Bindings.find name entries = none → env'.get? name = env.get? name) := by
  induction entries generalizing env with
  | nil =>
    cases h
    refine ⟨fun source hfind => ?_, fun _ => rfl⟩
    cases hfind
  | cons entry entries ih =>
    obtain ⟨first, source⟩ := entry
    rw [List.pairwise_cons] at hordered
    cases hread : parseType source with
    | error e =>
      obtain ⟨cause, hcause⟩ := exists_cause_of_parseType hread
      rw [declareAll_cons_of_error path first env entries hread hcause] at h
      cases h
    | ok t =>
      rw [declareAll_cons_of_ok path first env entries hread] at h
      obtain ⟨hfound, hother⟩ := ih hordered.2 h
      rw [Bindings.find]
      split_ifs with hname
      · -- The first name occurs only once, so its type is not replaced later.
        subst hname
        have hrest : Bindings.find first entries = none :=
          Bindings.find_eq_none_of_before hordered.1
        rw [hother hrest, Bindings.get?_insert, if_pos rfl]
        refine ⟨fun text hfind => ?_, fun hnone => ?_⟩
        · cases hfind
          exact ⟨t, hread, rfl⟩
        · cases hnone
      · rw [Bindings.get?_insert, if_neg hname] at hother
        exact ⟨hfound, hother⟩

variable {c : Config}

/-- A session file has the environment that its annotations describe, or the least name with an
annotation that cannot be read is blamed for it. -/
theorem environment_cases (c : Config) :
    (∃ env, c.environment = .ok env ∧ Annotates c.env env) ∨
      ∃ name source e cause, c.env.get? name = some source ∧ parseType source = .error e ∧
        (∀ other text f, c.env.get? other = some text → parseType text = .error f →
          Text.toBytes name ≤ Text.toBytes other) ∧
        e.cause = some cause ∧
        c.environment = .error (fault c.path (.declaration name cause)) := by
  have hordered := c.env.ordered
  rcases declareAll_cases c.path .empty c.env.entries with
    ⟨env, hok⟩ | ⟨before, name, source, after, e, cause, hentries, hbefore, he, hcause, herror⟩
  · refine .inl ⟨env, hok, fun name => ?_⟩
    obtain ⟨hfound, hother⟩ := get?_declareAll hordered hok name
    cases hget : c.env.get? name with
    | none =>
      rw [hother hget]
      exact .none
    | some source =>
      obtain ⟨t, ht, hty⟩ := hfound source hget
      rw [hty]
      exact .some ⟨t, ht, rfl⟩
  · rw [hentries, List.pairwise_append, List.pairwise_cons] at hordered
    refine .inr ⟨name, source, e, cause, ?_, he, ?_, hcause, herror⟩
    · rw [Bindings.get?_eq_some_iff, hentries]
      exact List.mem_append_right _ List.mem_cons_self
    · intro other text f hget hf
      rw [Bindings.get?_eq_some_iff, hentries, List.mem_append, List.mem_cons] at hget
      rcases hget with hmem | heq | hmem
      · -- In front of the name that is blamed, all annotations can be read.
        obtain ⟨t, ht⟩ := hbefore _ hmem
        rw [hf] at ht
        cases ht
      · rw [(Prod.mk.inj heq).1]
        exact List.le_refl _
      · exact Text.toBytes_le_of_before (hordered.2.1.1 _ hmem)

/-- Whether all annotations can be read. -/
def Readable (c : Config) : Prop :=
  ∀ name source, c.env.get? name = some source → ∃ t, parseType source = .ok t

theorem not_readable {e : Diagnostic} (hget : c.env.get? name = some source)
    (he : parseType source = .error e) : ¬ c.Readable := by
  intro h
  obtain ⟨t, ht⟩ := h name source hget
  rw [he] at ht
  cases ht

theorem readable_of_annotates (h : Annotates c.env env) : c.Readable := by
  intro name source hget
  obtain ⟨t, ht, -⟩ := h.get? hget
  exact ⟨t, ht⟩

/-- The environment of a session file is the one that its annotations describe. -/
theorem environment_eq_ok : c.environment = .ok env ↔ Annotates c.env env := by
  rcases c.environment_cases with ⟨env', hok, h'⟩ | ⟨name, source, e, cause, hget, he, -, -, herror⟩
  · rw [hok, Except.ok.injEq]
    exact ⟨fun heq => heq ▸ h', fun h => h'.unique h⟩
  · rw [herror]
    exact iff_of_false nofun fun h => not_readable hget he (readable_of_annotates h)

theorem readable_iff : c.Readable ↔ ∃ env, c.environment = .ok env := by
  refine ⟨fun h => ?_, fun ⟨env, henv⟩ => readable_of_annotates (environment_eq_ok.1 henv)⟩
  rcases c.environment_cases with ⟨env, hok, -⟩ | ⟨name, source, e, cause, hget, he, -⟩
  · exact ⟨env, hok⟩
  · exact absurd h (not_readable hget he)

/-! ## Valid session files -/

/-- The names of the domains that exist. -/
theorem exists_ofName? {n : Text} : (∃ d : Domain Binary64, Domain.ofName? n = some d) ↔
    n ∈ ([Text.ofString "interval", "matrix", "scalar"] : List Text) := by
  rw [← Option.isSome_iff_exists, Domain.ofName?, List.find?_isSome]
  show _ ↔ n ∈ (Domain.builtin (β := Binary64)).map Domain.name
  simp only [List.mem_map, beq_iff_eq]

theorem name_of_ofName? {n : Text} {d : Domain Binary64} (h : Domain.ofName? n = some d) :
    d.name = n := by
  simpa using List.find?_some h

theorem validateDomain_eq_ok :
    c.validateDomain = .ok () ↔ ∃ d : Domain Binary64, Domain.ofName? c.domain = some d := by
  unfold validateDomain
  split
  · next d hd => exact iff_of_true rfl ⟨d, hd⟩
  · next hd => simp [hd]

section Clock

variable [TimePatterns]

/-- Whether there is no time pattern, or one that can be read. -/
def HasClock (c : Config) : Prop :=
  c.timeFormat = [] ∨ ∃ stamp, TimePatterns.compile c.timeFormat = .ok stamp

theorem validateTimeFormat_eq_ok : c.validateTimeFormat = .ok () ↔ c.HasClock := by
  unfold validateTimeFormat HasClock
  split_ifs with hempty
  · exact iff_of_true rfl (.inl (List.isEmpty_iff.1 hempty))
  · rw [List.isEmpty_iff] at hempty
    cases hread : TimePatterns.compile c.timeFormat with
    | ok stamp => exact iff_of_true rfl (.inr ⟨stamp, rfl⟩)
    | error message => simp [hempty]

/-- A session file is valid if all its parts are. -/
theorem validate_eq_ok : c.validate = .ok () ↔
    c.domain ∈ ([Text.ofString "interval", "matrix", "scalar"] : List Text) ∧ c.HasClock ∧
      c.Readable := by
  rw [← exists_ofName?, ← validateDomain_eq_ok, ← validateTimeFormat_eq_ok, readable_iff]
  unfold validate
  simp only [bind_eq_ok]
  constructor
  · rintro ⟨⟨⟩, hdomain, ⟨⟩, hclock, env, henv, -⟩
    exact ⟨hdomain, hclock, env, henv⟩
  · rintro ⟨hdomain, hclock, env, henv⟩
    exact ⟨(), hdomain, (), hclock, env, henv, rfl⟩

/-- What is written in front of reports by the time pattern, if there is one that can be read. -/
def stamp? (c : Config) : Option (Moment → Text) :=
  if c.timeFormat = [] then none else (TimePatterns.compile c.timeFormat).toOption

theorem setTimeFormat_of_hasClock (h : c.HasClock) (env : Env Binary64) (d : Domain Binary64)
    (filename : Text) :
    Session.setTimeFormat ⟨env, d, filename, none⟩ c.timeFormat =
      .ok ⟨env, d, filename, c.stamp?⟩ := by
  unfold Session.setTimeFormat stamp?
  by_cases hempty : c.timeFormat = []
  · rw [hempty]
    rfl
  · -- A pattern that is not empty has been read by the checks, so it can be read again.
    obtain ⟨stamp, hstamp⟩ := h.resolve_left hempty
    rw [if_neg (by simpa using hempty), if_neg hempty, hstamp]
    rfl

/-- A valid session file opens a session with its domain, its environment and its time pattern. -/
theorem exists_ofConfig (h : c.validate = .ok ()) :
    ∃ s, Session.ofConfig c = .ok s ∧ s.domain ∈ Domain.builtin ∧ s.domain.name = c.domain ∧
      c.environment = .ok s.env ∧ s.stamp = c.stamp? := by
  obtain ⟨hdomain, hclock, hreadable⟩ := validate_eq_ok.1 h
  obtain ⟨d, hd⟩ := exists_ofName?.2 hdomain
  obtain ⟨env, henv⟩ := readable_iff.1 hreadable
  have hvalue : c.domainValue = d := by
    rw [domainValue, hd, Option.getD_some]
  have hopen : Session.ofConfig c = .ok ⟨env, d, "<repl>", c.stamp?⟩ := by
    rw [← hvalue, ← setTimeFormat_of_hasClock hclock, Session.ofConfig, henv]
    rfl
  exact ⟨_, hopen, List.mem_of_find?_eq_some hd, name_of_ofName? hd, henv, rfl⟩

end Clock

/-! ## Declarations -/

theorem declare_of_ok (c : Config) (name : Text) {t : Ty Binary64} (h : parseType source = .ok t) :
    c.declare name source = .ok { c with env := c.env.insert name source } := by
  rw [declare, declaredType_of_ok c.path name h]
  rfl

theorem declare_of_error (c : Config) (name : Text) {e : Diagnostic}
    (h : parseType source = .error e) : ∃ f, c.declare name source = .error f := by
  obtain ⟨cause, hcause⟩ := exists_cause_of_parseType h
  rw [declare, declaredType_of_error c.path name h hcause]
  exact ⟨_, rfl⟩

/-- A declaration fails exactly if its annotation cannot be read. -/
theorem declare_eq_error (c : Config) (name source : Text) :
    (∃ f, c.declare name source = .error f) ↔ ∃ e, parseType source = .error e := by
  cases h : parseType source with
  | ok t =>
    rw [c.declare_of_ok name h]
    simp
  | error e => exact iff_of_true (c.declare_of_error name h) ⟨e, rfl⟩

/-- The session file after a declaration; one that fails changes nothing. -/
def declared (c : Config) (declaration : Text × Text) : Config :=
  match c.declare declaration.1 declaration.2 with
  | .ok c' => c'
  | .error _ => c

/-- The session file after some declarations. -/
def declareEach (c : Config) (declarations : List (Text × Text)) : Config :=
  declarations.foldl declared c

/-- The type that a declaration gives to a name, if it is about this name and can be read. -/
def typeFor? (name : Text) (declaration : Text × Text) : Option (Ty Binary64) :=
  if declaration.1 = name then (parseType declaration.2).toOption else none

/-- The type that a name gets from the last of its declarations that can be read. -/
def lastDeclared? (name : Text) (declarations : List (Text × Text)) : Option (Ty Binary64) :=
  (declarations.filterMap (typeFor? name)).getLast?

theorem lastDeclared?_cons (name : Text) (d : Text × Text) (declarations : List (Text × Text)) :
    lastDeclared? name (d :: declarations) =
      (lastDeclared? name declarations).or (typeFor? name d) := by
  unfold lastDeclared?
  rw [List.filterMap_cons]
  cases typeFor? name d with
  | none => rw [Option.or_none]
  | some t =>
    rw [List.getLast?_cons]
    cases List.getLast? _ <;> rfl

/-- One declaration changes the environment at its name, if its annotation can be read. -/
theorem exists_annotates_declared (h : Annotates c.env env) (d : Text × Text) :
    ∃ env', Annotates (c.declared d).env env' ∧
      (∀ name, env'.get? name = ((typeFor? name d).map some).or (env.get? name)) ∧
      (c.declared d).domain = c.domain ∧ (c.declared d).timeFormat = c.timeFormat := by
  obtain ⟨first, source⟩ := d
  unfold declared typeFor?
  cases hread : parseType source with
  | ok t =>
    rw [c.declare_of_ok first hread]
    refine ⟨env.insert first (some t), h.insert first hread, fun name => ?_, rfl, rfl⟩
    rw [Bindings.get?_insert]
    split_ifs <;> rfl
  | error e =>
    obtain ⟨f, hf⟩ := c.declare_of_error first hread
    rw [hf]
    refine ⟨env, h, fun name => ?_, rfl, rfl⟩
    split_ifs <;> rfl

/-- After some declarations, every name has the type of the last one that could be read, or the type
it had before. -/
theorem exists_annotates_declareEach (h : Annotates c.env env)
    (declarations : List (Text × Text)) :
    ∃ env', Annotates (c.declareEach declarations).env env' ∧
      (∀ name, env'.get? name =
        ((lastDeclared? name declarations).map some).or (env.get? name)) ∧
      (c.declareEach declarations).domain = c.domain ∧
      (c.declareEach declarations).timeFormat = c.timeFormat := by
  induction declarations generalizing c env with
  | nil => exact ⟨env, h, fun _ => rfl, rfl, rfl⟩
  | cons d declarations ih =>
    obtain ⟨env₁, h₁, hget₁, hdomain₁, hformat₁⟩ := exists_annotates_declared h d
    obtain ⟨env₂, h₂, hget₂, hdomain₂, hformat₂⟩ := ih h₁
    refine ⟨env₂, h₂, fun name => ?_, hdomain₂.trans hdomain₁, hformat₂.trans hformat₁⟩
    rw [hget₂, hget₁, lastDeclared?_cons]
    cases lastDeclared? name declarations <;> rfl

/-- Declarations keep a session file valid. -/
theorem validate_declareEach [TimePatterns] (h : c.validate = .ok ())
    (declarations : List (Text × Text)) : (c.declareEach declarations).validate = .ok () := by
  obtain ⟨hdomain, hclock, hreadable⟩ := validate_eq_ok.1 h
  obtain ⟨env, henv⟩ := readable_iff.1 hreadable
  obtain ⟨env', henv', -, hdomain', hformat'⟩ :=
    exists_annotates_declareEach (environment_eq_ok.1 henv) declarations
  refine validate_eq_ok.2 ⟨hdomain'.symm ▸ hdomain, ?_, ?_⟩
  · unfold HasClock
    rw [hformat']
    exact hclock
  · exact readable_iff.2 ⟨env', environment_eq_ok.2 henv'⟩

theorem declareEach_concat_of_error (c : Config) (declarations : List (Text × Text)) (name : Text)
    {e : Diagnostic} (h : parseType source = .error e) :
    c.declareEach (declarations ++ [(name, source)]) = c.declareEach declarations := by
  rw [declareEach, List.foldl_concat]
  obtain ⟨f, hf⟩ := (c.declareEach declarations).declare_of_error name h
  show (c.declareEach declarations).declared (name, source) = _
  rw [declared, hf]

/-- Whatever the library of time patterns does, a session file is valid exactly if its domain exists
and if its time pattern and its annotations can be read. Then it opens a session with this domain,
with the annotated types and with what the pattern writes in front of reports. Declarations keep it
valid: each fails exactly if its annotation cannot be read, and leaves the session file as it is if
so; afterwards every name has the type of its last successful declaration, or the one it had. A
session file with bad annotations has no environment, and the least name that has one is blamed,
with the typing error that is at the bottom of it, if there is one. -/
theorem valid_opens [TimePatterns] (c : Config) :
    (c.validate = .ok () ↔
      c.domain ∈ ([Text.ofString "interval", "matrix", "scalar"] : List Text) ∧
        (c.timeFormat = [] ∨ ∃ stamp, TimePatterns.compile c.timeFormat = .ok stamp) ∧
        ∀ name source, c.env.get? name = some source → ∃ t, parseType source = .ok t) ∧
    (c.validate = .ok () → ∃ s, Session.ofConfig c = .ok s ∧ s.domain ∈ Domain.builtin ∧
      s.domain.name = c.domain ∧ Annotates c.env s.env ∧
      s.stamp =
        if c.timeFormat = [] then none else (TimePatterns.compile c.timeFormat).toOption) ∧
    (c.validate = .ok () → ∀ declarations : List (Text × Text),
      (c.declareEach declarations).validate = .ok () ∧
      (∀ name source,
        ((∃ f, (c.declareEach declarations).declare name source = .error f) ↔
          ∃ e, parseType source = .error e) ∧
        ((∃ f, (c.declareEach declarations).declare name source = .error f) →
          c.declareEach (declarations ++ [(name, source)]) = c.declareEach declarations)) ∧
      ∃ env env', c.environment = .ok env ∧ (c.declareEach declarations).environment = .ok env' ∧
        ∀ name, env'.get? name =
          ((lastDeclared? name declarations).map some).or (env.get? name)) ∧
    ((∃ name source e, c.env.get? name = some source ∧ parseType source = .error e) →
      ∃ name source e d cause, c.env.get? name = some source ∧ parseType source = .error e ∧
        (∀ other text f, c.env.get? other = some text → parseType text = .error f →
          Text.toBytes name ≤ Text.toBytes other) ∧
        c.environment = .error d ∧ d.stage = .config ∧ d.filename = c.path ∧
        e.cause = some cause ∧ d.cause = some (.declaration name cause) ∧
        d.typeError? = e.typeError?) := by
  refine ⟨validate_eq_ok, fun h => ?_, fun h declarations => ?_, ?_⟩
  · obtain ⟨s, hs, hbuiltin, hname, henv, hstamp⟩ := exists_ofConfig h
    exact ⟨s, hs, hbuiltin, hname, environment_eq_ok.1 henv, hstamp⟩
  · obtain ⟨env, henv⟩ := readable_iff.1 (validate_eq_ok.1 h).2.2
    obtain ⟨env', henv', hget, -⟩ :=
      exists_annotates_declareEach (environment_eq_ok.1 henv) declarations
    refine ⟨validate_declareEach h declarations, fun name source => ?_, env, env', henv,
      environment_eq_ok.2 henv', hget⟩
    have hfails := (c.declareEach declarations).declare_eq_error name source
    refine ⟨hfails, fun hf => ?_⟩
    obtain ⟨e, he⟩ := hfails.1 hf
    exact c.declareEach_concat_of_error declarations name he
  · rintro ⟨bad, text, f, hbad, hf⟩
    rcases c.environment_cases with
      ⟨env, -, h⟩ | ⟨name, source, e, cause, hget, he, hleast, hcause, herror⟩
    · exact absurd (readable_of_annotates h) (not_readable hbad hf)
    · refine ⟨name, source, e, _, cause, hget, he, hleast, herror, rfl, rfl, hcause, rfl, ?_⟩
      show cause.typeError? = e.cause.bind Cause.typeError?
      rw [hcause, Option.bind_some]

/-- With a library that knows one pattern: a session file with this pattern and with one symbol,
which is declared again, first badly and then well. Another pattern makes it invalid. Two further
symbols with bad annotations make it invalid, and the lesser one is blamed for its bounds. -/
theorem valid_opens_redeclared :
    let hours : Moment → Text := fun now => Text.ofInt now.hour
    let _ : TimePatterns := ⟨fun format => if format = "%H" then .ok hours else .error "unknown"⟩
    let c : Config := ⟨"interval", "%H", Bindings.empty.insert "x" "[0, 1]", "a.yaml"⟩
    let bad : Config := { c with env := (c.env.insert "z" "oops").insert "y" "[2, 1]" }
    let declarations : List (Text × Text) := [("x", "[2, 1]"), ("x", "[2, 3]"), ("y", "real")]
    c.validate = .ok () ∧
      (∃ s, Session.ofConfig c = .ok s ∧ s.domain.name = Text.ofString "interval" ∧
        s.stamp = some hours) ∧
      ¬ Config.validate { c with timeFormat := "%Q" } = .ok () ∧
      (∃ env, (c.declareEach declarations).environment = .ok env ∧ env.get? "x" =
        some (some (.interval ⟨.ofDecimal false 2 0, .ofDecimal false 3 0, true, true⟩))) ∧
      ∃ d, bad.environment = .error d ∧ d.typeError?.map TypeError.reason = some .invalidInterval :=
    by
  intro hours patterns c bad declarations
  have hx : parseType "[0, 1]" = .ok (.interval ⟨.ofDecimal false 0 0, .ofDecimal false 1 0, true,
      true⟩) := parseType_eq_ok.2 (by decide +kernel)
  obtain ⟨ey, hy, hreason⟩ : ∃ e, parseType "[2, 1]" = .error e ∧
      e.typeError?.map TypeError.reason = some .invalidInterval := by
    have hread : Ty.ofText "[2, 1]" = .error (.misplaced (.invalidInterval
        ⟨.invalidInterval, "", [], [], .ofDecimal false 2 0, .ofDecimal false 1 0⟩) ⟨1, 1⟩) := by
      decide +kernel
    exact ⟨_, by rw [parseType, hread]; rfl, rfl⟩
  obtain ⟨ez, hz⟩ : ∃ e, parseType "oops" = .error e := by
    have hread : Ty.ofText "oops" = .error (.misplaced (.unknownType "oops") ⟨1, 1⟩) := by
      decide +kernel
    exact ⟨_, by rw [parseType, hread]; rfl⟩
  obtain ⟨hvalid, hopens, hdeclares, -⟩ := valid_opens c
  have hc : c.validate = .ok () := by
    refine hvalid.2 ⟨by decide, .inr ⟨_, rfl⟩, fun name source hget => ?_⟩
    rw [Bindings.get?_insert, Bindings.get?_empty] at hget
    split_ifs at hget
    cases hget
    exact ⟨_, hx⟩
  refine ⟨hc, ?_, ?_, ?_, ?_⟩
  · obtain ⟨s, hs, -, hname, -, hstamp⟩ := hopens hc
    exact ⟨s, hs, hname, hstamp⟩
  · intro hunknown
    obtain ⟨-, hclock, -⟩ := (valid_opens _).1.1 hunknown
    rcases hclock with hempty | ⟨stamp, hstamp⟩
    · cases hempty
    · cases hstamp
  · obtain ⟨-, -, env, env', -, henv', hget⟩ := hdeclares hc declarations
    refine ⟨env', henv', (hget "x").trans ?_⟩
    have hlast : lastDeclared? "x" declarations =
        some (.interval ⟨.ofDecimal false 2 0, .ofDecimal false 3 0, true, true⟩) := by
      decide +kernel
    rw [hlast]
    rfl
  · obtain ⟨-, -, -, hblames⟩ := valid_opens bad
    obtain ⟨name, source, e, d, cause, hget, he, hleast, herror, -, -, -, -, htype⟩ :=
      hblames ⟨"z", "oops", ez, by decide, hz⟩
    refine ⟨d, herror, ?_⟩
    have hbefore : Text.toBytes name ≤ Text.toBytes "y" :=
      hleast "y" "[2, 1]" ey (by decide) hy
    -- `x` can be read and `z` is not the least one, so `y` is blamed.
    simp only [bad, c, Bindings.get?_insert, Bindings.get?_empty] at hget
    split_ifs at hget with hname hname hname <;> subst hname <;> cases hget
    · rw [hy, Except.error.injEq] at he
      rw [htype, ← he, hreason]
    · exact absurd hbefore (by decide)
    · rw [hx] at he
      cases he

end Config

end ExprTyping
