import ExprTyping.CommandLine.Run
import ExprTyping.Proofs.Chunks
import ExprTyping.Proofs.Configurations
import ExprTyping.Proofs.FailurePlaces
import ExprTyping.Proofs.TypeFamilies

/-!
# Checking piped input

Piped input is checked line by line. Each line that holds an expression has a verdict, which depends
on the session that the command opens, on the line and on its number, but on no other line. The
command prints the verdicts in the order of the lines, types to the standard output and reports to
the standard error, and its exit code says whether there was a report.

- `CommandLine.sources`: the lines on which there is something to check, with their numbers;
- `CommandLine.verdict`: the text of a type or the message of a report;
- `CommandLine.lines_flatMap`: lines that were put together are taken apart again;
- `Ty.newline_notMem_render`: the text of a type that can be declared or inferred is one line;
- `CommandLine.Reports`: how a message is reported under a time pattern;
- `CommandLine.run_piped`: what a whole run prints, and how it ends.
-/

namespace ExprTyping

/-! ## Types are shown on one line -/

theorem Text.newline_notMem_ofChars {cs : List Char} (h : '\n' ∉ cs) :
    .char '\n' ∉ Text.ofChars cs := by
  simpa [Text.ofChars] using h

theorem newline_notMem_toDigits (n : Nat) : '\n' ∉ Nat.toDigits 10 n := by
  intro h
  have hdigit : '\n'.isDigit := Nat.isDigit_of_mem_toDigits (by decide) (by decide) h
  cases hdigit

theorem Text.newline_notMem_ofInt (z : Int) : .char '\n' ∉ Text.ofInt z := by
  cases z with
  | ofNat n => exact newline_notMem_ofChars (newline_notMem_toDigits n)
  | negSucc n =>
    have hdigits := newline_notMem_ofChars (newline_notMem_toDigits (n + 1))
    simpa [Text.ofInt, Text.ofNat] using hdigits

namespace Binary64

theorem newline_notMem_exponentChars (e : Int) : '\n' ∉ exponentChars e := by
  have hdigits := newline_notMem_toDigits e.natAbs
  unfold exponentChars
  dsimp only
  split_ifs <;> simpa using hdigits

/-- A layout adds zeros, a point and an exponent to digits. -/
theorem newline_notMem_layOut {ds : List Char} (h : '\n' ∉ ds) (e : Int) : '\n' ∉ layOut ds e := by
  have hexponent := newline_notMem_exponentChars e
  unfold layOut
  split
  · split
    · exact List.not_mem_nil
    · simpa using ⟨by simpa using h, hexponent⟩
    · next d rest _ => simpa [hexponent] using h
  · split
    · simpa using h
    · dsimp only
      split
      · simpa using h
      · have htake (n : Nat) : '\n' ∉ ds.take n := fun hmem => h (List.mem_of_mem_take hmem)
        have hdrop (n : Nat) : '\n' ∉ ds.drop n := fun hmem => h (List.mem_of_mem_drop hmem)
        simp [htake, hdrop]

theorem newline_notMem_toChars (x : Binary64) : '\n' ∉ x.toChars := by
  have hmagnitude (k : Nat) : '\n' ∉ magnitudeChars k := by
    unfold magnitudeChars
    split
    · decide
    · refine newline_notMem_layOut (fun hmem => newline_notMem_toDigits (shortest k).digits ?_) _
      exact List.mem_reverse.1 ((List.dropWhile_sublist _).subset (List.mem_reverse.1 hmem))
  cases x with
  | nan => decide
  | num s k =>
    show '\n' ∉ if k.val = infinityOrd then _ else _
    split_ifs <;> simp [hmagnitude]

end Binary64

theorem Interval.newline_notMem_renderBound (x : Binary64) : .char '\n' ∉ renderBound x := by
  unfold renderBound
  split
  · decide
  · exact Text.newline_notMem_ofChars x.newline_notMem_toChars

/-- The text of a well-formed type is one line. -/
theorem Ty.newline_notMem_render {t : Ty Binary64} (h : t.IsProper) : .char '\n' ∉ t.render := by
  cases t with
  | scalar name =>
    rcases h with h | h | h <;> cases h <;> decide
  | matrix s =>
    have hrows := Text.newline_notMem_ofInt s.rows
    have hcols := Text.newline_notMem_ofInt s.cols
    have hwords : [Text.ofString "Matrix(", ", ", ")"].all (¬ .char '\n' ∈ ·) := by decide
    simp_all [render, Shape.render]
  | interval iv =>
    have hlow := Interval.newline_notMem_renderBound iv.low
    have hhigh := Interval.newline_notMem_renderBound iv.high
    have hwords : [Text.ofString "[", "(", ", ", "]", ")"].all (¬ .char '\n' ∈ ·) := by decide
    show .char '\n' ∉ iv.render
    unfold Interval.render
    split_ifs <;> simp_all

/-- The types of annotations are well-formed. -/
theorem Ty.WellFormed.isProper {t : Ty Binary64} (h : t.WellFormed) : t.IsProper := by
  cases t with
  | scalar name => simpa [WellFormed, IsProper, IsScalar, int, real, bool] using h
  | matrix s => exact ⟨h.1.1, h.2.1⟩
  | interval iv => exact h

theorem Annotates.isProper {annotations : Bindings Text} {env : Env Binary64}
    (h : Annotates annotations env) : env.IsProper := by
  intro name ty hget
  cases hsource : annotations.get? name with
  | none =>
    rw [h.get?_none hsource] at hget
    cases hget
  | some source =>
    obtain ⟨t, ht, hfound⟩ := h.get? hsource
    rw [hfound, Option.some.injEq] at hget
    exact ⟨t, hget ▸ rfl, (wellFormed_of_ofText (parseType_eq_ok.1 ht)).isProper⟩

theorem Session.exists_infer_of_check {s : Session} {filename source : Text} {t : Typed Binary64}
    (h : s.check filename source = .ok t) : ∃ e, infer s.env s.domain e = .ok t := by
  cases hparse : parseExpr filename source with
  | error failure =>
    rw [check_of_parseExpr_error hparse] at h
    cases h
  | ok e =>
    rw [check_of_parseExpr_ok hparse] at h
    refine ⟨e, ?_⟩
    cases hinfer : infer s.env s.domain e with
    | error f =>
      rw [hinfer] at h
      cases h
    | ok t' =>
      rw [hinfer] at h
      cases h
      rfl

namespace CommandLine

/-! ## Lines -/

theorem lines_append {line : Text} (h : .char '\n' ∉ line) (rest : Text) :
    lines (line ++ Text.ofString "\n" ++ rest) = line :: lines rest := by
  induction line with
  | nil => rfl
  | cons g line ih =>
    rw [List.mem_cons, not_or] at h
    rw [List.cons_append, List.cons_append, lines, if_neg fun hg => h.1 hg.symm, ih h.2]

/-- Lines that were put together are taken apart again. -/
theorem lines_flatMap {ls : List Text} (h : ∀ line ∈ ls, .char '\n' ∉ line) :
    lines (ls.flatMap (· ++ Text.ofString "\n")) = ls := by
  induction ls with
  | nil => rfl
  | cons line ls ih =>
    obtain ⟨hline, hls⟩ := List.forall_mem_cons.1 h
    rw [List.flatMap_cons, lines_append hline, ih hls]

/-- Whether there is nothing to check on a line without blanks at its ends: it is empty, or a
comment. -/
def IsSkipped (line : Text) : Prop :=
  line = [] ∨ line.head? = some (.char '#')

instance (line : Text) : Decidable (IsSkipped line) :=
  inferInstanceAs (Decidable (_ ∨ _))

theorem isVoid_iff {line : Text} : isVoid line ↔ IsSkipped line := by
  unfold isVoid IsSkipped
  rw [Bool.or_eq_true, List.isEmpty_iff]
  exact or_congr_right Text.startsWith_char

/-! ## Verdicts -/

/-- The lines on which there is something to check, without the blanks at their ends, and with their
numbers. -/
def sourcesFrom (number : Nat) (ls : List Text) : List (Text × Nat) :=
  ((ls.map Text.trim).zipIdx number).filter fun p => ¬ IsSkipped p.1

/-- The sources in a text, each with the number of its line. -/
def sources (input : Text) : List (Text × Nat) :=
  sourcesFrom 1 (lines input)

/-- What the check of a source comes to: the text of a type on the left, or the message of a report
on the right. -/
def verdictOf (filename : Text) : Except Failure (Typed Binary64) → Text ⊕ Text
  | .ok t => .inl (Ty.renderOption t.ty)
  | .error .incomplete => .inr (filename ++ ": incomplete expression")
  | .error f => .inr f.message

/-- The verdict on a numbered source, alone in a session. -/
def verdict (s : Session) (source : Text) (number : Nat) : Text ⊕ Text :=
  let filename := "<stdin>:" ++ Text.ofNat number
  verdictOf filename (s.check filename source)

/-- What the command does with a verdict. -/
def shown (s : Session) : Text ⊕ Text → Checked
  | .inl text => ⟨⟨text ++ Text.ofString "\n", []⟩, false⟩
  | .inr message => ⟨⟨[], [s.report message]⟩, true⟩

theorem Checked.append_eq (c d : Checked) :
    c ++ d = ⟨⟨c.printed.out ++ d.printed.out, c.printed.err ++ d.printed.err⟩,
      c.failed || d.failed⟩ :=
  rfl

theorem Checked.nothing_append (c : Checked) : nothing ++ c = c := by
  obtain ⟨⟨out, err⟩, failed⟩ := c
  rfl

/-- What all verdicts together print, and whether one of them is a report. -/
theorem all_shown (s : Session) (vs : List (Text ⊕ Text)) :
    Checked.all (vs.map (shown s)) =
      ⟨⟨(vs.filterMap Sum.getLeft?).flatMap (· ++ Text.ofString "\n"),
        (vs.filterMap Sum.getRight?).map s.report⟩,
        !(vs.filterMap Sum.getRight?).isEmpty⟩ := by
  induction vs with
  | nil => rfl
  | cons v vs ih =>
    show shown s v ++ Checked.all (vs.map (shown s)) = _
    rw [ih]
    cases v with
    | inl text => simp [shown, Checked.append_eq, List.filterMap_cons]
    | inr message => simp [shown, Checked.append_eq, List.filterMap_cons]

theorem verdictOf_eq_inl {filename text : Text} {r : Except Failure (Typed Binary64)}
    (h : verdictOf filename r = .inl text) : ∃ t, r = .ok t ∧ text = Ty.renderOption t.ty := by
  unfold verdictOf at h
  split at h <;> cases h
  exact ⟨_, rfl, rfl⟩

/-- The text of a type in a verdict is one line. -/
theorem newline_notMem_of_verdict {s : Session} (hdomain : s.domain ∈ Domain.builtin)
    (henv : s.env.IsProper) {source text : Text} {number : Nat}
    (h : verdict s source number = .inl text) : .char '\n' ∉ text := by
  obtain ⟨t, hcheck, rfl⟩ := verdictOf_eq_inl h
  obtain ⟨e, hinfer⟩ := Session.exists_infer_of_check hcheck
  obtain ⟨ty, hty, hproper⟩ := infer_isProper henv hdomain e t hinfer
  rw [Option.mem_def.1 hty]
  exact Ty.newline_notMem_render hproper

section Checks

variable [TreePrinter] (s : Session)

theorem checkText_eq_shown (filename source : Text) :
    checkText false s filename source = shown s (verdictOf filename (s.check filename source)) := by
  unfold checkText
  cases s.check filename source with
  | ok t => rfl
  | error f => cases f <;> rfl

/-- Lines that are short enough are checked one after the other, each by itself. -/
theorem checkLinesFrom_eq_all (number : Nat) {ls : List Text}
    (h : ∀ line ∈ ls, Text.byteLength line < lineLimit) :
    checkLinesFrom false s number ls =
      .all ((sourcesFrom number ls).map fun p => shown s (verdict s p.1 p.2)) := by
  induction ls generalizing number with
  | nil => rfl
  | cons line ls ih =>
    obtain ⟨hline, hls⟩ := List.forall_mem_cons.1 h
    rw [checkLinesFrom, if_neg (Nat.not_le.2 hline), ih (number + 1) hls]
    dsimp only
    by_cases hskipped : IsSkipped (Text.trim line)
    · -- A blank line or a comment only counts towards the numbers.
      have hskip : sourcesFrom number (line :: ls) = sourcesFrom (number + 1) ls := by
        simp [sourcesFrom, hskipped]
      rw [hskip, if_pos (isVoid_iff.2 hskipped), Checked.nothing_append]
    · have htake : sourcesFrom number (line :: ls) =
          (Text.trim line, number) :: sourcesFrom (number + 1) ls := by
        simp [sourcesFrom, hskipped]
      rw [htake, if_neg fun hvoid => hskipped (isVoid_iff.1 hvoid), checkText_eq_shown]
      rfl

end Checks

/-! ## Reports -/

/-- Whether a notice reports a message under a time pattern: on a line of its own, behind the time
of the report in brackets if there is a pattern. -/
inductive Reports [TimePatterns] (format message : Text) : Notice → Prop
  | plain : format = [] → Reports format message fun _ => message ++ Text.ofString "\n"
  | stamped {stamp : Moment → Text} : format ≠ [] → TimePatterns.compile format = .ok stamp →
      Reports format message fun now =>
        Text.ofString "[" ++ stamp now ++ Text.ofString "] " ++ message ++ Text.ofString "\n"

theorem reports_report [TimePatterns] {c : Config} {s : Session} (hclock : c.HasClock)
    (hstamp : s.stamp = c.stamp?) (message : Text) :
    Reports c.timeFormat message (s.report message) := by
  unfold Session.report
  rw [hstamp, Config.stamp?]
  by_cases hempty : c.timeFormat = []
  · rw [if_pos hempty]
    exact .plain hempty
  · obtain ⟨stamp, hread⟩ := hclock.resolve_left hempty
    rw [if_neg hempty, hread]
    exact .stamped hempty hread

/-! ## Runs -/

section Runs

variable [TimePatterns] [SessionDecoder]
variable {w : Surroundings} {o : Options} {c : Config} {s : Session}

theorem validate_of_configure (h : configure w o = .ok c) : c.validate = .ok () := by
  obtain ⟨_, -, h⟩ := bind_eq_ok.1 h
  obtain ⟨c', -, h⟩ := bind_eq_ok.1 h
  obtain ⟨_, hvalid, h⟩ := bind_eq_ok.1 h
  cases h
  cases hc : c.validate with
  | ok u => rfl
  | error d =>
    rw [hc] at hvalid
    cases hvalid

/-- The session that a valid configuration opens. It declares well-formed types only. -/
theorem exists_openSession (h : configure w o = .ok c) :
    ∃ s, Session.ofConfig c = .ok s ∧ openSession w o = .ok s ∧ s.domain ∈ Domain.builtin ∧
      s.env.IsProper ∧ s.stamp = c.stamp? := by
  obtain ⟨s, hs, hdomain, -, henv, hstamp⟩ := Config.exists_ofConfig (validate_of_configure h)
  refine ⟨s, hs, ?_, hdomain, (Config.environment_eq_ok.1 henv).isProper, hstamp⟩
  rw [openSession, h]
  show (Session.ofConfig c).mapError _ = _
  rw [hs]
  rfl

variable [TreePrinter]

/-- Without a terminal the command checks its input and ends. -/
theorem run_of_openSession {arguments : List Text} (hpiped : w.terminal = false)
    (hoptions : Options.ofArguments arguments = .ok o) (hopen : openSession w o = .ok s)
    (keys : List (List KeyEvent)) :
    run w keys arguments =
      let checked := checkLines o.dump s w.input
      .exited
        ⟨checked.printed.out, (if o.version then [versionLine] else []) ++ checked.printed.err⟩
        (if checked.failed then 1 else 0) := by
  let version : Checked := ⟨⟨[], if o.version then [versionLine] else []⟩, false⟩
  have hstart : start w arguments = .ok ⟨s, version ++ checkLines o.dump s w.input, 0⟩ := by
    rw [start, hoptions]
    show openSession w o >>= _ = _
    rw [hopen]
    show Except.ok _ = _
    simp [isIdle, checkAll, hpiped]
    rfl
  rw [run, hstart]
  show Ending.exited (_ ++ Printed.nothing) _ = _
  simp [version, Checked.append_eq, Printed.append_nothing]

/-- Piped input is checked line by line. The verdict on a line is that of a check in the session
that the configuration opens, so it does not depend on the other lines. Blank lines and comments
have none. The types are printed, each on a line of its own, and each of the other verdicts is
reported by a notice with its own moment, both in the order of the input. The exit status tells
whether there was a report. -/
theorem run_piped {arguments : List Text} (hpiped : w.terminal = false)
    (hoptions : Options.ofArguments arguments = .ok o) (hdump : o.dump = false)
    (hconfig : configure w o = .ok c)
    (hshort : ∀ line ∈ lines w.input, (Text.toBytes line).length < 65536)
    (keys : List (List KeyEvent)) :
    ∃ s, Session.ofConfig c = .ok s ∧
      let verdicts := (sources w.input).map fun p => verdict s p.1 p.2
      let texts := verdicts.filterMap Sum.getLeft?
      let messages := verdicts.filterMap Sum.getRight?
      ∃ out notices,
        run w keys arguments =
          .exited ⟨out, (if o.version then [versionLine] else []) ++ notices⟩
            (if messages = [] then 0 else 1) ∧
        out = texts.flatMap (· ++ Text.ofString "\n") ∧ lines out = texts ∧
        List.Forall₂ (Reports c.timeFormat) messages notices := by
  obtain ⟨s, hs, hopen, hdomain, henv, hstamp⟩ := exists_openSession hconfig
  have hclock : c.HasClock := (Config.validate_eq_ok.1 (validate_of_configure hconfig)).2.1
  refine ⟨s, hs, ?_⟩
  intro verdicts texts messages
  have hchecked : checkLines o.dump s w.input =
      ⟨⟨texts.flatMap (· ++ Text.ofString "\n"), messages.map s.report⟩, !messages.isEmpty⟩ := by
    rw [checkLines, hdump, checkLinesFrom_eq_all s 1 hshort, ← all_shown, List.map_map]
    rfl
  have htexts : ∀ text ∈ texts, .char '\n' ∉ text := by
    intro text hmem
    obtain ⟨v, hv, hleft⟩ := List.mem_filterMap.1 hmem
    obtain ⟨p, -, rfl⟩ := List.mem_map.1 hv
    exact newline_notMem_of_verdict hdomain henv (Sum.getLeft?_eq_some_iff.1 hleft)
  refine ⟨_, messages.map s.report, ?_, rfl, lines_flatMap htexts, ?_⟩
  · rw [run_of_openSession hpiped hoptions hopen, hchecked]
    cases messages <;> rfl
  · rw [List.forall₂_map_right_iff]
    exact List.forall₂_same.2 fun message _ => reports_report hclock hstamp message

end Runs

/-- A sum, a blank line, a comment, an unfinished expression and a conjunction of numbers, under a
session file with a time pattern. The two reports are made in different years. -/
theorem run_piped_stamped :
    let years : Moment → Text := fun now => Text.ofInt now.date.year
    let _ : TimePatterns := ⟨fun _ => .ok years⟩
    let _ : SessionDecoder := ⟨fun _ => .ok ⟨[], "%Y", .empty⟩⟩
    let _ : TreePrinter := ⟨Typed.render⟩
    let w : Surroundings := ⟨"1 + 2\n\n  # note\n\t(3\n1 and 2", false, fun _ => .ok []⟩
    let c : Config := ⟨"scalar", "%Y", .empty, "exprcheck.yaml"⟩
    configure w {} = .ok c ∧
      sources w.input =
        [(Text.ofString "1 + 2", 1), (Text.ofString "(3", 4), (Text.ofString "1 and 2", 5)] ∧
      ∃ notices, run w [] [] = .exited ⟨"real\n", notices⟩ 1 ∧
        notices.zipWith (fun notice now => notice now)
            [.ofFields 2026 1 1 0 0 0, .ofFields 2027 1 1 0 0 0] =
          ["[2026] <stdin>:4: incomplete expression\n",
            "[2027] Type Error: <stdin>:5:1:3 no signature matches and(int, int)\n"] := by
  intro years patterns decoder printer w c
  have hoptions : Options.ofArguments [] = .ok {} := by rw [Options.ofArguments, Options.readFrom]
  have hconfig : configure w {} = .ok c := rfl
  have hshort : (lines w.input).all fun line => (Text.toBytes line).length < 65536 := by
    decide +kernel
  have hsources : sources w.input =
      [(Text.ofString "1 + 2", 1), (Text.ofString "(3", 4), (Text.ofString "1 and 2", 5)] := by
    decide +kernel
  obtain ⟨s, hs, out, notices, hrun, hout, -, hreports⟩ := run_piped (w := w) rfl hoptions rfl
    hconfig (fun line hline => of_decide_eq_true (List.all_eq_true.1 hshort line hline)) []
  obtain rfl : s = ⟨.empty, .scalar, "<repl>", some years⟩ := (Except.ok.inj hs).symm
  rw [hsources] at hrun hout hreports
  obtain rfl : out = Text.ofString "real\n" := hout.trans (by decide +kernel)
  have hmessages : List.filterMap Sum.getRight?
      (List.map (fun p => verdict ⟨.empty, .scalar, "<repl>", some years⟩ p.1 p.2)
        [(Text.ofString "1 + 2", 1), (Text.ofString "(3", 4), (Text.ofString "1 and 2", 5)]) =
      [Text.ofString "<stdin>:4: incomplete expression",
        Text.ofString "Type Error: <stdin>:5:1:3 no signature matches and(int, int)"] := by
    decide +kernel
  rw [hmessages] at hrun hreports
  have hstamped (message : Text) (notice : Notice) (h : Reports c.timeFormat message notice) :
      notice = fun now => Text.ofString "[" ++ years now ++ "] " ++ message ++ "\n" := by
    cases h with
    | plain hempty => cases hempty
    | stamped _ hread =>
      cases hread
      rfl
  cases hreports with
  | cons hfirst hrest =>
    cases hrest with
    | cons hsecond hnil =>
      cases hnil
      rw [hstamped _ _ hfirst, hstamped _ _ hsecond] at hrun
      exact ⟨hconfig, hsources, _, hrun, by decide +kernel⟩

end CommandLine

end ExprTyping
