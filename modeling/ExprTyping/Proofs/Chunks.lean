import Mathlib.Data.List.Infix
import ExprTyping.Session.Loop
import ExprTyping.Proofs.SessionRecord

/-!
# How the read loop cuts its input

The loop evaluates what it has read after every line, from the first line that is not blank, until
the evaluation is final. The lines up to there are a chunk. A chunk whose evaluation would go on is
pending: its lines are in the buffer, and the session is the one in which the chunk started.

- `Loop.Waits`: whether the loop goes on reading after a text;
- `Loop.IsChunk`: lines of which the loop has waited after all but perhaps the last;
- `Loop.Episode` and `Loop.Ending`: what the loop does with blank lines and chunks, and how it
  stops;
- `Loop.runBuffer_cases` and `Loop.step_line`: what one event leads to;
- `Loop.runAll_chunks`: the events of a whole run, cut into episodes.
-/

namespace ExprTyping

namespace Printed

theorem append_nothing (p : Printed) : p ++ nothing = p := by
  change Printed.mk _ _ = p
  rw [nothing, List.append_nil, List.append_nil]

theorem append_assoc (p q r : Printed) : p ++ q ++ r = p ++ (q ++ r) := by
  change Printed.mk _ _ = Printed.mk _ _
  rw [mk.injEq]
  exact ⟨List.append_assoc _ _ _, List.append_assoc _ _ _⟩

end Printed

theorem Text.startsWith_char {t : Text} {c : Char} :
    t.startsWith [.char c] ↔ t.head? = some (.char c) := by
  cases t with
  | nil => simp [startsWith]
  | cons g t => simpa [startsWith] using eq_comm

/-- The notice that reports the failure of an input, if it failed. -/
def Outcome.report (o : Outcome) : List Notice :=
  match o.failure with
  | none => []
  | some f => [o.session.report f.message]

namespace Loop

/-! ## Chunks -/

/-- The text of some lines, each with its end. -/
def text (lines : List Text) : Text :=
  lines.flatMap (· ++ Text.ofString "\n")

theorem text_concat (lines : List Text) (t : Text) :
    text (lines ++ [t]) = text lines ++ t ++ Text.ofString "\n" := by
  simp [text]

theorem isEmpty_text (lines : List Text) : (text lines).isEmpty = lines.isEmpty := by
  cases lines with
  | nil => rfl
  | cons t lines => simp [text, Text.ofString, Text.ofChars]

/-- The loop takes a text for a command if it starts with a colon behind its blanks. -/
theorem isCommand_iff {buffer : Text} :
    isCommand buffer ↔ (Text.trim buffer).head? = some (.char ':') :=
  Text.startsWith_char

variable [TreePrinter]

/-- Whether the loop goes on reading after a text: its evaluation found it incomplete, and it does
not start with a colon behind its blanks. -/
def Waits (s : Session) (buffer : Text) : Prop :=
  (s.eval buffer).failure = some .incomplete ∧ (Text.trim buffer).head? ≠ some (.char ':')

/-- Whether lines belong to one chunk that starts in the session `s`: the first one is not blank,
and the loop goes on reading after each of them that is not the last. -/
structure IsChunk (s : Session) (lines : List Text) : Prop where
  /-- The first line is not blank. -/
  first : ∀ t ∈ lines.head?, Text.trim t ≠ []
  /-- The loop waits after all lines but the last. -/
  waits : ∀ part, part ≠ [] → part <+: lines → part ≠ lines → Waits s (text part)

/-- All that evaluating the buffer can lead to. -/
theorem runBuffer_cases (s : Session) (buffer : Text) :
    (Waits s buffer ∧ runBuffer s buffer = ⟨⟨s, buffer⟩, .nothing, false⟩) ∨
    (¬ Waits s buffer ∧ (s.eval buffer).failure = some .quit ∧
      runBuffer s buffer = ⟨start s, .nothing, true⟩) ∨
    (¬ Waits s buffer ∧ (s.eval buffer).failure ≠ some .quit ∧
      runBuffer s buffer = ⟨start (s.eval buffer).session,
        ⟨(s.eval buffer).out, (s.eval buffer).report⟩, false⟩) := by
  unfold Waits runBuffer Outcome.report
  dsimp only
  cases hfailure : (s.eval buffer).failure with
  | none => exact .inr (.inr ⟨nofun, nofun, rfl⟩)
  | some f =>
    have hsome : (s.eval buffer).failure ≠ none := by
      rw [hfailure]
      exact Option.some_ne_none f
    -- Nothing was printed and nothing has changed, so the loop may start the evaluation over.
    obtain ⟨hsession, hout⟩ := Session.eval_of_failure hsome
    rw [hsession, hout]
    cases f with
    | incomplete =>
      by_cases hcolon : (Text.trim buffer).head? = some (.char ':')
      · refine .inr (.inr ⟨fun hwaits => hwaits.2 hcolon, nofun, ?_⟩)
        dsimp only
        rw [if_pos (isCommand_iff.2 hcolon)]
      · refine .inl ⟨⟨rfl, hcolon⟩, ?_⟩
        dsimp only
        rw [if_neg fun hcommand => hcolon (isCommand_iff.1 hcommand)]
        rfl
    | quit => exact .inr (.inl ⟨nofun, rfl, rfl⟩)
    | _ => exact .inr (.inr ⟨nofun, nofun, rfl⟩)

/-- Whether lines are waiting in the buffer: they belong to one chunk, and the loop goes on reading
after the last of them, too. No lines wait in an empty buffer. -/
structure IsPending (s : Session) (lines : List Text) : Prop where
  /-- The lines belong to one chunk. -/
  chunk : IsChunk s lines
  /-- The loop waits after the last line. -/
  last : lines ≠ [] → Waits s (text lines)

theorem isPending_nil (s : Session) : IsPending s [] :=
  ⟨⟨nofun, fun _ hpart hprefix _ => absurd (List.prefix_nil.1 hprefix) hpart⟩,
    fun h => absurd rfl h⟩

/-- A further line belongs to the chunk that waits, and a line that is not blank starts one. -/
theorem IsPending.concat {s : Session} {lines : List Text} (h : IsPending s lines) {t : Text}
    (ht : lines ≠ [] ∨ Text.trim t ≠ []) : IsChunk s (lines ++ [t]) := by
  constructor
  · intro u hu
    cases lines with
    | nil =>
      cases hu
      exact ht.resolve_left fun hne => hne rfl
    | cons first lines => exact h.chunk.first u hu
  · intro part hpart hprefix hne
    rcases List.prefix_concat_iff.1 hprefix with heq | hprefix
    · exact absurd heq hne
    · -- A part of the lines before the last is a proper one or all of them.
      by_cases heq : part = lines
      · subst heq
        exact h.last hpart
      · exact h.chunk.waits part hpart hprefix heq

/-! ## Episodes -/

/-- What the loop did with some events, after which the buffer is empty and the loop goes on. -/
inductive Episode where
  /-- A blank line outside of all chunks was skipped. -/
  | skipped (t : Text)
  /-- A chunk was evaluated. -/
  | evaluated (lines : List Text)
  /-- A chunk was dropped by an interrupt. -/
  | dropped (lines : List Text)

namespace Episode

/-- The events of an episode. -/
def events : Episode → List KeyEvent
  | .skipped t => [.line t]
  | .evaluated lines => lines.map .line
  | .dropped lines => lines.map .line ++ [.interrupt]

/-- Whether an episode can happen in a session. A chunk is evaluated to an outcome after which the
loop does not wait. -/
def Valid (s : Session) : Episode → Prop
  | .skipped t => Text.trim t = []
  | .evaluated lines =>
    lines ≠ [] ∧ IsChunk s lines ∧ ¬ Waits s (text lines) ∧
      (s.eval (text lines)).failure ≠ some .quit
  | .dropped lines => lines ≠ [] ∧ IsPending s lines

/-- The session after an episode. -/
def next (s : Session) : Episode → Session
  | .evaluated lines => (s.eval (text lines)).session
  | _ => s

/-- What an episode prints. -/
def printed (s : Session) : Episode → Printed
  | .skipped _ => .nothing
  | .evaluated lines => ⟨(s.eval (text lines)).out, (s.eval (text lines)).report⟩
  | .dropped _ => ⟨[], [.plain "Press ctrl-c again to quit.\n"]⟩

end Episode

/-- Episodes one after the other, with the session they lead to and all that they print. -/
inductive History : Session → List Episode → Session → Printed → Prop
  | nil (s : Session) : History s [] s .nothing
  | cons {s final : Session} {episode : Episode} {episodes : List Episode} {printed : Printed} :
      episode.Valid s → History (episode.next s) episodes final printed →
      History s (episode :: episodes) final (episode.printed s ++ printed)

/-- What there is behind the last episode. -/
inductive Ending where
  /-- Lines that wait in the buffer; the loop goes on. -/
  | pending (lines : List Text)
  /-- A chunk that asked to end the loop. -/
  | quit (lines : List Text)
  /-- An interrupt on an empty buffer. -/
  | interrupted
  /-- The end of the input, with lines that had to wait. -/
  | ended (lines : List Text)

namespace Ending

/-- The events of an ending. -/
def events : Ending → List KeyEvent
  | .pending lines => lines.map .line
  | .quit lines => lines.map .line
  | .interrupted => [.interrupt]
  | .ended lines => lines.map .line ++ [.ended]

/-- Whether an ending can happen in a session. -/
def Valid (s : Session) : Ending → Prop
  | .pending lines => IsPending s lines
  | .quit lines =>
    lines ≠ [] ∧ IsChunk s lines ∧ (s.eval (text lines)).failure = some .quit
  | .interrupted => True
  | .ended lines => IsPending s lines

/-- Whether the loop ends. -/
def ends : Ending → Bool
  | .pending _ => false
  | _ => true

/-- The lines that are left in the buffer. -/
def waiting : Ending → List Text
  | .pending lines => lines
  | .ended lines => lines
  | _ => []

end Ending

/-! ## One event -/

section Step

variable {s : Session} {lines : List Text} (h : IsPending s lines)
include h

/-- A line is skipped, goes to the buffer, or completes a chunk that is evaluated. -/
theorem step_line (t : Text) :
    (IsPending s (lines ++ [t]) ∧
      step ⟨s, text lines⟩ (.line t) = ⟨⟨s, text (lines ++ [t])⟩, .nothing, false⟩) ∨
    (∃ episode : Episode, episode.Valid s ∧ episode.events = (lines ++ [t]).map .line ∧
      step ⟨s, text lines⟩ (.line t) =
        ⟨start (episode.next s), episode.printed s, false⟩) ∨
    (Ending.Valid s (.quit (lines ++ [t])) ∧
      step ⟨s, text lines⟩ (.line t) = ⟨start s, .nothing, true⟩) := by
  rw [step, isEmpty_text]
  by_cases hblank : lines = [] ∧ Text.trim t = []
  · obtain ⟨rfl, ht⟩ := hblank
    refine .inr (.inl ⟨.skipped t, ht, rfl, ?_⟩)
    rw [ht]
    rfl
  · have hne : lines ++ [t] ≠ [] := by simp
    have hchunk : IsChunk s (lines ++ [t]) := h.concat (by rwa [← not_and_or])
    have hguard : (lines.isEmpty && (Text.trim t).isEmpty) = false := by
      simpa using hblank
    rw [hguard, if_neg Bool.false_ne_true, ← text_concat]
    rcases runBuffer_cases s (text (lines ++ [t])) with
      ⟨hwaits, hrun⟩ | ⟨-, hquit, hrun⟩ | ⟨hfinal, hquit, hrun⟩
    · exact .inl ⟨⟨hchunk, fun _ => hwaits⟩, hrun⟩
    · exact .inr (.inr ⟨⟨hne, hchunk, hquit⟩, hrun⟩)
    · exact .inr (.inl ⟨.evaluated (lines ++ [t]), ⟨hne, hchunk, hfinal, hquit⟩, rfl, hrun⟩)

/-- All that an event can lead to, with some lines in the buffer: the event is a line that is added
to them, or it completes an episode, or it ends the loop. -/
theorem step_cases (e : KeyEvent) :
    (∃ more, IsPending s more ∧ more.map .line = lines.map .line ++ [e] ∧
      step ⟨s, text lines⟩ e = ⟨⟨s, text more⟩, .nothing, false⟩) ∨
    (∃ episode : Episode, episode.Valid s ∧ episode.events = lines.map .line ++ [e] ∧
      step ⟨s, text lines⟩ e = ⟨start (episode.next s), episode.printed s, false⟩) ∨
    (∃ ending : Ending, ending.Valid s ∧ ending.ends ∧ ending.events = lines.map .line ++ [e] ∧
      step ⟨s, text lines⟩ e = ⟨⟨s, text ending.waiting⟩, .nothing, true⟩) := by
  cases e with
  | line t =>
    have hmap : (lines ++ [t]).map KeyEvent.line = lines.map .line ++ [.line t] := by simp
    rw [← hmap]
    rcases step_line h t with ⟨hpending, hstep⟩ | hepisode | ⟨hquit, hstep⟩
    · exact .inl ⟨lines ++ [t], hpending, rfl, hstep⟩
    · exact .inr (.inl hepisode)
    · exact .inr (.inr ⟨.quit (lines ++ [t]), hquit, rfl, rfl, hstep⟩)
  | interrupt =>
    rw [step, isEmpty_text]
    cases lines with
    | nil => exact .inr (.inr ⟨.interrupted, trivial, rfl, rfl, rfl⟩)
    | cons t lines =>
      exact .inr (.inl ⟨.dropped (t :: lines), ⟨List.cons_ne_nil _ _, h⟩, rfl, rfl⟩)
  | ended => exact .inr (.inr ⟨.ended lines, h, rfl, rfl, rfl⟩)

end Step

/-! ## Runs -/

theorem runAll_cons_of_ends {l : Loop} {e : KeyEvent} {turn : Turn}
    (h : l.step e = turn) (hends : turn.ends) (es : List KeyEvent) :
    l.runAll (e :: es) = (turn.loop, turn.printed) := by
  rw [runAll, h]
  exact if_pos hends

theorem runAll_cons_of_not_ends {l : Loop} {e : KeyEvent} {turn : Turn}
    (h : l.step e = turn) (hends : turn.ends = false) (es : List KeyEvent) :
    l.runAll (e :: es) =
      ((turn.loop.runAll es).1, turn.printed ++ (turn.loop.runAll es).2) := by
  rw [runAll, h]
  exact if_neg (by rw [hends]; exact Bool.false_ne_true)

/-- A run with some lines in the buffer: together with these lines, its events are those of episodes
and of an ending, and further events are read from there or not at all. -/
theorem exists_episodes {s : Session} {lines : List Text} (h : IsPending s lines)
    (events : List KeyEvent) :
    ∃ (episodes : List Episode) (ending : Ending) (rest : List KeyEvent) (final : Session)
        (printed : Printed),
      lines.map .line ++ events = episodes.flatMap Episode.events ++ (ending.events ++ rest) ∧
      History s episodes final printed ∧ ending.Valid final ∧
      (ending.ends = false → rest = []) ∧
      ∀ more, runAll ⟨s, text lines⟩ (events ++ more) =
        if ending.ends then (⟨final, text ending.waiting⟩, printed)
        else ((runAll ⟨final, text ending.waiting⟩ more).1,
          printed ++ (runAll ⟨final, text ending.waiting⟩ more).2) := by
  -- The events so far that are in no episode are the lines that wait, which the induction varies.
  induction events generalizing s lines with
  | nil =>
    exact ⟨[], .pending lines, [], s, .nothing, by simp [Ending.events], .nil s, h, fun _ => rfl,
      fun more => rfl⟩
  | cons e events ih =>
    have hevents : lines.map KeyEvent.line ++ e :: events =
        (lines.map KeyEvent.line ++ [e]) ++ events := by simp
    rw [hevents]
    rcases step_cases h e with ⟨more, hmore, hmap, hstep⟩ | ⟨episode, hvalid, hepisode, hstep⟩ |
      ⟨ending, hvalid, hends, hending, hstep⟩
    · -- The line is added to those that wait, and all else is about the longer list of lines.
      obtain ⟨episodes, ending, rest, final, printed, hcut, hhistory, hending, hrest, hrun⟩ :=
        ih hmore
      rw [hmap] at hcut
      refine ⟨episodes, ending, rest, final, printed, hcut, hhistory, hending, hrest, fun es => ?_⟩
      rw [List.cons_append, runAll_cons_of_not_ends hstep rfl]
      exact hrun es
    · -- The episode is complete, and the buffer is empty behind it.
      obtain ⟨episodes, ending, rest, final, printed, hcut, hhistory, hending, hrest, hrun⟩ :=
        ih (isPending_nil (episode.next s))
      refine ⟨episode :: episodes, ending, rest, final, episode.printed s ++ printed, ?_,
        .cons hvalid hhistory, hending, hrest, fun es => ?_⟩
      · rw [← hepisode, List.flatMap_cons, List.append_assoc, ← hcut]
        rfl
      · have hnext : (start (episode.next s)).runAll (events ++ es) = _ := hrun es
        rw [List.cons_append, runAll_cons_of_not_ends hstep rfl, hnext]
        split
        · rfl
        · rw [Printed.append_assoc]
    · -- The loop has ended, and what follows is not read.
      refine ⟨[], ending, events, s, .nothing, ?_, .nil s, hvalid, fun hnot => ?_, fun es => ?_⟩
      · rw [hending]
        rfl
      · rw [hends] at hnot
        cases hnot
      · rw [List.cons_append, runAll_cons_of_ends hstep rfl, if_pos hends]

/-- The events of a run are those of episodes, followed by an ending. An episode is a blank line
that was skipped, a chunk that was evaluated to its final outcome, or a chunk that was dropped by an
interrupt; so every line that is not blank belongs to one chunk, which was evaluated or dropped or
is still pending. The buffer holds the lines that are pending, and while there are any, the session
is the one behind the last episode. A chunk that asks for it, an interrupt on an empty buffer and
the end of the input end the loop; otherwise further events are read from there. -/
theorem runAll_chunks (s : Session) (events : List KeyEvent) :
    ∃ (episodes : List Episode) (ending : Ending) (rest : List KeyEvent) (final : Session)
        (printed : Printed),
      events = episodes.flatMap Episode.events ++ (ending.events ++ rest) ∧
      History s episodes final printed ∧ ending.Valid final ∧
      (ending.ends = false → rest = []) ∧
      (start s).runAll events = (⟨final, text ending.waiting⟩, printed) ∧
      ∀ more, (start s).runAll (events ++ more) =
        if ending.ends then (⟨final, text ending.waiting⟩, printed)
        else ((runAll ⟨final, text ending.waiting⟩ more).1,
          printed ++ (runAll ⟨final, text ending.waiting⟩ more).2) := by
  obtain ⟨episodes, ending, rest, final, printed, hcut, hhistory, hending, hrest, hrun⟩ :=
    exists_episodes (isPending_nil s) events
  refine ⟨episodes, ending, rest, final, printed, hcut, hhistory, hending, hrest, ?_, hrun⟩
  have hnow : (start s).runAll (events ++ []) = _ := hrun []
  rw [List.append_nil] at hnow
  rw [hnow]
  split
  · rfl
  · rw [runAll, Printed.append_nothing]

/-- A sum on two lines, a command whose expression goes on, an expression that is dropped by an
interrupt, and one that is pending. -/
example :
    let _ : TreePrinter := ⟨Typed.render⟩
    let s : Session := ⟨.empty, .scalar, "<repl>", none⟩
    let events : List KeyEvent := [.line "", .line "(1 +", .line "2)", .line " :free (x",
      .line "3 *", .interrupt, .line "not", .line ""]
    let run := (start s).runAll events
    run.1.buffer = Text.ofString "not\n\n" ∧ run.2.out = Text.ofString "real\n" ∧
      run.2.err.map (· ⟨0, 0⟩) =
        [Text.ofString "EOF\n", Text.ofString "Press ctrl-c again to quit.\n"] := by
  decide +kernel

end Loop

end ExprTyping
