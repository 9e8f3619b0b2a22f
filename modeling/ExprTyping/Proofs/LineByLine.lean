import ExprTyping.Proofs.FailurePlaces
import ExprTyping.Token.Lookahead

/-!
# Reading line by line

The scanner carries a position along and never looks at it. So a source that is read from a later
line on gives the same items further down, and, since every word and every comment ends in front of
a line break, a source can be read line by line.

- `Lookahead.readings`: what reading on and on gives, faults included, up to the end;
- `Cursor.scan_down`: one item, read from a later line on;
- `Text.count_ofBytes`: decoding keeps the line breaks;
- `Lookahead.readings_down` and `Lookahead.readings_extend`: all readings from a later line on, and
  those of a source that goes on behind a line break;
- `Lookahead.readings_newline`: the readings of a source are those of its parts.
-/

namespace ExprTyping

/-! ## All readings -/

namespace Lookahead

/-- How much is left: glyphs, and tokens that were looked at. -/
def size (l : Lookahead) : Nat :=
  l.cursor.rest.length + l.peeked.length

theorem next_of_scan {c behind : Cursor} {i : Item} (h : c.scan = (some i, behind)) :
    next ⟨c, []⟩ = (.item i, ⟨behind, []⟩) := by
  simp only [next, h]

theorem next_of_none {c behind : Cursor} (h : c.scan = (none, behind)) :
    next ⟨c, []⟩ = (.finished behind.pos, ⟨behind, []⟩) := by
  simp only [next, h]

/-- Reading an item leaves less to read. -/
theorem size_next_lt {l behind : Lookahead} {i : Item} (h : l.next = (.item i, behind)) :
    behind.size < l.size := by
  obtain ⟨c, _ | ⟨t, ts⟩⟩ := l
  · rcases hscan : c.scan with ⟨_ | j, d⟩
    · rw [next_of_none hscan] at h
      cases h
    · rw [next_of_scan hscan] at h
      cases h
      exact Cursor.length_scan_lt hscan
  · cases h
    exact Nat.lt_succ_self _

/-- What reading on and on gives, up to the end and with it. -/
def readings (l : Lookahead) : List Reading :=
  match _h : l.next with
  | (.item i, behind) => .item i :: behind.readings
  | (.finished p, _) => [.finished p]
termination_by l.size
decreasing_by exact size_next_lt _h

theorem readings_of_scan {c behind : Cursor} {i : Item} (h : c.scan = (some i, behind)) :
    readings ⟨c, []⟩ = .item i :: readings ⟨behind, []⟩ := by
  rw [readings]
  split
  · next hnext =>
    rw [next_of_scan h] at hnext
    cases hnext
    rfl
  · next hnext =>
    rw [next_of_scan h] at hnext
    cases hnext

theorem readings_of_none {c behind : Cursor} (h : c.scan = (none, behind)) :
    readings ⟨c, []⟩ = [.finished behind.pos] := by
  rw [readings]
  split
  · next hnext =>
    rw [next_of_none h] at hnext
    cases hnext
  · next hnext =>
    rw [next_of_none h] at hnext
    cases hnext
    rfl

/-- Only the next item and what is behind it matter. -/
theorem readings_congr {c d : Cursor} (h : c.scan = d.scan) :
    readings ⟨c, []⟩ = readings ⟨d, []⟩ := by
  rcases hscan : d.scan with ⟨_ | i, behind⟩
  · rw [readings_of_none hscan, readings_of_none (h.trans hscan)]
  · rw [readings_of_scan hscan, readings_of_scan (h.trans hscan)]

theorem readings_ne_nil (l : Lookahead) : l.readings ≠ [] := by
  rw [readings]
  split <;> exact List.cons_ne_nil _ _

end Lookahead

/-! ## Reading further down -/

/-- The position some lines further down. -/
def Pos.down (k : Nat) (p : Pos) : Pos :=
  ⟨p.line + k, p.column⟩

/-- The item some lines further down. -/
def Item.down (k : Nat) : Item → Item
  | .token t => .token ⟨t.tok, t.pos.down k⟩
  | .fault f => .fault ⟨f.error, f.pos.down k⟩

/-- The reading some lines further down. -/
def Reading.down (k : Nat) : Reading → Reading
  | .item i => .item (i.down k)
  | .finished p => .finished (p.down k)

namespace Pos

variable (k : Nat) (p : Pos)

theorem advance_down (g : Glyph) : (p.down k).advance g = (p.advance g).down k := by
  unfold advance down
  split
  · exact congrArg (Pos.mk · 0) (Int.add_right_comm _ _ _)
  · rfl

theorem after_down (t : Text) : (p.down k).after t = (p.after t).down k := by
  induction t generalizing p with
  | nil => rfl
  | cons g t ih =>
    show ((p.down k).advance g).after t = ((p.advance g).after t).down k
    rw [advance_down, ih]

end Pos

namespace Cursor

/-- The cursor some lines further down, in front of the same text. -/
def down (k : Nat) (c : Cursor) : Cursor :=
  ⟨c.rest, c.pos.down k⟩

section Down

variable (k : Nat) (c : Cursor)

@[simp] theorem rest_down : (c.down k).rest = c.rest := rfl

@[simp] theorem pos_down : (c.down k).pos = c.pos.down k := rfl

theorem takeRun_down (q : Glyph → Bool) :
    (c.down k).takeRun q = ((c.takeRun q).1, (c.takeRun q).2.down k) := by
  simp only [takeRun, rest_down, pos_down, Pos.after_down]
  rfl

theorem drop1_down : (c.down k).drop1 = c.drop1.down k := by
  obtain ⟨_ | ⟨g, t⟩, p⟩ := c
  · rfl
  · exact congrArg (Cursor.mk t) (Pos.advance_down k p g)

theorem scanMantissa_down (first : Char) :
    scanMantissa first (c.down k) =
      ((scanMantissa first c).1, (scanMantissa first c).2.down k) := by
  unfold scanMantissa
  simp only [takeRun_down, drop1_down, rest_down]
  split_ifs <;> rfl

theorem scanSign_down : scanSign (c.down k) = ((scanSign c).1, (scanSign c).2.down k) := by
  unfold scanSign
  simp only [drop1_down, rest_down]
  split_ifs <;> rfl

theorem scanExponent_down :
    scanExponent (c.down k) = ((scanExponent c).1, (scanExponent c).2.down k) := by
  unfold scanExponent
  simp only [takeRun_down, drop1_down, scanSign_down, rest_down]
  split_ifs <;> rfl

theorem scanNumber_down (first : Char) :
    scanNumber first (c.down k) =
      ((scanNumber first c).1.down k, (scanNumber first c).2.down k) := by
  simp only [scanNumber, scanMantissa_down, scanExponent_down]
  split <;> rfl

theorem scanName_down (first : Char) :
    scanName first (c.down k) = ((scanName first c).1.down k, (scanName first c).2.down k) := by
  simp only [scanName, takeRun_down]
  rfl

theorem scanWord_down (first : Char) :
    scanWord first (c.down k) = ((scanWord first c).1.down k, (scanWord first c).2.down k) := by
  unfold scanWord
  rw [rest_down, scanNumber_down, scanName_down]
  split
  · rw [pos_down, Pos.advance_down]
    rfl
  · split
    · rfl
    · split_ifs <;> rfl

theorem skip_down (inComment : Bool) (t : Text) (p : Pos) :
    skip inComment t (p.down k) = (skip inComment t p).down k := by
  induction t generalizing inComment p with
  | nil => rfl
  | cons g t ih =>
    simp only [skip, Pos.advance_down, ih]
    split_ifs <;> rfl

/-- An item is read further down as it is here. -/
theorem scan_down :
    (c.down k).scan = (c.scan.1.map (Item.down k), c.scan.2.down k) := by
  have hskip : (c.down k).skipBlanks = c.skipBlanks.down k := skip_down k false c.rest c.pos
  rcases hrest : c.skipBlanks with ⟨_ | ⟨g, t⟩, p⟩
  · rw [hrest] at hskip
    rw [scan_of_skipBlanks_nil hrest, scan_of_skipBlanks_nil hskip]
    rfl
  · rw [hrest] at hskip
    have hword := scanWord_down k ⟨t, p.advance g⟩ g.toChar
    rw [scan_of_skipBlanks_cons hrest, scan_of_skipBlanks_cons hskip, Pos.advance_down]
    exact congrArg (fun r : Item × Cursor => (some r.1, r.2)) hword

end Down

/-- Where nothing is left to read, the whole source has been read. -/
theorem IsIn.pos_of_scan_none {source : Text} {c behind : Cursor} (h : c.IsIn source)
    (hscan : c.scan = (none, behind)) : behind.pos = Pos.start.after source := by
  rcases hskip : c.skipBlanks with ⟨_ | ⟨g, t⟩, p⟩
  · rw [scan_of_skipBlanks_nil hskip] at hscan
    cases hscan
    have hin : IsIn source ⟨[], p⟩ := hskip ▸ IsIn.skip h false
    obtain ⟨front, hsource, hpos⟩ := hin
    rw [hsource, List.append_nil]
    exact hpos
  · rw [scan_of_skipBlanks_cons hskip] at hscan
    cases hscan

end Cursor

/-! ## Line breaks -/

/-- Decoding keeps the line breaks. -/
theorem Text.count_ofBytes (bytes : List UInt8) :
    (ofBytes bytes).count (.char '\n') = bytes.count newline := by
  by_cases h : newline ∈ bytes
  · -- The bytes on either side of a line break decode on their own.
    obtain ⟨front, back, rfl⟩ := List.append_of_mem h
    have hfront := count_ofBytes front
    have hback := count_ofBytes back
    rw [ofBytes_newline, List.count_append, List.count_append, List.count_cons_self,
      List.count_cons_self, hfront, hback]
  · have hle := count_ofBytes_le bytes
    have hzero := List.count_eq_zero_of_not_mem h
    omega
termination_by bytes.length
decreasing_by all_goals grind

/-- A line break behind a source leads to the start of a line. -/
theorem Pos.advance_newline_after (source : List UInt8) :
    (start.after (Text.ofBytes source)).advance (.char '\n') =
      start.down (1 + source.count Text.newline) := by
  have hline := line_after start (Text.ofBytes source)
  rw [Text.count_ofBytes] at hline
  show (⟨_ + 1, 0⟩ : Pos) = ⟨_, 0⟩
  rw [hline]
  exact congrArg (Pos.mk · 0) (by push_cast; omega)

namespace Lookahead

/-- Reading from a later line on gives the same readings further down. -/
theorem readings_down (k : Nat) (c : Cursor) :
    readings ⟨c.down k, []⟩ = (readings ⟨c, []⟩).map (Reading.down k) := by
  fun_induction Cursor.scanAll c with
  | case1 c behind hscan =>
    have hdown := Cursor.scan_down k c
    rw [hscan] at hdown
    rw [readings_of_none hscan, readings_of_none hdown]
    rfl
  | case2 c item behind hscan items final hfinal ih =>
    have hdown := Cursor.scan_down k c
    rw [hscan] at hdown
    rw [readings_of_scan hscan, readings_of_scan hdown, ih]
    rfl

/-- A source that goes on behind a line break gives the readings in front of it, as if the source
ended there, but without their end, and then those of the rest. -/
theorem readings_extend {source : Text} {c : Cursor} (h : c.IsIn source) (behind : Text) :
    readings ⟨c.extend behind, []⟩ = (readings ⟨c, []⟩).dropLast ++
      readings ⟨⟨behind, (Pos.start.after source).advance (.char '\n')⟩, []⟩ := by
  fun_induction Cursor.scanAll c with
  | case1 c c₁ hscan =>
    have hextend := Cursor.scan_extend_none hscan behind
    rw [h.pos_of_scan_none hscan] at hextend
    rw [readings_of_none hscan, List.dropLast_singleton, List.nil_append, readings_congr hextend]
  | case2 c item c₁ hscan items final hfinal ih =>
    rw [readings_of_scan hscan, readings_of_scan (Cursor.scan_extend_some hscan behind),
      ih (h.scan hscan).2, List.dropLast_cons_of_ne_nil (readings_ne_nil _), List.cons_append]

/-- Reading is compositional at line breaks, whatever the bytes on either side are. The readings of
a source with a line break in it are those of the part in front of it without their end, and then
those of the part behind it, as many lines further down as have ended there. -/
theorem readings_newline (source rest : List UInt8) :
    readings (.ofText (.ofBytes (source ++ Text.newline :: rest))) =
      (readings (.ofText (.ofBytes source))).dropLast ++
        (readings (.ofText (.ofBytes rest))).map (.down (1 + source.count Text.newline)) := by
  rw [Text.ofBytes_newline]
  have hextend := readings_extend (Cursor.isIn_ofText (.ofBytes source)) (.ofBytes rest)
  rw [Pos.advance_newline_after] at hextend
  have hdown := readings_down (1 + source.count Text.newline) (.ofText (.ofBytes rest))
  exact hextend.trans (congrArg (_ ++ ·) hdown)

end Lookahead

end ExprTyping
