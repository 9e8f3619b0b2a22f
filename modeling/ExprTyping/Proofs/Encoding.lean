import ExprTyping.Proofs.Decoding
import Mathlib.Tactic.SplitIfs

/-!
# Decoding loses nothing

A text has the bytes that it was decoded from, whether they are well-formed UTF-8 or not. So what is
left of a text, as reading goes on, stands for what is left of the byte string.

- `encode_of_leading`: a character is encoded by the bytes in which it was recognised;
- `toBytes_ofBytes`: the bytes of a decoded byte string are the byte string itself;
- `length_le_byteLength`: every glyph has a byte at least.
-/

namespace ExprTyping

theorem Glyph.length_toBytes_pos (g : Glyph) : 0 < g.toBytes.length := by
  cases g with
  | char c =>
    obtain ⟨b, tail, hencode, -⟩ := Text.leading_utf8EncodeChar c []
    rw [Glyph.toBytes, hencode]
    exact Nat.succ_pos _
  | stray b => exact Nat.one_pos

namespace Text

/-! ## Bytes of one character -/

section Bytes

variable {b c d e : UInt8} {v : Nat}

theorem val_ofNat (h : v < 0xD800 ∨ 0xDFFF < v ∧ v < 0x110000) :
    (Char.ofNat v).val.toNat = v := by
  have hvalid : v.isValidChar := h
  rw [Char.ofNat, dif_pos hvalid]
  rfl

theorem beq_iff_toNat_eq : (b == c) ↔ b.toNat = c.toNat := by
  rw [beq_iff_eq, UInt8.toNat_inj]

theorem ofNat_eq_byte {n : Nat} (h : n = b.toNat) : UInt8.ofNat n = b := by
  rw [h, UInt8.ofNat_toNat]

/-- The bounds that three bytes keep: no overlong form and no surrogate. -/
theorem isTriple_bounds (h : isTriple b c d) :
    (224 ≤ b.toNat ∧ b.toNat ≤ 239) ∧ (128 ≤ c.toNat ∧ c.toNat ≤ 191) ∧
      (128 ≤ d.toNat ∧ d.toNat ≤ 191) ∧ (b.toNat = 224 → 160 ≤ c.toNat) ∧
        (b.toNat = 237 → c.toNat ≤ 159) := by
  unfold isTriple continues at h
  rw [Bool.and_eq_true, between_iff] at h
  obtain ⟨h, hd⟩ := h
  change 128 ≤ _ ∧ _ ≤ 191 at hd
  split_ifs at h with hE0 hED
  · rw [beq_iff_toNat_eq] at hE0
    change _ = 224 at hE0
    rw [between_iff] at h
    change 160 ≤ _ ∧ _ ≤ 191 at h
    omega
  · rw [beq_iff_toNat_eq] at hED
    change _ = 237 at hED
    rw [between_iff] at h
    change 128 ≤ _ ∧ _ ≤ 159 at h
    omega
  · rw [beq_iff_toNat_eq] at hE0 hED
    change ¬ _ = 224 at hE0
    change ¬ _ = 237 at hED
    rw [Bool.and_eq_true, between_iff, between_iff] at h
    change (225 ≤ _ ∧ _ ≤ 239) ∧ 128 ≤ _ ∧ _ ≤ 191 at h
    omega

/-- The bounds that four bytes keep: no overlong form and nothing above U+10FFFF. -/
theorem isQuad_bounds (h : isQuad b c d e) :
    (240 ≤ b.toNat ∧ b.toNat ≤ 244) ∧ (128 ≤ c.toNat ∧ c.toNat ≤ 191) ∧
      (128 ≤ d.toNat ∧ d.toNat ≤ 191) ∧ (128 ≤ e.toNat ∧ e.toNat ≤ 191) ∧
        (b.toNat = 240 → 144 ≤ c.toNat) ∧ (b.toNat = 244 → c.toNat ≤ 143) := by
  unfold isQuad continues at h
  rw [Bool.and_eq_true, Bool.and_eq_true, between_iff, between_iff] at h
  obtain ⟨⟨h, hd⟩, he⟩ := h
  change 128 ≤ _ ∧ _ ≤ 191 at hd
  change 128 ≤ _ ∧ _ ≤ 191 at he
  split_ifs at h with hF0 hF4
  · rw [beq_iff_toNat_eq] at hF0
    change _ = 240 at hF0
    rw [between_iff] at h
    change 144 ≤ _ ∧ _ ≤ 191 at h
    omega
  · rw [beq_iff_toNat_eq] at hF4
    change _ = 244 at hF4
    rw [between_iff] at h
    change 128 ≤ _ ∧ _ ≤ 143 at h
    omega
  · rw [beq_iff_toNat_eq] at hF0 hF4
    change ¬ _ = 240 at hF0
    change ¬ _ = 244 at hF4
    rw [Bool.and_eq_true, between_iff, between_iff] at h
    change (241 ≤ _ ∧ _ ≤ 243) ∧ 128 ≤ _ ∧ _ ≤ 191 at h
    omega

theorem encode_single (h : b < 0x80) : String.utf8EncodeChar (Char.ofNat b.toNat) = [b] := by
  have hb : b.toNat < 128 := UInt8.lt_iff_toNat_lt.1 h
  have hval := val_ofNat (v := b.toNat) (by omega)
  unfold String.utf8EncodeChar
  rw [hval]
  dsimp only
  rw [if_pos (by omega), UInt8.ofNat_toNat]

theorem encode_pair (h : isPair b c) :
    String.utf8EncodeChar (Char.ofNat (b.toNat % 0x20 * 0x40 + payload c)) = [b, c] := by
  unfold isPair continues at h
  rw [Bool.and_eq_true, between_iff, between_iff] at h
  change (194 ≤ _ ∧ _ ≤ 223) ∧ 128 ≤ _ ∧ _ ≤ 191 at h
  have hval := val_ofNat (v := b.toNat % 0x20 * 0x40 + c.toNat % 0x40) (by omega)
  unfold String.utf8EncodeChar payload
  rw [hval]
  dsimp only
  rw [if_neg (by omega), if_pos (by omega), ofNat_eq_byte (b := b) (by omega),
    ofNat_eq_byte (b := c) (by omega)]

theorem encode_triple (h : isTriple b c d) :
    String.utf8EncodeChar (Char.ofNat ((b.toNat % 0x10 * 0x40 + payload c) * 0x40 + payload d)) =
      [b, c, d] := by
  obtain ⟨hb, hc, hd, hE0, hED⟩ := isTriple_bounds h
  have hval := val_ofNat
    (v := (b.toNat % 0x10 * 0x40 + c.toNat % 0x40) * 0x40 + d.toNat % 0x40) (by omega)
  unfold String.utf8EncodeChar payload
  rw [hval]
  dsimp only
  rw [if_neg (by omega), if_neg (by omega), if_pos (by omega), ofNat_eq_byte (b := b) (by omega),
    ofNat_eq_byte (b := c) (by omega), ofNat_eq_byte (b := d) (by omega)]

theorem encode_quad (h : isQuad b c d e) :
    String.utf8EncodeChar (Char.ofNat
      (((b.toNat % 0x08 * 0x40 + payload c) * 0x40 + payload d) * 0x40 + payload e)) =
        [b, c, d, e] := by
  obtain ⟨hb, hc, hd, he, hF0, hF4⟩ := isQuad_bounds h
  have hval := val_ofNat
    (v := ((b.toNat % 0x08 * 0x40 + c.toNat % 0x40) * 0x40 + d.toNat % 0x40) * 0x40 +
      e.toNat % 0x40) (by omega)
  unfold String.utf8EncodeChar payload
  rw [hval]
  dsimp only
  rw [if_neg (by omega), if_neg (by omega), if_neg (by omega), ofNat_eq_byte (b := b) (by omega),
    ofNat_eq_byte (b := c) (by omega), ofNat_eq_byte (b := d) (by omega),
    ofNat_eq_byte (b := e) (by omega)]

/-- A character that is recognised has the bytes in which it was recognised. -/
theorem encode_of_leading {rest : List UInt8} {x : Char} {k : Nat}
    (h : leading b rest = some (x, k)) :
    ∃ tail behind, rest = tail ++ behind ∧ tail.length = k ∧
      String.utf8EncodeChar x = b :: tail := by
  unfold leading at h
  split_ifs at h with hsingle
  · cases h
    exact ⟨[], rest, rfl, rfl, encode_single hsingle⟩
  · match rest with
    | [] => cases h
    | [c] =>
      dsimp only at h
      split_ifs at h with hpair
      cases h
      exact ⟨[c], [], rfl, rfl, encode_pair hpair⟩
    | [c, d] =>
      dsimp only at h
      split_ifs at h with hpair htriple
      · cases h
        exact ⟨[c], [d], rfl, rfl, encode_pair hpair⟩
      · cases h
        exact ⟨[c, d], [], rfl, rfl, encode_triple htriple⟩
    | c :: d :: e :: more =>
      dsimp only at h
      split_ifs at h with hpair htriple hquad
      · cases h
        exact ⟨[c], d :: e :: more, rfl, rfl, encode_pair hpair⟩
      · cases h
        exact ⟨[c, d], e :: more, rfl, rfl, encode_triple htriple⟩
      · cases h
        exact ⟨[c, d, e], more, rfl, rfl, encode_quad hquad⟩

end Bytes

/-! ## Texts -/

/-- The bytes of what a byte string decodes to are the byte string. -/
theorem toBytes_ofBytes (bytes : List UInt8) : toBytes (ofBytes bytes) = bytes := by
  match bytes with
  | [] => rfl
  | b :: rest =>
    unfold ofBytes decodeFrom
    cases hleading : leading b rest with
    | none =>
      have hrest := toBytes_ofBytes rest
      exact congrArg (b :: ·) hrest
    | some p =>
      obtain ⟨x, k⟩ := p
      obtain ⟨tail, behind, hsplit, rfl, hencode⟩ := encode_of_leading hleading
      have hrest := toBytes_ofBytes behind
      dsimp only
      rw [hsplit, decodeFrom_length]
      show String.utf8EncodeChar x ++ toBytes (ofBytes behind) = _
      rw [hrest, hencode, List.cons_append]
termination_by bytes.length
decreasing_by
  · exact Nat.lt_succ_self _
  · rw [hsplit, List.length_cons, List.length_append]
    omega

theorem toBytes_append (t u : Text) : toBytes (t ++ u) = toBytes t ++ toBytes u :=
  List.flatMap_append

/-- Every glyph has a byte at least. -/
theorem length_le_byteLength (t : Text) : t.length ≤ byteLength t := by
  induction t with
  | nil => exact Nat.le_refl 0
  | cons g t ih =>
    have hpos := g.length_toBytes_pos
    have hbytes : byteLength (g :: t) = g.toBytes.length + byteLength t := List.length_append
    rw [hbytes, List.length_cons]
    omega

end Text

end ExprTyping
