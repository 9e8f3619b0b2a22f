import ExprTyping.Text.Basic

/-!
# Decoding undoes encoding

The bytes of characters, in UTF-8, decode to these characters and to nothing else. So a source that
is well-formed UTF-8 is a text without stray bytes, and facts about such texts are facts about the
byte strings that encode them.

- `leading_utf8EncodeChar`: the bytes of a character are recognised whatever follows them;
- `ofBytes_encode`: the bytes of a list of characters decode to that list.
-/

namespace ExprTyping.Text

/-! ## Bytes -/

theorem between_iff {lo hi b : UInt8} :
    between lo hi b ↔ lo.toNat ≤ b.toNat ∧ b.toNat ≤ hi.toNat := by
  simp [between, UInt8.le_iff_toNat_le]

theorem between_eq_false {lo hi b : UInt8} (h : b.toNat < lo.toNat ∨ hi.toNat < b.toNat) :
    between lo hi b = false := by
  rw [Bool.eq_false_iff, ne_eq, between_iff]
  omega

theorem toNat_ofNat {n : Nat} (h : n < 256) : (UInt8.ofNat n).toNat = n := by
  rw [UInt8.toNat_ofNat', Nat.mod_eq_of_lt h]

/-- A byte that continues a character. -/
theorem continues_ofNat {n : Nat} (h : n < 64) : continues (UInt8.ofNat (n + 128)) := by
  have hn : (UInt8.ofNat (n + 128)).toNat = n + 128 := toNat_ofNat (by omega)
  rw [continues, between_iff, hn]
  exact ⟨Nat.le_add_left 128 n, by change n + 128 ≤ 191; omega⟩

theorem payload_ofNat {n : Nat} (h : n < 64) : payload (UInt8.ofNat (n + 128)) = n := by
  have hn : (UInt8.ofNat (n + 128)).toNat = n + 128 := toNat_ofNat (by omega)
  rw [payload, hn]
  omega

/-! ## Characters -/

section Leading

variable {b c d e : UInt8}

theorem not_lt_of_le_toNat (h : 128 ≤ b.toNat) : ¬ b < 0x80 := by
  rw [UInt8.lt_iff_toNat_lt, Nat.not_lt]
  exact h

theorem isPair_eq_false (h : 0xDF < b.toNat) (c : UInt8) : isPair b c = false := by
  have hnot : between 0xC2 0xDF b = false := between_eq_false (.inr h)
  rw [isPair, hnot, Bool.false_and]

theorem isTriple_eq_false (h : 0xEF < b.toNat) (c d : UInt8) : isTriple b c d = false := by
  have hne (k : UInt8) (hk : k.toNat ≤ 0xEF) : (b == k) = false := by
    rw [beq_eq_false_iff_ne]
    rintro rfl
    omega
  have hnot : between 0xE1 0xEF b = false := between_eq_false (.inr h)
  rw [isTriple, hne 0xE0 (by decide), hne 0xED (by decide), hnot]
  rfl

theorem leading_pair (hb : 128 ≤ b.toNat) (h : isPair b c) (rest : List UInt8) :
    leading b (c :: rest) = some (Char.ofNat (b.toNat % 0x20 * 0x40 + payload c), 1) := by
  unfold leading
  rw [if_neg (not_lt_of_le_toNat hb)]
  match rest with
  | [] => simp [h]
  | [d] => simp [h]
  | d :: e :: rest => simp [h]

theorem leading_triple (hb : 0xDF < b.toNat) (h : isTriple b c d) (rest : List UInt8) :
    leading b (c :: d :: rest) =
      some (Char.ofNat ((b.toNat % 0x10 * 0x40 + payload c) * 0x40 + payload d), 2) := by
  unfold leading
  rw [if_neg (not_lt_of_le_toNat (by omega))]
  match rest with
  | [] => simp [isPair_eq_false hb, h]
  | e :: rest => simp [isPair_eq_false hb, h]

theorem leading_quad (hb : 0xEF < b.toNat) (h : isQuad b c d e) (rest : List UInt8) :
    leading b (c :: d :: e :: rest) = some (Char.ofNat
      (((b.toNat % 0x08 * 0x40 + payload c) * 0x40 + payload d) * 0x40 + payload e), 3) := by
  unfold leading
  rw [if_neg (not_lt_of_le_toNat (by omega))]
  simp [isPair_eq_false (Nat.lt_trans (by decide) hb), isTriple_eq_false hb, h]

end Leading

/-! ## Encodings

The bounds on the code point `v` keep its bytes out of the overlong forms, the surrogates and what
is above U+10FFFF. -/

section Encode

variable {v : Nat}

theorem beq_ofNat_iff {n : Nat} (h : n < 256) (k : UInt8) :
    (UInt8.ofNat n == k) ↔ n = k.toNat := by
  rw [beq_iff_eq, ← UInt8.toNat_inj, toNat_ofNat h]

theorem isPair_encode (hlow : 127 < v) (hhigh : v ≤ 2047) :
    isPair (UInt8.ofNat (v / 64 % 32 + 192)) (UInt8.ofNat (v % 64 + 128)) := by
  rw [isPair, continues_ofNat (Nat.mod_lt _ (by decide)), Bool.and_true, between_iff,
    toNat_ofNat (by omega)]
  change 194 ≤ _ ∧ _ ≤ 223
  omega

theorem isTriple_encode (hlow : 2047 < v) (hhigh : v ≤ 65535)
    (hvalid : v < 0xD800 ∨ 0xDFFF < v) :
    isTriple (UInt8.ofNat (v / 4096 % 16 + 224)) (UInt8.ofNat (v / 64 % 64 + 128))
      (UInt8.ofNat (v % 64 + 128)) := by
  have hmid : (UInt8.ofNat (v / 64 % 64 + 128)).toNat = v / 64 % 64 + 128 := toNat_ofNat (by omega)
  rw [isTriple, continues_ofNat (Nat.mod_lt _ (by decide)),
    continues_ofNat (Nat.mod_lt _ (by decide)), Bool.and_true, Bool.and_true]
  simp only [beq_ofNat_iff (show v / 4096 % 16 + 224 < 256 by omega)]
  split
  · next hE0 =>
    change _ = 224 at hE0
    rw [between_iff, hmid]
    change 160 ≤ _ ∧ _ ≤ 191
    omega
  · next hE0 =>
    change ¬ _ = 224 at hE0
    split
    · next hED =>
      change _ = 237 at hED
      rw [between_iff, hmid]
      change 128 ≤ _ ∧ _ ≤ 159
      omega
    · rw [between_iff, toNat_ofNat (by omega)]
      change 225 ≤ _ ∧ _ ≤ 239
      omega

theorem isQuad_encode (hlow : 65535 < v) (hhigh : v < 0x110000) :
    isQuad (UInt8.ofNat (v / 262144 % 8 + 240)) (UInt8.ofNat (v / 4096 % 64 + 128))
      (UInt8.ofNat (v / 64 % 64 + 128)) (UInt8.ofNat (v % 64 + 128)) := by
  have hmid : (UInt8.ofNat (v / 4096 % 64 + 128)).toNat = v / 4096 % 64 + 128 :=
    toNat_ofNat (by omega)
  rw [isQuad, continues_ofNat (Nat.mod_lt _ (by decide)),
    continues_ofNat (Nat.mod_lt _ (by decide)), continues_ofNat (Nat.mod_lt _ (by decide)),
    Bool.and_true, Bool.and_true, Bool.and_true]
  simp only [beq_ofNat_iff (show v / 262144 % 8 + 240 < 256 by omega)]
  split
  · next hF0 =>
    change _ = 240 at hF0
    rw [between_iff, hmid]
    change 144 ≤ _ ∧ _ ≤ 191
    omega
  · next hF0 =>
    change ¬ _ = 240 at hF0
    split
    · next hF4 =>
      change _ = 244 at hF4
      rw [between_iff, hmid]
      change 128 ≤ _ ∧ _ ≤ 143
      omega
    · next hF4 =>
      change ¬ _ = 244 at hF4
      rw [between_iff, toNat_ofNat (by omega)]
      change 241 ≤ _ ∧ _ ≤ 243
      omega

theorem leading_encode_single (hhigh : v ≤ 127) (rest : List UInt8) :
    leading (UInt8.ofNat v) rest = some (Char.ofNat v, 0) := by
  have hb : (UInt8.ofNat v).toNat = v := toNat_ofNat (by omega)
  have hlt : UInt8.ofNat v < 0x80 := by
    rw [UInt8.lt_iff_toNat_lt, hb]
    exact Nat.lt_succ_of_le hhigh
  unfold leading
  rw [if_pos hlt, hb]

theorem leading_encode_pair (hlow : 127 < v) (hhigh : v ≤ 2047) (rest : List UInt8) :
    leading (UInt8.ofNat (v / 64 % 32 + 192)) (UInt8.ofNat (v % 64 + 128) :: rest) =
      some (Char.ofNat v, 1) := by
  have hb : (UInt8.ofNat (v / 64 % 32 + 192)).toNat = v / 64 % 32 + 192 := toNat_ofNat (by omega)
  have hvalue : (v / 64 % 32 + 192) % 0x20 * 0x40 + v % 64 = v := by omega
  rw [leading_pair (by omega) (isPair_encode hlow hhigh), hb,
    payload_ofNat (Nat.mod_lt _ (by decide)), hvalue]

theorem leading_encode_triple (hlow : 2047 < v) (hhigh : v ≤ 65535)
    (hvalid : v < 0xD800 ∨ 0xDFFF < v) (rest : List UInt8) :
    leading (UInt8.ofNat (v / 4096 % 16 + 224))
      (UInt8.ofNat (v / 64 % 64 + 128) :: UInt8.ofNat (v % 64 + 128) :: rest) =
        some (Char.ofNat v, 2) := by
  have hb : (UInt8.ofNat (v / 4096 % 16 + 224)).toNat = v / 4096 % 16 + 224 :=
    toNat_ofNat (by omega)
  have hvalue : ((v / 4096 % 16 + 224) % 0x10 * 0x40 + v / 64 % 64) * 0x40 + v % 64 = v := by
    omega
  rw [leading_triple (by omega) (isTriple_encode hlow hhigh hvalid), hb,
    payload_ofNat (Nat.mod_lt _ (by decide)), payload_ofNat (Nat.mod_lt _ (by decide)), hvalue]

theorem leading_encode_quad (hlow : 65535 < v) (hhigh : v < 0x110000) (rest : List UInt8) :
    leading (UInt8.ofNat (v / 262144 % 8 + 240)) (UInt8.ofNat (v / 4096 % 64 + 128) ::
      UInt8.ofNat (v / 64 % 64 + 128) :: UInt8.ofNat (v % 64 + 128) :: rest) =
        some (Char.ofNat v, 3) := by
  have hb : (UInt8.ofNat (v / 262144 % 8 + 240)).toNat = v / 262144 % 8 + 240 :=
    toNat_ofNat (by omega)
  have hvalue : (((v / 262144 % 8 + 240) % 0x08 * 0x40 + v / 4096 % 64) * 0x40 + v / 64 % 64) *
      0x40 + v % 64 = v := by
    omega
  rw [leading_quad (by omega) (isQuad_encode hlow hhigh), hb,
    payload_ofNat (Nat.mod_lt _ (by decide)), payload_ofNat (Nat.mod_lt _ (by decide)),
    payload_ofNat (Nat.mod_lt _ (by decide)), hvalue]

end Encode

/-- The bytes of a character are recognised as this character, whatever follows them. -/
theorem leading_utf8EncodeChar (c : Char) (rest : List UInt8) :
    ∃ b tail, String.utf8EncodeChar c = b :: tail ∧
      leading b (tail ++ rest) = some (c, tail.length) := by
  have hvalid : c.toNat < 0xD800 ∨ 0xDFFF < c.toNat ∧ c.toNat < 0x110000 := c.valid
  have hchar : Char.ofNat c.toNat = c := Char.ofNat_toNat c
  have hval : c.val.toNat = c.toNat := rfl
  unfold String.utf8EncodeChar
  rw [hval]
  generalize c.toNat = v at hvalid hchar
  rw [← hchar]
  dsimp only
  -- One case for each length of the encoding.
  by_cases h₁ : v ≤ 127
  · rw [if_pos h₁]
    exact ⟨_, [], rfl, leading_encode_single h₁ rest⟩
  rw [if_neg h₁]
  by_cases h₂ : v ≤ 2047
  · rw [if_pos h₂]
    exact ⟨_, [_], rfl, leading_encode_pair (Nat.lt_of_not_le h₁) h₂ rest⟩
  rw [if_neg h₂]
  by_cases h₃ : v ≤ 65535
  · -- The surrogates have three bytes too, but are no characters.
    rw [if_pos h₃]
    refine ⟨_, [_, _], rfl, ?_⟩
    exact leading_encode_triple (Nat.lt_of_not_le h₂) h₃ (hvalid.imp_right And.left) rest
  · rw [if_neg h₃]
    exact ⟨_, [_, _, _], rfl, leading_encode_quad (Nat.lt_of_not_le h₃) (by omega) rest⟩

/-! ## Texts -/

theorem decodeFrom_length (tail rest : List UInt8) :
    decodeFrom tail.length (tail ++ rest) = decodeFrom 0 rest := by
  induction tail with
  | nil => rfl
  | cons b tail ih => exact ih

/-- The bytes of characters decode to these characters, whatever follows them. -/
theorem ofBytes_encode_append (cs : List Char) (rest : List UInt8) :
    ofBytes (cs.flatMap String.utf8EncodeChar ++ rest) = ofChars cs ++ ofBytes rest := by
  unfold ofBytes
  induction cs with
  | nil => rfl
  | cons c cs ih =>
    obtain ⟨b, tail, hencode, hleading⟩ :=
      leading_utf8EncodeChar c (cs.flatMap String.utf8EncodeChar ++ rest)
    rw [List.flatMap_cons, List.append_assoc, hencode, List.cons_append, decodeFrom, hleading]
    dsimp only
    rw [decodeFrom_length, ih]
    rfl

/-- The bytes of characters decode to these characters. -/
theorem ofBytes_encode (cs : List Char) :
    ofBytes (cs.flatMap String.utf8EncodeChar) = ofChars cs := by
  have happend := ofBytes_encode_append cs []
  rwa [List.append_nil, show ofBytes [] = [] from rfl, List.append_nil] at happend

end ExprTyping.Text
