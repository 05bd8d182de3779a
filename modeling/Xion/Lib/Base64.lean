import Xion.Lib.Bytes

/-!
# Standard base64

The standard encoding of RFC 4648 with `=` padding, as Go's `base64.StdEncoding` writes and reads
it. `encode` turns each group of three bytes into four characters of the alphabet and pads the
last group; `decode` drops line breaks, as the Go decoder does, and reads groups of four
characters, accepting padding only in the last group. Bits that a padded group does not use are
ignored, as by the non-strict Go decoder.

`decode_encode` is the round trip: decoding an encoding gives the bytes back.
-/

namespace Base64

open Bytes

/-- The byte of a number below 256. -/
def byte (n : ℕ) : Byte := Fin.ofNat 256 n

/-- The character of a 6-bit value: `A`–`Z`, `a`–`z`, `0`–`9`, `+` and `/`. -/
def encodeChar (v : ℕ) : Byte :=
  if v < 26 then byte (v + 65)
  else if v < 52 then byte (v + 71)
  else if v < 62 then byte (v - 4)
  else if v = 62 then 43 else 47

/-- The 6-bit value of a character of the alphabet. -/
def decodeChar (c : Byte) : Option ℕ :=
  if 65 ≤ c.val ∧ c.val ≤ 90 then some (c.val - 65)
  else if 97 ≤ c.val ∧ c.val ≤ 122 then some (c.val - 71)
  else if 48 ≤ c.val ∧ c.val ≤ 57 then some (c.val + 4)
  else if c.val = 43 then some 62
  else if c.val = 47 then some 63
  else none

/-- `StdEncoding.EncodeToString`. -/
def encode : Bytes → Bytes
  | [] => []
  | [a] => [encodeChar (a.val / 4), encodeChar (a.val % 4 * 16), 61, 61]
  | [a, b] =>
    [encodeChar (a.val / 4), encodeChar (a.val % 4 * 16 + b.val / 16),
      encodeChar (b.val % 16 * 4), 61]
  | a :: b :: c :: rest =>
    [encodeChar (a.val / 4), encodeChar (a.val % 4 * 16 + b.val / 16),
      encodeChar (b.val % 16 * 4 + c.val / 64), encodeChar (c.val % 64)] ++ encode rest

/-- The bytes of a sequence of four-character groups; only the last may be padded. -/
def decodeGroups : Bytes → Option Bytes
  | [] => some []
  | c₁ :: c₂ :: c₃ :: c₄ :: rest => do
    let x₁ ← decodeChar c₁
    let x₂ ← decodeChar c₂
    if c₃ = 61 then
      if c₄ = 61 ∧ rest = [] then some [byte (x₁ * 4 + x₂ / 16)] else none
    else
      let x₃ ← decodeChar c₃
      if c₄ = 61 then
        if rest = [] then some [byte (x₁ * 4 + x₂ / 16), byte (x₂ % 16 * 16 + x₃ / 4)] else none
      else
        let x₄ ← decodeChar c₄
        let tail ← decodeGroups rest
        some ([byte (x₁ * 4 + x₂ / 16), byte (x₂ % 16 * 16 + x₃ / 4), byte (x₃ % 4 * 64 + x₄)] ++
          tail)
  | _ => none

/-- `StdEncoding.DecodeString`: line breaks (`\n`, `\r`) are skipped wherever they stand. -/
def decode (s : Bytes) : Option Bytes := decodeGroups (s.filter fun c => c ≠ 10 ∧ c ≠ 13)

/-! ## The round trip -/

theorem byte_val {n : ℕ} (hn : n < 256) : (byte n).val = n := Nat.mod_eq_of_lt hn

theorem decodeChar_encodeChar {v : ℕ} (hv : v < 64) : decodeChar (encodeChar v) = some v := by
  unfold encodeChar
  split_ifs with h₁ h₂ h₃ h₄
  · rw [decodeChar, byte_val (by omega), if_pos (by omega), Nat.add_sub_cancel]
  · rw [decodeChar, byte_val (by omega), if_neg (by omega), if_pos (by omega), Nat.add_sub_cancel]
  · rw [decodeChar, byte_val (by omega), if_neg (by omega), if_neg (by omega), if_pos (by omega)]
    congr 1
    omega
  · subst h₄
    rfl
  · have : v = 63 := by omega
    subst this
    rfl

/-- No character of the alphabet is `=` or a line break. -/
theorem encodeChar_ne {v : ℕ} (hv : v < 64) :
    encodeChar v ≠ 61 ∧ encodeChar v ≠ 10 ∧ encodeChar v ≠ 13 := by
  have h := decodeChar_encodeChar hv
  refine ⟨fun he => ?_, fun he => ?_, fun he => ?_⟩ <;> rw [he] at h <;> cases h

theorem mem_encode {b : Bytes} {c : Byte} (hc : c ∈ encode b) : c ≠ 10 ∧ c ≠ 13 := by
  induction b using encode.induct with
  | case1 => simp [encode] at hc
  | case2 a =>
    simp only [encode, List.mem_cons, List.not_mem_nil, or_false] at hc
    rcases hc with rfl | rfl | rfl | rfl
    · exact (encodeChar_ne (by omega)).2
    · exact (encodeChar_ne (by omega)).2
    · decide
    · decide
  | case3 a b =>
    simp only [encode, List.mem_cons, List.not_mem_nil, or_false] at hc
    rcases hc with rfl | rfl | rfl | rfl
    · exact (encodeChar_ne (by omega)).2
    · exact (encodeChar_ne (by omega)).2
    · exact (encodeChar_ne (by omega)).2
    · decide
  | case4 a b c rest ih =>
    simp only [encode, List.cons_append, List.mem_cons] at hc
    rcases hc with rfl | rfl | rfl | rfl | hc
    · exact (encodeChar_ne (by omega)).2
    · exact (encodeChar_ne (by omega)).2
    · exact (encodeChar_ne (by omega)).2
    · exact (encodeChar_ne (by omega)).2
    · exact ih hc

/-- The three bytes of a full group are read back from its four characters. -/
theorem byte_group (a b c : Byte) :
    byte (a.val / 4 * 4 + (a.val % 4 * 16 + b.val / 16) / 16) = a ∧
      byte ((a.val % 4 * 16 + b.val / 16) % 16 * 16 + (b.val % 16 * 4 + c.val / 64) / 4) = b ∧
      byte ((b.val % 16 * 4 + c.val / 64) % 4 * 64 + c.val % 64) = c := by
  have ha := a.isLt
  have hb := b.isLt
  have hc := c.isLt
  refine ⟨Fin.ext ?_, Fin.ext ?_, Fin.ext ?_⟩ <;> rw [byte_val (by omega)] <;> omega

theorem decodeGroups_encode (b : Bytes) : decodeGroups (encode b) = some b := by
  induction b using encode.induct with
  | case1 => rfl
  | case2 a =>
    have ha := a.isLt
    simp only [encode, decodeGroups, decodeChar_encodeChar (show a.val / 4 < 64 by omega),
      decodeChar_encodeChar (show a.val % 4 * 16 < 64 by omega), Option.bind_eq_bind,
      Option.bind_some, if_true, and_self]
    congr
    exact Fin.ext (by rw [byte_val (by omega)]; omega)
  | case3 a b =>
    have ha := a.isLt
    have hb := b.isLt
    simp only [encode, decodeGroups, decodeChar_encodeChar (show a.val / 4 < 64 by omega),
      decodeChar_encodeChar (show a.val % 4 * 16 + b.val / 16 < 64 by omega),
      decodeChar_encodeChar (show b.val % 16 * 4 < 64 by omega), Option.bind_eq_bind,
      Option.bind_some, (encodeChar_ne (show b.val % 16 * 4 < 64 by omega)).1, if_false,
      if_true]
    obtain ⟨h₁, h₂, -⟩ := byte_group a b 0
    simp only [Fin.val_zero, Nat.zero_div, Nat.add_zero] at h₁ h₂
    rw [h₁, h₂]
  | case4 a b c rest ih =>
    have ha := a.isLt
    have hb := b.isLt
    have hc := c.isLt
    simp only [encode, List.cons_append, decodeGroups,
      decodeChar_encodeChar (show a.val / 4 < 64 by omega),
      decodeChar_encodeChar (show a.val % 4 * 16 + b.val / 16 < 64 by omega),
      decodeChar_encodeChar (show b.val % 16 * 4 + c.val / 64 < 64 by omega),
      decodeChar_encodeChar (show c.val % 64 < 64 by omega), Option.bind_eq_bind,
      Option.bind_some, (encodeChar_ne (show b.val % 16 * 4 + c.val / 64 < 64 by omega)).1,
      (encodeChar_ne (show c.val % 64 < 64 by omega)).1, if_false, List.nil_append, ih]
    obtain ⟨h₁, h₂, h₃⟩ := byte_group a b c
    rw [h₁, h₂, h₃]

/-- Decoding an encoding gives the bytes back. -/
theorem decode_encode (b : Bytes) : decode (encode b) = some b := by
  rw [decode, List.filter_eq_self.2 fun c hc => by simpa using mem_encode hc]
  exact decodeGroups_encode b

end Base64
