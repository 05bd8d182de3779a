import Mathlib.Data.List.DropRight
import Mathlib.Algebra.Order.Group.Nat
import Mathlib.Tactic.Ring

/-!
# Byte strings and their integer encodings

A byte string is a list of bytes, and a byte is a `Fin 256`, so that byte strings are ordered
as `bytes.Compare` orders them (the lexicographic order of `List`). `toNatLE` reads a string as
a little-endian number; `ofNatLE w n` writes the `w` low bytes of `n` little-endian, and
`ofNatBE` is its reversal, the fixed-width big-endian encoding. `minBytesBE` is the shortest
big-endian encoding, the one with no leading zero byte.

The round trips are `ofNatLE_toNatLE` and `toNatLE_ofNatLE`; `ofNatLE_add` says that a wider
encoding pads with zero bytes. `trimZeros` drops trailing zero bytes, and its lemmas say how it
meets concatenation, which is how the trimming of a concatenation of padded chunks is computed.
`chunks k n l` cuts `l` into `n` pieces of `k` elements, and a list of `n` pieces' length comes
back whole from them (`flatten_chunks`). `parseDecimal` reads a signed decimal numeral, and
`parseInt` a signed numeral in any base up to 36, as Go's `big.Int.SetString` does. `slice` is
Go's slice expression, with its panic as `none`.
-/

/-- A byte. -/
abbrev Byte := Fin 256

/-- A byte string. -/
abbrev Bytes := List Byte

/-! Byte literals and the membership tests on bytes and byte strings name these instances, so
that every definition refers to one proof of each rather than to a copy of its own. -/

instance Byte.instNeZero : NeZero (256 : ℕ) := ⟨by decide⟩

instance Byte.instLawfulBEq : LawfulBEq Byte := inferInstance

instance Bytes.instLawfulBEq : LawfulBEq Bytes := inferInstance

namespace Bytes

/-- The number whose little-endian encoding is `l`. -/
def toNatLE : Bytes → ℕ
  | [] => 0
  | b :: bs => b.val + 256 * toNatLE bs

/-- The `w` low bytes of `n`, least significant first. -/
def ofNatLE : ℕ → ℕ → Bytes
  | 0, _ => []
  | w + 1, n => ⟨n % 256, Nat.mod_lt _ (by decide)⟩ :: ofNatLE w (n / 256)

/-- The `w` low bytes of `n`, most significant first. -/
def ofNatBE (w n : ℕ) : Bytes := (ofNatLE w n).reverse

/-- The bytes of `n` least significant first, stopping at the last non-zero byte; `fuel` bounds
the number of bytes. -/
def minBytesLE : ℕ → ℕ → Bytes
  | 0, _ => []
  | fuel + 1, n =>
    if n = 0 then [] else ⟨n % 256, Nat.mod_lt _ (by decide)⟩ :: minBytesLE fuel (n / 256)

/-- The shortest big-endian encoding of `n`: empty for zero, and otherwise without leading zero
bytes. -/
def minBytesBE (n : ℕ) : Bytes := (minBytesLE n n).reverse

/-- `l` without its trailing zero bytes. -/
def trimZeros (l : Bytes) : Bytes := l.rdropWhile (· == 0)

theorem ofNatLE_succ (w n : ℕ) :
    ofNatLE (w + 1) n = ⟨n % 256, Nat.mod_lt _ (by decide)⟩ :: ofNatLE w (n / 256) := rfl

theorem trimZeros_def (l : Bytes) : trimZeros l = l.rdropWhile (· == 0) := rfl

@[simp]
theorem toNatLE_nil : toNatLE [] = 0 := rfl

@[simp]
theorem toNatLE_cons (b : Byte) (bs : Bytes) : toNatLE (b :: bs) = b.val + 256 * toNatLE bs := rfl

@[simp]
theorem length_ofNatLE (w n : ℕ) : (ofNatLE w n).length = w := by
  induction w generalizing n with
  | zero => rfl
  | succ w ih => simp [ofNatLE_succ, ih]

@[simp]
theorem length_ofNatBE (w n : ℕ) : (ofNatBE w n).length = w := by
  simp [ofNatBE]

/-- A string of `w` bytes reads as a number below `256 ^ w`. -/
theorem toNatLE_lt (l : Bytes) : toNatLE l < 256 ^ l.length := by
  induction l with
  | nil => simp
  | cons b bs ih =>
    have hb := b.isLt
    simp only [toNatLE_cons, List.length_cons, pow_succ]
    omega

/-- Writing back the number a string reads as, at the string's width, gives the string. -/
theorem ofNatLE_toNatLE (l : Bytes) : ofNatLE l.length (toNatLE l) = l := by
  induction l with
  | nil => rfl
  | cons b bs ih =>
    have hb := b.isLt
    have hmod : (b.val + 256 * toNatLE bs) % 256 = b.val := by omega
    have hdiv : (b.val + 256 * toNatLE bs) / 256 = toNatLE bs := by omega
    simp only [List.length_cons, ofNatLE_succ, toNatLE_cons, hmod, hdiv, ih]

/-- The encoding of zero is all zero bytes. -/
theorem ofNatLE_zero (w : ℕ) : ofNatLE w 0 = List.replicate w 0 := by
  induction w with
  | zero => rfl
  | succ w ih => simp only [ofNatLE_succ, Nat.zero_mod, Nat.zero_div, ih, List.replicate_succ]; rfl

/-- A number below `256 ^ w` encoded at a greater width is its `w`-byte encoding padded with zero
bytes. -/
theorem ofNatLE_add {w n : ℕ} (hn : n < 256 ^ w) (k : ℕ) :
    ofNatLE (w + k) n = ofNatLE w n ++ List.replicate k 0 := by
  induction w generalizing n with
  | zero =>
    have : n = 0 := by simpa using hn
    subst this
    simp [ofNatLE_zero]
  | succ w ih =>
    have hdiv : n / 256 < 256 ^ w := by
      rw [pow_succ] at hn
      omega
    rw [show w + 1 + k = (w + k) + 1 by omega]
    simp only [ofNatLE_succ, ih hdiv, List.cons_append]

/-- The encoding of a string read as a number, at a greater width, pads the string with zeros. -/
theorem ofNatLE_toNatLE_pad (l : Bytes) {w : ℕ} (hw : l.length ≤ w) :
    ofNatLE w (toNatLE l) = l ++ List.replicate (w - l.length) 0 := by
  obtain ⟨k, rfl⟩ := Nat.exists_eq_add_of_le hw
  rw [ofNatLE_add (toNatLE_lt l), ofNatLE_toNatLE]
  simp

/-! ## Trailing zero bytes -/

@[simp]
theorem trimZeros_nil : trimZeros [] = [] := rfl

/-- Trailing zero bytes appended to a string are trimmed with the string's own. -/
theorem trimZeros_append_replicate (l : Bytes) (k : ℕ) :
    trimZeros (l ++ List.replicate k 0) = trimZeros l := by
  induction k with
  | zero => simp
  | succ k ih =>
    rw [List.replicate_succ', ← List.append_assoc, trimZeros_def,
      List.rdropWhile_concat_pos _ _ _ (by simp)]
    exact ih

/-- A string that does not end in a zero byte is its own trimming. -/
theorem trimZeros_eq_self {l : Bytes} (h : l.getLast? ≠ some 0) : trimZeros l = l := by
  rw [trimZeros_def, List.rdropWhile_eq_self_iff]
  intro hl hlast
  apply h
  rw [List.getLast?_eq_some_getLast hl]
  simpa using hlast

/-- Trimming a concatenation whose second part does not trim to nothing trims only the second
part. -/
theorem trimZeros_append_of_ne_nil (a : Bytes) {b : Bytes} (hb : trimZeros b ≠ []) :
    trimZeros (a ++ b) = a ++ trimZeros b := by
  induction b using List.reverseRecOn with
  | nil => simp at hb
  | append_singleton b x ih =>
    simp only [trimZeros_def] at hb ih ⊢
    rw [← List.append_assoc]
    by_cases hx : x = 0
    · -- A trailing zero is trimmed on both sides, and what is left still ends in a non-zero.
      subst hx
      have hpos : ((0 : Byte) == 0) = true := rfl
      rw [List.rdropWhile_concat_pos (fun x : Byte => x == 0) _ _ hpos] at hb ⊢
      rw [List.rdropWhile_concat_pos (fun x : Byte => x == 0) _ _ hpos]
      exact ih hb
    · have hneg : ¬((x == 0) = true) := by simpa using hx
      rw [List.rdropWhile_concat_neg (fun x : Byte => x == 0) _ _ hneg,
        List.rdropWhile_concat_neg (fun x : Byte => x == 0) _ _ hneg, List.append_assoc]

/-- A string trims to nothing exactly when all its bytes are zero. -/
theorem trimZeros_eq_nil_iff (l : Bytes) : trimZeros l = [] ↔ ∀ x ∈ l, x = 0 := by
  simp [trimZeros_def]

/-- Trimming a concatenation whose second part is all zeros trims the first part. -/
theorem trimZeros_append_of_eq_nil (a : Bytes) {b : Bytes} (hb : trimZeros b = []) :
    trimZeros (a ++ b) = trimZeros a := by
  have hrep : b = List.replicate b.length 0 :=
    List.eq_replicate_iff.2 ⟨rfl, (trimZeros_eq_nil_iff b).1 hb⟩
  rw [hrep, trimZeros_append_replicate]

/-! ## Bit length -/

/-- The number of bits of `n`, stopping after `fuel` of them. -/
def bitLenAux : ℕ → ℕ → ℕ
  | 0, _ => 0
  | fuel + 1, n => if n = 0 then 0 else bitLenAux fuel (n / 2) + 1

/-- The number of bits of `n`: zero for zero, and otherwise the position of its highest one bit
plus one (Go's `big.Int.BitLen`). -/
def bitLen (n : ℕ) : ℕ := bitLenAux n n

theorem bitLenAux_le_iff : ∀ {fuel n m : ℕ}, n ≤ fuel → (bitLenAux fuel n ≤ m ↔ n < 2 ^ m)
  | 0, n, m, hn => by
    have : n = 0 := by omega
    subst this
    simp [bitLenAux]
  | fuel + 1, n, m, hn => by
    by_cases h0 : n = 0
    · subst h0
      simp [bitLenAux]
    · rw [bitLenAux, if_neg h0]
      cases m with
      | zero => simp; omega
      | succ m =>
        rw [Nat.add_le_add_iff_right, bitLenAux_le_iff (by omega), pow_succ]
        omega

/-- A number has at most `m` bits exactly when it is below `2 ^ m`. -/
theorem bitLen_le_iff {n m : ℕ} : bitLen n ≤ m ↔ n < 2 ^ m :=
  bitLenAux_le_iff le_rfl

/-! ## Fixed-size chunks -/

/-- The first `n` chunks of `k` elements of `l`; chunks past the end of `l` are empty. -/
def chunks {α : Type*} (k : ℕ) : ℕ → List α → List (List α)
  | 0, _ => []
  | n + 1, l => l.take k :: chunks k n (l.drop k)

@[simp]
theorem chunks_zero {α : Type*} (k : ℕ) (l : List α) : chunks k 0 l = [] := rfl

@[simp]
theorem chunks_succ {α : Type*} (k n : ℕ) (l : List α) :
    chunks k (n + 1) l = l.take k :: chunks k n (l.drop k) := rfl

/-- A list of exactly `n` chunks' length comes back whole from its chunks. -/
theorem flatten_chunks {α : Type*} (k : ℕ) :
    ∀ (n : ℕ) (l : List α), l.length = k * n → (chunks k n l).flatten = l
  | 0, l, h => by
    rw [Nat.mul_zero, List.length_eq_zero_iff] at h
    rw [h, chunks_zero, List.flatten_nil]
  | n + 1, l, h => by
    have hrest : (l.drop k).length = k * n := by
      rw [List.length_drop, h, Nat.mul_succ]
      omega
    rw [chunks_succ, List.flatten_cons, flatten_chunks k n (l.drop k) hrest, List.take_append_drop]

/-- Pieces of `k` elements each, concatenated and cut into as many chunks of `k`, come back as
they were. -/
theorem chunks_flatten {α : Type*} (k : ℕ) :
    ∀ cs : List (List α), (∀ c ∈ cs, c.length = k) → chunks k cs.length cs.flatten = cs
  | [], _ => rfl
  | c :: cs, h => by
    have hc : c.length = k := h c List.mem_cons_self
    rw [List.length_cons, chunks_succ, List.flatten_cons, List.take_left' hc,
      List.drop_left' hc, chunks_flatten k cs fun c' hc' => h c' (List.mem_cons_of_mem c hc')]

/-- Pieces of `k` elements each make a list of `k` times as many elements. -/
theorem length_flatten_of_length {α : Type*} {k : ℕ} :
    ∀ cs : List (List α), (∀ c ∈ cs, c.length = k) → cs.flatten.length = k * cs.length
  | [], _ => rfl
  | c :: cs, h => by
    rw [List.flatten_cons, List.length_append, h c List.mem_cons_self,
      length_flatten_of_length cs fun c' hc' => h c' (List.mem_cons_of_mem c hc'),
      List.length_cons, Nat.mul_succ, Nat.add_comm]

/-- Each of the first `n` chunks of a list of at least `n` chunks' length is full. -/
theorem length_of_mem_chunks {α : Type*} (k : ℕ) :
    ∀ (n : ℕ) (l : List α), k * n ≤ l.length → ∀ c ∈ chunks k n l, c.length = k
  | 0, _, _, c, hc => by
    rw [chunks_zero] at hc
    exact absurd hc List.not_mem_nil
  | n + 1, l, h, c, hc => by
    rw [Nat.mul_succ] at h
    rw [chunks_succ, List.mem_cons] at hc
    rcases hc with rfl | hc
    · rw [List.length_take]
      omega
    · exact length_of_mem_chunks k n (l.drop k) (by rw [List.length_drop]; omega) c hc

/-! ## Text -/

/-- The bytes of an ASCII string. -/
def ofAscii (s : String) : Bytes := s.toList.map fun c => Fin.ofNat 256 c.toNat

/-- The decimal text of `n`, as Go's `big.Int.String` writes it. -/
def decimal (n : ℕ) : Bytes := (Nat.toDigits 10 n).map fun c => Fin.ofNat 256 c.toNat

/-- The value of the decimal digits `l` read after digits of value `acc`; `none` when a byte of
`l` is not an ASCII digit. -/
def decimalValue (acc : ℕ) : Bytes → Option ℕ
  | [] => some acc
  | d :: ds => if 48 ≤ d.val ∧ d.val ≤ 57 then decimalValue (10 * acc + (d.val - 48)) ds else none

/-- The value of a non-empty string of ASCII decimal digits. -/
def digitsValue (l : Bytes) : Option ℕ := if l = [] then none else decimalValue 0 l

/-- A decimal integer with an optional sign, as Go's `big.Int.SetString(s, 10)` reads it: a `+`
or `-` (bytes 43 and 45), then at least one digit and nothing else. -/
def parseDecimal : Bytes → Option ℤ
  | [] => none
  | c :: ds =>
    if c = 45 then (digitsValue ds).map fun v => -(v : ℤ)
    else if c = 43 then (digitsValue ds).map fun v => (v : ℤ)
    else (digitsValue (c :: ds)).map fun v => (v : ℤ)

/-- The value of a byte as a digit in base `base`, as Go's `math/big` scanner reads it for a base
of at most 36: 0 to 9 for the ASCII digits, 10 to 35 for the letters of either case, and none when
that value is not below the base or the byte is neither. -/
def digitValue (base : ℕ) (d : Byte) : Option ℕ :=
  let v :=
    if 48 ≤ d.val ∧ d.val ≤ 57 then d.val - 48
    else if 97 ≤ d.val ∧ d.val ≤ 122 then d.val - 97 + 10
    else if 65 ≤ d.val ∧ d.val ≤ 90 then d.val - 65 + 10
    else 63
  if v < base then some v else none

/-- The value of the digits `l` in base `base` read after digits of value `acc`; `none` when a
byte of `l` is not a digit of the base. -/
def baseValue (base acc : ℕ) : Bytes → Option ℕ
  | [] => some acc
  | d :: ds =>
    match digitValue base d with
    | some v => baseValue base (base * acc + v) ds
    | none => none

/-- An integer in base `base` with an optional sign, as Go's `big.Int.SetString(s, base)` reads it
for a base from 2 to 36: a `+` or `-`, then at least one digit of the base and nothing else; no
base prefix and no underscore. -/
def parseInt (base : ℕ) : Bytes → Option ℤ
  | [] => none
  | c :: ds =>
    if c = 45 then (if ds = [] then none else (baseValue base 0 ds).map fun v => -(v : ℤ))
    else if c = 43 then (if ds = [] then none else (baseValue base 0 ds).map fun v => (v : ℤ))
    else (baseValue base 0 (c :: ds)).map fun v => (v : ℤ)

/-! ## Slice expressions -/

/-- Go's slice expression `s[lo:hi]` on a slice whose capacity is its length: the bytes from `lo`
to `hi`, and `none` where Go panics, for `hi` below `lo` or past the end. -/
def slice (s : Bytes) (lo hi : ℕ) : Option Bytes :=
  if lo ≤ hi ∧ hi ≤ s.length then some ((s.drop lo).take (hi - lo)) else none

/-- The slice between the end of `pre` and the end of `mid` is `mid`. -/
theorem slice_append {pre mid post : Bytes} {lo hi : ℕ} (hlo : pre.length = lo)
    (hhi : lo + mid.length = hi) : slice (pre ++ mid ++ post) lo hi = some mid := by
  subst hlo hhi
  rw [slice, if_pos ⟨by omega, by simp⟩, List.append_assoc, List.drop_left,
    Nat.add_sub_cancel_left, List.take_left]

end Bytes
