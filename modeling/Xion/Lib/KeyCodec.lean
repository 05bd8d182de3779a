import Xion.Lib.Bytes
import Mathlib.Data.List.Lex
import Mathlib.Order.Fin.Basic

/-!
# Key encodings of the `collections` store library

A store of the `collections` library keeps its entries under byte keys, and a typed key is
written with a key codec. A component written last is in *terminal* form, its raw bytes; one
followed by another component is in *non-terminal* form, which must let a reader find where it
ends. A string in non-terminal form is followed by a `0x00` delimiter, so a string containing
`0x00` cannot be encoded and the store operation fails; a byte key in non-terminal form is
preceded by a byte holding its length, so one over 255 bytes cannot be encoded. A pair key is its
first component in non-terminal form followed by its second; a triple key has its first two in
non-terminal form.

Decoding inverts encoding (`decodeBytesNonTerminal_append`, `decodeTripleKey_tripleKey`), and
what decodes was encoded (`eq_append_of_decodeBytesNonTerminal`, `tripleKey_of_decodeTripleKey`),
so an encoding determines its key. `writeNonTerminal` is an encoder writing into a buffer of fixed
size, as Go's encoders write into a slice: the components are written one after another, and a
write past the end panics; a write that succeeds wrote the whole encoding
(`encodeParts_of_writeNonTerminal`). A non-terminal key is its terminal form followed by more
bytes, so it is ordered strictly after it (`lt_append_of_ne_nil`).
-/

namespace KeyCodec

open Bytes

/-! ## Strings -/

/-- `StringKey.EncodeNonTerminal`: the bytes and a `0x00` delimiter, an error for a string that
contains the delimiter. -/
def stringNonTerminal (s : Bytes) : Option Bytes :=
  if 0 ∈ s then none else some (s ++ [0])

/-- `PairKeyCodec.Encode` of two strings: the first in non-terminal and the second in terminal
form. -/
def stringPair (k₁ k₂ : Bytes) : Option Bytes :=
  (stringNonTerminal k₁).map (· ++ k₂)

@[simp]
theorem stringNonTerminal_isSome {s : Bytes} : (stringNonTerminal s).isSome ↔ 0 ∉ s := by
  unfold stringNonTerminal
  split_ifs with h <;> simp [h]

/-- A pair of strings can be encoded exactly when its first string has no `0x00`. -/
@[simp]
theorem stringPair_isSome {k₁ k₂ : Bytes} : (stringPair k₁ k₂).isSome ↔ 0 ∉ k₁ := by
  simp [stringPair]

theorem stringNonTerminal_eq_some {s e : Bytes} :
    stringNonTerminal s = some e ↔ 0 ∉ s ∧ e = s ++ [0] := by
  unfold stringNonTerminal
  split_ifs with h <;> simp [h, eq_comm]

/-! ## Byte keys -/

/-- `BytesKey.EncodeNonTerminal`, which the SDK's address keys use: a byte holding the length,
then the bytes; more than 255 bytes cannot be encoded. -/
def bytesNonTerminal (b : Bytes) : Option Bytes :=
  if h : b.length < 256 then some (⟨b.length, h⟩ :: b) else none

/-- `BytesKey.DecodeNonTerminal`: the bytes that the first byte counts, and the rest of the
buffer; an error for an empty buffer or one shorter than its count. -/
def decodeBytesNonTerminal : Bytes → Option (Bytes × Bytes)
  | [] => none
  | n :: rest => if n.val ≤ rest.length then some (rest.take n.val, rest.drop n.val) else none

theorem bytesNonTerminal_eq_some {b e : Bytes} :
    bytesNonTerminal b = some e ↔ ∃ h : b.length < 256, e = ⟨b.length, h⟩ :: b := by
  unfold bytesNonTerminal
  split_ifs with h <;> simp [h, eq_comm]

@[simp]
theorem bytesNonTerminal_isSome {b : Bytes} : (bytesNonTerminal b).isSome ↔ b.length < 256 := by
  unfold bytesNonTerminal
  split_ifs with h <;> simp [h]

theorem length_of_bytesNonTerminal {b e : Bytes} (h : bytesNonTerminal b = some e) :
    e.length = b.length + 1 := by
  obtain ⟨_, rfl⟩ := bytesNonTerminal_eq_some.1 h
  rfl

/-- Decoding an encoded byte key gives the key and what follows it. -/
theorem decodeBytesNonTerminal_append {b e : Bytes} (h : bytesNonTerminal b = some e)
    (rest : Bytes) : decodeBytesNonTerminal (e ++ rest) = some (b, rest) := by
  obtain ⟨_, rfl⟩ := bytesNonTerminal_eq_some.1 h
  simp [decodeBytesNonTerminal]

/-- What decodes as a byte key is its encoding followed by the rest. -/
theorem eq_append_of_decodeBytesNonTerminal {buf b rest : Bytes}
    (h : decodeBytesNonTerminal buf = some (b, rest)) :
    ∃ e, bytesNonTerminal b = some e ∧ buf = e ++ rest := by
  match buf, h with
  | n :: bs, h =>
    simp only [decodeBytesNonTerminal] at h
    split_ifs at h with hn
    obtain ⟨rfl, rfl⟩ := Option.some.inj h
    have hlen : (bs.take n.val).length = n.val := List.length_take_of_le hn
    refine ⟨n :: bs.take n.val, bytesNonTerminal_eq_some.2 ⟨by rw [hlen]; exact n.isLt, ?_⟩, ?_⟩
    · simp only [List.cons.injEq, and_true]
      exact Fin.ext hlen.symm
    · simp

/-- A byte key is determined by its encoding. -/
theorem bytesNonTerminal_inj {b b' e : Bytes} (h : bytesNonTerminal b = some e)
    (h' : bytesNonTerminal b' = some e) : b = b' := by
  obtain ⟨_, rfl⟩ := bytesNonTerminal_eq_some.1 h
  obtain ⟨_, heq⟩ := bytesNonTerminal_eq_some.1 h'
  exact (List.cons.inj heq).2

/-- An encoded byte key and its continuation are determined by the bytes. -/
theorem bytesNonTerminal_append_inj {b b' e e' rest rest' : Bytes} (h : bytesNonTerminal b = some e)
    (h' : bytesNonTerminal b' = some e') (heq : e ++ rest = e' ++ rest') :
    b = b' ∧ rest = rest' := by
  have hd := decodeBytesNonTerminal_append h rest
  rw [heq, decodeBytesNonTerminal_append h'] at hd
  obtain ⟨rfl, rfl⟩ := Prod.mk.inj (Option.some.inj hd)
  exact ⟨rfl, rfl⟩

/-! ## Pairs and triples of byte keys -/

/-- `PairKeyCodec.Encode` with a byte key first: the byte key in non-terminal form, then the
second component's terminal encoding `k₂`. -/
def pairKey (k₁ k₂ : Bytes) : Option Bytes :=
  (bytesNonTerminal k₁).map (· ++ k₂)

/-- `TripleKeyCodec.Encode` of two byte keys and a string: the byte keys in non-terminal form and
the string in terminal form. -/
def tripleKey (k₁ k₂ k₃ : Bytes) : Option Bytes := do
  let e₁ ← bytesNonTerminal k₁
  let e₂ ← bytesNonTerminal k₂
  pure (e₁ ++ e₂ ++ k₃)

/-- `TripleKeyCodec.Decode` of two byte keys and a string: the string is the rest of the buffer. -/
def decodeTripleKey (buf : Bytes) : Option (Bytes × Bytes × Bytes) := do
  let (k₁, rest) ← decodeBytesNonTerminal buf
  let (k₂, k₃) ← decodeBytesNonTerminal rest
  pure (k₁, k₂, k₃)

theorem pairKey_eq_some {k₁ k₂ e : Bytes} :
    pairKey k₁ k₂ = some e ↔ ∃ e₁, bytesNonTerminal k₁ = some e₁ ∧ e = e₁ ++ k₂ := by
  simp [pairKey, eq_comm]

theorem tripleKey_eq_some {k₁ k₂ k₃ t : Bytes} :
    tripleKey k₁ k₂ k₃ = some t ↔
      ∃ e₁ e₂, bytesNonTerminal k₁ = some e₁ ∧ bytesNonTerminal k₂ = some e₂ ∧
        t = e₁ ++ e₂ ++ k₃ := by
  simp only [tripleKey, Option.bind_eq_bind, Option.bind_eq_some_iff, Option.pure_def,
    Option.some.injEq]
  exact ⟨fun ⟨e₁, h₁, e₂, h₂, ht⟩ => ⟨e₁, e₂, h₁, h₂, ht.symm⟩,
    fun ⟨e₁, e₂, h₁, h₂, ht⟩ => ⟨e₁, h₁, e₂, h₂, ht.symm⟩⟩

/-- A pair key decodes to its first component and the second's encoding. -/
theorem decode_pairKey {k₁ k₂ e : Bytes} (h : pairKey k₁ k₂ = some e) :
    decodeBytesNonTerminal e = some (k₁, k₂) := by
  obtain ⟨e₁, h₁, rfl⟩ := pairKey_eq_some.1 h
  exact decodeBytesNonTerminal_append h₁ k₂

/-- Two pair keys are the same bytes only for the same components. -/
theorem pairKey_inj {k₁ k₂ k₁' k₂' e : Bytes} (h : pairKey k₁ k₂ = some e)
    (h' : pairKey k₁' k₂' = some e) : k₁ = k₁' ∧ k₂ = k₂' := by
  have hd := decode_pairKey h
  rw [decode_pairKey h'] at hd
  obtain ⟨rfl, rfl⟩ := Prod.mk.inj (Option.some.inj hd)
  exact ⟨rfl, rfl⟩

/-- Decoding an encoded triple gives the triple. -/
theorem decodeTripleKey_tripleKey {k₁ k₂ k₃ t : Bytes} (h : tripleKey k₁ k₂ k₃ = some t) :
    decodeTripleKey t = some (k₁, k₂, k₃) := by
  obtain ⟨e₁, e₂, h₁, h₂, rfl⟩ := tripleKey_eq_some.1 h
  simp [decodeTripleKey, List.append_assoc, decodeBytesNonTerminal_append h₁,
    decodeBytesNonTerminal_append h₂]

/-- What decodes as a triple is the triple's encoding. -/
theorem tripleKey_of_decodeTripleKey {k₁ k₂ k₃ t : Bytes}
    (h : decodeTripleKey t = some (k₁, k₂, k₃)) :
    tripleKey k₁ k₂ k₃ = some t := by
  simp only [decodeTripleKey, Option.bind_eq_bind, Option.bind_eq_some_iff, Option.pure_def,
    Option.some.injEq] at h
  obtain ⟨⟨a, rest⟩, h₁, ⟨b, c⟩, h₂, heq⟩ := h
  obtain ⟨rfl, rfl, rfl⟩ : a = k₁ ∧ b = k₂ ∧ c = k₃ := by simpa using heq
  obtain ⟨e₁, he₁, rfl⟩ := eq_append_of_decodeBytesNonTerminal h₁
  obtain ⟨e₂, he₂, rfl⟩ := eq_append_of_decodeBytesNonTerminal h₂
  exact tripleKey_eq_some.2 ⟨e₁, e₂, he₁, he₂, by rw [List.append_assoc]⟩

/-! ## Writing into a buffer of fixed size -/

/-- A key component written in non-terminal form. -/
inductive Part
  | bytes (b : Bytes)
  | string (s : Bytes)

/-- Why a non-terminal encoding failed. -/
inductive WriteError
  /-- A byte key over 255 bytes. -/
  | tooLong
  /-- A string containing the `0x00` delimiter. -/
  | delimiter
  /-- A write past the end of the buffer: Go's index-out-of-range panic. -/
  | outOfRange
  deriving DecidableEq, Repr

/-- The non-terminal encoding of one component. -/
def Part.nonTerminal : Part → Option Bytes
  | .bytes b => bytesNonTerminal b
  | .string s => stringNonTerminal s

/-- The components' non-terminal encodings one after another. -/
def encodeParts : List Part → Option Bytes
  | [] => some []
  | p :: ps => do
    let e ← p.nonTerminal
    let r ← encodeParts ps
    pure (e ++ r)

/-- The components' encoders run into a buffer of `room` bytes, each writing where the previous
one stopped, as a pair or triple codec's `EncodeNonTerminal` writes into a fixed slice. A byte
key's length byte needs room, and its bytes are cut where the buffer ends (Go's `copy`); a
string's delimiter needs room after the string. -/
def writeNonTerminal : ℕ → List Part → Except WriteError Bytes
  | _, [] => .ok []
  | room, .bytes b :: ps =>
    if h : b.length < 256 then
      if room = 0 then .error .outOfRange
      else
        let w := min b.length (room - 1)
        ((⟨b.length, h⟩ :: b.take w) ++ ·) <$> writeNonTerminal (room - 1 - w) ps
    else .error .tooLong
  | room, .string s :: ps =>
    if 0 ∈ s then .error .delimiter
    else if room ≤ s.length then .error .outOfRange
    else ((s ++ [0]) ++ ·) <$> writeNonTerminal (room - (s.length + 1)) ps

theorem map_eq_ok {ε α β : Type} {f : α → β} {x : Except ε α} {b : β} :
    f <$> x = .ok b ↔ ∃ a, x = .ok a ∧ f a = b := by
  cases x <;> simp [Functor.map, Except.map]

/-- A full buffer takes no further component. -/
theorem writeNonTerminal_zero_cons (p : Part) (ps : List Part) (out : Bytes) :
    writeNonTerminal 0 (p :: ps) ≠ .ok out := by
  cases p with
  | bytes b =>
    unfold writeNonTerminal
    split_ifs with h₁ h₂
    · simp
    · exact absurd rfl h₂
    · simp
  | string s =>
    unfold writeNonTerminal
    split_ifs with h₁ h₂
    · simp
    · simp
    · omega

/-- A write of components ending in a string that succeeds wrote every component whole: a byte
key cut short leaves no room, and the string after it fails. -/
theorem encodeParts_of_writeNonTerminal (s : Bytes) :
    ∀ (ps : List Part) (room : ℕ) (out : Bytes),
      writeNonTerminal room (ps ++ [.string s]) = .ok out →
        encodeParts (ps ++ [.string s]) = some out
  | [], room, out, h => by
    simp only [List.nil_append, writeNonTerminal] at h
    split_ifs at h with h₁ h₂
    obtain ⟨r, hr, rfl⟩ := map_eq_ok.1 h
    cases hr
    simp [encodeParts, Part.nonTerminal, stringNonTerminal, h₁]
  | .bytes b :: ps, room, out, h => by
    simp only [List.cons_append, writeNonTerminal] at h
    split_ifs at h with h₁ h₂
    obtain ⟨r, hr, rfl⟩ := map_eq_ok.1 h
    -- The whole key fits: had it been cut, the buffer would be full before the string.
    have hfit : b.length ≤ room - 1 := by
      by_contra hcut
      have hfull : room - 1 - min b.length (room - 1) = 0 := by omega
      rw [hfull] at hr
      cases hps : ps ++ [.string s] with
      | nil => simp at hps
      | cons p ps' => exact writeNonTerminal_zero_cons p ps' r (hps ▸ hr)
    have hrest := encodeParts_of_writeNonTerminal s ps _ r hr
    rw [min_eq_left hfit, List.take_of_length_le (Nat.le_refl _)]
    simp [encodeParts, Part.nonTerminal, bytesNonTerminal, h₁, hrest]
  | .string s' :: ps, room, out, h => by
    simp only [List.cons_append, writeNonTerminal] at h
    split_ifs at h with h₁ h₂
    obtain ⟨r, hr, rfl⟩ := map_eq_ok.1 h
    have hrest := encodeParts_of_writeNonTerminal s ps _ r hr
    simp [encodeParts, Part.nonTerminal, stringNonTerminal, h₁, hrest]

/-- Components ending in a string encode as the other components' encoding, the string and its
delimiter. -/
theorem encodeParts_append_string (s : Bytes) :
    ∀ (ps : List Part) {out : Bytes}, encodeParts (ps ++ [.string s]) = some out ↔
      ∃ e, encodeParts ps = some e ∧ 0 ∉ s ∧ out = e ++ s ++ [0]
  | [], out => by
    simp [encodeParts, Part.nonTerminal, stringNonTerminal_eq_some, eq_comm]
  | p :: ps, out => by
    simp only [List.cons_append, encodeParts, Option.bind_eq_bind, Option.bind_eq_some_iff,
      Option.pure_def, Option.some.injEq, encodeParts_append_string s ps]
    constructor
    · rintro ⟨a, ha, r, ⟨e, he, hs, rfl⟩, rfl⟩
      exact ⟨a ++ e, ⟨a, ha, e, he, rfl⟩, hs, by simp⟩
    · rintro ⟨_, ⟨a, ha, e, he, rfl⟩, hs, rfl⟩
      exact ⟨a, ha, e ++ s ++ [0], ⟨e, he, hs, rfl⟩, by simp⟩

/-- A write fits in its buffer. -/
theorem length_le_of_writeNonTerminal :
    ∀ (room : ℕ) (ps : List Part) {out : Bytes},
      writeNonTerminal room ps = .ok out → out.length ≤ room
  | _, [], out, h => by
    cases h
    exact Nat.zero_le _
  | room, .bytes b :: ps, out, h => by
    simp only [writeNonTerminal] at h
    split_ifs at h with h₁ h₂
    obtain ⟨r, hr, rfl⟩ := map_eq_ok.1 h
    have hrest := length_le_of_writeNonTerminal _ ps hr
    have htake := List.length_take_le (min b.length (room - 1)) b
    simp only [List.cons_append, List.length_cons, List.length_append]
    omega
  | room, .string s :: ps, out, h => by
    simp only [writeNonTerminal] at h
    split_ifs at h with h₁ h₂
    obtain ⟨r, hr, rfl⟩ := map_eq_ok.1 h
    have hrest := length_le_of_writeNonTerminal _ ps hr
    simp only [List.length_append, List.length_singleton]
    omega

/-! ## Order of encodings -/

/-- A key followed by more bytes is ordered after the key. -/
theorem lt_append_of_ne_nil {α : Type} [LinearOrder α] :
    ∀ (l : List α) {t : List α}, t ≠ [] → l < l ++ t
  | [], t, ht => by
    obtain ⟨a, t', rfl⟩ := List.exists_cons_of_ne_nil ht
    exact List.nil_lt_cons a t'
  | a :: l, t, ht => List.cons_lt_cons_iff.2 (.inr ⟨rfl, lt_append_of_ne_nil l ht⟩)

end KeyCodec
