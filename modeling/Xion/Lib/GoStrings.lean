import Xion.Lib.Bytes

/-!
# Go's strings functions on byte strings

The functions of Go's `strings` package that a caller needs to check a header line, on a string
as the bytes Go stores: `TrimSpace`, `TrimRight` with a cutset of ASCII bytes, `Index` and
`Contains`, `Join`, and `ToLower`, `ToUpper` and `EqualFold` on ASCII letters.

`TrimSpace` drops the runes that `unicode.IsSpace` accepts from both ends. Besides the six ASCII
white space bytes these are U+0085 and U+00A0, of two bytes in UTF-8, and U+1680, U+2000 to
U+200A, U+2028, U+2029, U+202F, U+205F and U+3000, of three. A byte that does not start such a
rune stops the trimming: an invalid sequence decodes to `RuneError`, which is not white space. At
the end the last rune is recognised by its last bytes, as `utf8.DecodeLastRune` finds it; no
continuation byte of these runes can start another, so reading from either end splits a run of
white space the same way.

A string `w` with `trimLeftSpace w = []` is a run of white space. Such a run is dropped from
either end whatever stands next to it (`trimLeftSpace_append`, `trimRightSpace_append`), and
every string is its trimmed part with a run on each side (`exists_trimLeftSpace`,
`exists_trimRightSpace`). So trimming both ends and trimming the left end alone leave the same
first byte (`head?_trimSpace`).
-/

namespace GoStrings

open Bytes

/-! ## White space -/

/-- `asciiSpace`: tab, line feed, vertical tab, form feed, carriage return and space. -/
def isAsciiSpace (b : Byte) : Bool := decide (9 ≤ b.val ∧ b.val ≤ 13 ∨ b.val = 32)

/-- The UTF-8 encodings of U+0085 and U+00A0. -/
def isSpace2 (b c : Byte) : Bool := decide (b.val = 0xC2 ∧ (c.val = 0x85 ∨ c.val = 0xA0))

/-- The UTF-8 encodings of the white space runes of three bytes. -/
def isSpace3 (b c d : Byte) : Bool :=
  decide (b.val = 0xE1 ∧ c.val = 0x9A ∧ d.val = 0x80 ∨
    b.val = 0xE2 ∧ c.val = 0x80 ∧
      (0x80 ≤ d.val ∧ d.val ≤ 0x8A ∨ d.val = 0xA8 ∨ d.val = 0xA9 ∨ d.val = 0xAF) ∨
    b.val = 0xE2 ∧ c.val = 0x81 ∧ d.val = 0x9F ∨
    b.val = 0xE3 ∧ c.val = 0x80 ∧ d.val = 0x80)

/-- `TrimLeftFunc(s, unicode.IsSpace)`. -/
def trimLeftSpace : Bytes → Bytes
  | [] => []
  | b :: rest =>
    if isAsciiSpace b then trimLeftSpace rest
    else match rest with
      | c :: rest' =>
        if isSpace2 b c then trimLeftSpace rest'
        else match rest' with
          | d :: rest'' => if isSpace3 b c d then trimLeftSpace rest'' else b :: rest
          | [] => b :: rest
      | [] => b :: rest

/-- `trimLeftSpace` on a reversed string: the last byte of a rune comes first. -/
def trimLeftSpaceRev : Bytes → Bytes
  | [] => []
  | d :: rest =>
    if isAsciiSpace d then trimLeftSpaceRev rest
    else match rest with
      | c :: rest' =>
        if isSpace2 c d then trimLeftSpaceRev rest'
        else match rest' with
          | b :: rest'' => if isSpace3 b c d then trimLeftSpaceRev rest'' else d :: rest
          | [] => d :: rest
      | [] => d :: rest

/-- Whether `l` starts with a white space rune. -/
def startsWithSpace : Bytes → Bool
  | [] => false
  | [b] => isAsciiSpace b
  | [b, c] => isAsciiSpace b || isSpace2 b c
  | b :: c :: d :: _ => isAsciiSpace b || isSpace2 b c || isSpace3 b c d

/-- `TrimRightFunc(s, unicode.IsSpace)`. -/
def trimRightSpace (s : Bytes) : Bytes := (trimLeftSpaceRev s.reverse).reverse

/-- `TrimSpace`. -/
def trimSpace (s : Bytes) : Bytes := trimRightSpace (trimLeftSpace s)

/-! ## Other functions -/

/-- `TrimRight(s, cutset)` for a cutset of ASCII bytes. -/
def trimRight (s cutset : Bytes) : Bytes := s.rdropWhile fun b => decide (b ∈ cutset)

/-- `Index(s, sep)`: the first position at which `sep` starts, none for `-1`. -/
def index (s sep : Bytes) : Option ℕ :=
  if sep <+: s then some 0
  else match s with
    | [] => none
    | _ :: t => (index t sep).map (· + 1)

/-- `Contains`. -/
def contains (s substr : Bytes) : Bool := (index s substr).isSome

/-- An ASCII capital letter to lower case; other bytes are kept. -/
def lowerByte (b : Byte) : Byte := if 65 ≤ b.val ∧ b.val ≤ 90 then b + 32 else b

/-- An ASCII small letter to upper case; other bytes are kept. -/
def upperByte (b : Byte) : Byte := if 97 ≤ b.val ∧ b.val ≤ 122 then b - 32 else b

/-- `ToLower` on ASCII letters. -/
def toLower (s : Bytes) : Bytes := s.map lowerByte

/-- `ToUpper` on ASCII letters. -/
def toUpper (s : Bytes) : Bytes := s.map upperByte

/-- `EqualFold` on ASCII letters. -/
def equalFold (s t : Bytes) : Bool := decide (toLower s = toLower t)

/-- `Join(elems, sep)`. -/
def join (elems : List Bytes) (sep : Bytes) : Bytes := sep.intercalate elems

/-! ## Equations

Each definition is unfolded once, here; the proofs below rewrite with these equations. -/

theorem isAsciiSpace_def (b : Byte) :
    isAsciiSpace b = decide (9 ≤ b.val ∧ b.val ≤ 13 ∨ b.val = 32) := rfl

theorem isSpace2_def (b c : Byte) :
    isSpace2 b c = decide (b.val = 0xC2 ∧ (c.val = 0x85 ∨ c.val = 0xA0)) := rfl

theorem isSpace3_def (b c d : Byte) :
    isSpace3 b c d =
      decide (b.val = 0xE1 ∧ c.val = 0x9A ∧ d.val = 0x80 ∨
        b.val = 0xE2 ∧ c.val = 0x80 ∧
          (0x80 ≤ d.val ∧ d.val ≤ 0x8A ∨ d.val = 0xA8 ∨ d.val = 0xA9 ∨ d.val = 0xAF) ∨
        b.val = 0xE2 ∧ c.val = 0x81 ∧ d.val = 0x9F ∨
        b.val = 0xE3 ∧ c.val = 0x80 ∧ d.val = 0x80) := rfl

theorem trimLeftSpace_cons (b : Byte) (rest : Bytes) :
    trimLeftSpace (b :: rest) =
      if isAsciiSpace b then trimLeftSpace rest
      else match rest with
        | c :: rest' =>
          if isSpace2 b c then trimLeftSpace rest'
          else match rest' with
            | d :: rest'' => if isSpace3 b c d then trimLeftSpace rest'' else b :: rest
            | [] => b :: rest
        | [] => b :: rest := by
  rw [trimLeftSpace.eq_def]
  rfl

theorem trimLeftSpaceRev_cons (d : Byte) (rest : Bytes) :
    trimLeftSpaceRev (d :: rest) =
      if isAsciiSpace d then trimLeftSpaceRev rest
      else match rest with
        | c :: rest' =>
          if isSpace2 c d then trimLeftSpaceRev rest'
          else match rest' with
            | b :: rest'' => if isSpace3 b c d then trimLeftSpaceRev rest'' else d :: rest
            | [] => d :: rest
        | [] => d :: rest := by
  rw [trimLeftSpaceRev.eq_def]
  rfl

theorem startsWithSpace_singleton (b : Byte) : startsWithSpace [b] = isAsciiSpace b := rfl

theorem startsWithSpace_pair (b c : Byte) :
    startsWithSpace [b, c] = (isAsciiSpace b || isSpace2 b c) := rfl

theorem startsWithSpace_cons_cons_cons (b c d : Byte) (l : Bytes) :
    startsWithSpace (b :: c :: d :: l) = (isAsciiSpace b || isSpace2 b c || isSpace3 b c d) :=
  rfl

theorem trimRightSpace_def (s : Bytes) : trimRightSpace s = (trimLeftSpaceRev s.reverse).reverse :=
  rfl

theorem trimSpace_def (s : Bytes) : trimSpace s = trimRightSpace (trimLeftSpace s) := rfl

theorem index_nil (sep : Bytes) : index [] sep = if sep <+: [] then some 0 else none := rfl

theorem index_cons (a : Byte) (t sep : Bytes) :
    index (a :: t) sep = if sep <+: a :: t then some 0 else (index t sep).map (· + 1) := rfl

theorem contains_def (s substr : Bytes) : contains s substr = (index s substr).isSome := rfl

/-! ## Trimming white space -/

section Trim

variable {b c d : Byte} {w x y : Bytes}

theorem trimLeftSpace_ascii (hb : isAsciiSpace b = true) (rest : Bytes) :
    trimLeftSpace (b :: rest) = trimLeftSpace rest := by
  rw [trimLeftSpace_cons, if_pos hb]

theorem trimLeftSpace_space2 (hb : isAsciiSpace b = false) (hc : isSpace2 b c = true)
    (rest : Bytes) : trimLeftSpace (b :: c :: rest) = trimLeftSpace rest := by
  simp [trimLeftSpace_cons, hb, hc]

theorem trimLeftSpace_space3 (hb : isAsciiSpace b = false) (hc : isSpace2 b c = false)
    (hd : isSpace3 b c d = true) (rest : Bytes) :
    trimLeftSpace (b :: c :: d :: rest) = trimLeftSpace rest := by
  simp [trimLeftSpace_cons, hb, hc, hd]

/-- A string that does not start with a white space rune is left as it is. -/
theorem trimLeftSpace_of_startsWithSpace (h : startsWithSpace x = false) :
    trimLeftSpace x = x := by
  match x with
  | [] => rfl
  | [b] =>
    rw [startsWithSpace_singleton] at h
    simp [trimLeftSpace_cons, h]
  | [b, c] =>
    simp only [startsWithSpace_pair, Bool.or_eq_false_iff] at h
    simp [trimLeftSpace_cons, h.1, h.2]
  | b :: c :: d :: rest =>
    simp only [startsWithSpace_cons_cons_cons, Bool.or_eq_false_iff] at h
    simp [trimLeftSpace_cons, h.1.1, h.1.2, h.2]

/-- Induction along `trimLeftSpace`: a string does not start with white space, or it starts
with a white space rune of one, two or three bytes that trimming drops. -/
theorem trimLeftSpace_induction {motive : Bytes → Prop}
    (stop : ∀ x, startsWithSpace x = false → motive x)
    (ascii : ∀ b rest, isAsciiSpace b = true → motive rest → motive (b :: rest))
    (space2 : ∀ b c rest, isAsciiSpace b = false → isSpace2 b c = true → motive rest →
      motive (b :: c :: rest))
    (space3 : ∀ b c d rest, isAsciiSpace b = false → isSpace2 b c = false →
      isSpace3 b c d = true → motive rest → motive (b :: c :: d :: rest)) :
    ∀ x, motive x
  | [] => stop [] rfl
  | b :: rest =>
    -- the branches of `trimLeftSpace`, with the recursive call on what it trims next
    if hb : isAsciiSpace b = true then
      ascii b rest hb (trimLeftSpace_induction stop ascii space2 space3 rest)
    else match rest with
      | [] => stop [b] (by simpa [startsWithSpace_singleton] using hb)
      | c :: rest' =>
        if hc : isSpace2 b c = true then
          space2 b c rest' (by simpa using hb) hc
            (trimLeftSpace_induction stop ascii space2 space3 rest')
        else match rest' with
          | [] => stop [b, c] (by simp_all [startsWithSpace_pair])
          | d :: rest'' =>
            if hd : isSpace3 b c d = true then
              space3 b c d rest'' (by simpa using hb) (by simpa using hc) hd
                (trimLeftSpace_induction stop ascii space2 space3 rest'')
            else stop (b :: c :: d :: rest'') (by simp_all [startsWithSpace_cons_cons_cons])

theorem length_trimLeftSpace_le (x : Bytes) : (trimLeftSpace x).length ≤ x.length := by
  induction x using trimLeftSpace_induction with
  | stop x h => exact (congrArg List.length (trimLeftSpace_of_startsWithSpace h)).le
  | ascii b rest hb ih =>
    rw [trimLeftSpace_ascii hb, List.length_cons]
    omega
  | space2 b c rest hb hc ih =>
    rw [trimLeftSpace_space2 hb hc, List.length_cons, List.length_cons]
    omega
  | space3 b c d rest hb hc hd ih =>
    rw [trimLeftSpace_space3 hb hc hd, List.length_cons, List.length_cons, List.length_cons]
    omega

/-- What is left after trimming does not start with white space. -/
theorem startsWithSpace_trimLeftSpace (x : Bytes) : startsWithSpace (trimLeftSpace x) = false := by
  induction x using trimLeftSpace_induction with
  | stop x h => rwa [trimLeftSpace_of_startsWithSpace h]
  | ascii b rest hb ih => rwa [trimLeftSpace_ascii hb]
  | space2 b c rest hb hc ih => rwa [trimLeftSpace_space2 hb hc]
  | space3 b c d rest hb hc hd ih => rwa [trimLeftSpace_space3 hb hc hd]

theorem trimLeftSpace_eq_self_iff : trimLeftSpace x = x ↔ startsWithSpace x = false := by
  constructor
  · intro h
    rw [← h]
    exact startsWithSpace_trimLeftSpace x
  · exact trimLeftSpace_of_startsWithSpace

/-- A run of white space in front is dropped whatever follows it. -/
theorem trimLeftSpace_append (hw : trimLeftSpace w = []) (x : Bytes) :
    trimLeftSpace (w ++ x) = trimLeftSpace x := by
  induction w using trimLeftSpace_induction with
  | stop w h =>
    -- a run that does not start with white space is empty
    rw [trimLeftSpace_of_startsWithSpace h] at hw
    rw [hw, List.nil_append]
  | ascii b rest hb ih =>
    rw [trimLeftSpace_ascii hb] at hw
    rw [List.cons_append, trimLeftSpace_ascii hb, ih hw]
  | space2 b c rest hb hc ih =>
    rw [trimLeftSpace_space2 hb hc] at hw
    rw [List.cons_append, List.cons_append, trimLeftSpace_space2 hb hc, ih hw]
  | space3 b c d rest hb hc hd ih =>
    rw [trimLeftSpace_space3 hb hc hd] at hw
    rw [List.cons_append, List.cons_append, List.cons_append, trimLeftSpace_space3 hb hc hd,
      ih hw]

/-- Every string is a run of white space followed by what trimming leaves. -/
theorem exists_trimLeftSpace (x : Bytes) :
    ∃ w, trimLeftSpace w = [] ∧ x = w ++ trimLeftSpace x := by
  induction x using trimLeftSpace_induction with
  | stop x h => exact ⟨[], rfl, by rw [trimLeftSpace_of_startsWithSpace h, List.nil_append]⟩
  | ascii b rest hb ih =>
    obtain ⟨w, hw, hrest⟩ := ih
    refine ⟨b :: w, by rw [trimLeftSpace_ascii hb, hw], ?_⟩
    rw [trimLeftSpace_ascii hb, List.cons_append, ← hrest]
  | space2 b c rest hb hc ih =>
    obtain ⟨w, hw, hrest⟩ := ih
    refine ⟨b :: c :: w, by rw [trimLeftSpace_space2 hb hc, hw], ?_⟩
    rw [trimLeftSpace_space2 hb hc, List.cons_append, List.cons_append, ← hrest]
  | space3 b c d rest hb hc hd ih =>
    obtain ⟨w, hw, hrest⟩ := ih
    refine ⟨b :: c :: d :: w, by rw [trimLeftSpace_space3 hb hc hd, hw], ?_⟩
    rw [trimLeftSpace_space3 hb hc hd, List.cons_append, List.cons_append, List.cons_append,
      ← hrest]

/-! ### The bytes of white space runes -/

theorem isSpace2_bytes (h : isSpace2 b c = true) :
    b.val = 0xC2 ∧ 0x80 ≤ c.val ∧ isAsciiSpace c = false := by
  simp only [isSpace2_def, isAsciiSpace_def, decide_eq_true_eq, decide_eq_false_iff_not] at h ⊢
  omega

theorem isSpace3_bytes (h : isSpace3 b c d = true) :
    (b.val = 0xE1 ∨ b.val = 0xE2 ∨ b.val = 0xE3) ∧ (c.val = 0x80 ∨ c.val = 0x81 ∨ c.val = 0x9A) ∧
      0x80 ≤ d.val := by
  simp only [isSpace3_def, decide_eq_true_eq] at h
  omega

/-- The first byte of a white space rune of three bytes starts no other. -/
theorem of_isSpace3 (h : isSpace3 b c d = true) :
    isAsciiSpace b = false ∧ isSpace2 b c = false ∧ isAsciiSpace d = false ∧
      isSpace2 c d = false := by
  have := isSpace3_bytes h
  simp only [isAsciiSpace_def, isSpace2_def, decide_eq_false_iff_not]
  omega

/-- Every byte of a run of white space is ASCII white space or not ASCII. -/
theorem mem_of_trimLeftSpace_eq_nil (hw : trimLeftSpace w = []) :
    ∀ a ∈ w, isAsciiSpace a = true ∨ 0x80 ≤ a.val := by
  induction w using trimLeftSpace_induction with
  | stop w h =>
    rw [trimLeftSpace_of_startsWithSpace h] at hw
    simp [hw]
  | ascii b rest hb ih =>
    rw [trimLeftSpace_ascii hb] at hw
    intro a ha
    rcases List.mem_cons.1 ha with rfl | ha
    · exact .inl hb
    · exact ih hw a ha
  | space2 b c rest hb hc ih =>
    rw [trimLeftSpace_space2 hb hc] at hw
    have := isSpace2_bytes hc
    intro a ha
    simp only [List.mem_cons] at ha
    rcases ha with rfl | rfl | ha
    · exact .inr (by omega)
    · exact .inr this.2.1
    · exact ih hw a ha
  | space3 b c d rest hb hc hd ih =>
    rw [trimLeftSpace_space3 hb hc hd] at hw
    have := isSpace3_bytes hd
    intro a ha
    simp only [List.mem_cons] at ha
    rcases ha with rfl | rfl | rfl | ha
    · exact .inr (by omega)
    · exact .inr (by omega)
    · exact .inr this.2.2
    · exact ih hw a ha

/-- A run of white space starts with ASCII white space or with the first byte of a longer
rune; none of these continues a rune. -/
theorem head_of_trimLeftSpace_eq_nil (hw : trimLeftSpace (c :: w) = []) :
    isAsciiSpace c = true ∨ c.val = 0xC2 ∨ c.val = 0xE1 ∨ c.val = 0xE2 ∨ c.val = 0xE3 := by
  by_contra hc
  have hs : startsWithSpace (c :: w) = false := by
    simp only [isAsciiSpace_def, decide_eq_true_eq, not_or] at hc
    rcases w with _ | ⟨c', _ | ⟨d, w⟩⟩ <;>
      simp only [startsWithSpace_singleton, startsWithSpace_pair, startsWithSpace_cons_cons_cons,
        isAsciiSpace_def, isSpace2_def, isSpace3_def, Bool.or_eq_false_iff,
        decide_eq_false_iff_not] <;> omega
  rw [trimLeftSpace_of_startsWithSpace hs] at hw
  cases hw

/-- A string that does not start with white space keeps that when a run of white space is
appended to it: the bytes a white space rune continues with start no run. -/
theorem startsWithSpace_append (hx : startsWithSpace x = false) (hne : x ≠ [])
    (hw : trimLeftSpace w = []) : startsWithSpace (x ++ w) = false := by
  rcases w with _ | ⟨a, w⟩
  · rwa [List.append_nil]
  have ha := head_of_trimLeftSpace_eq_nil hw
  match x with
  | [b] =>
    rcases w with _ | ⟨a', w⟩ <;>
      simp only [startsWithSpace_singleton, startsWithSpace_pair, startsWithSpace_cons_cons_cons,
        isAsciiSpace_def, isSpace2_def, isSpace3_def, List.cons_append, List.nil_append,
        Bool.or_eq_false_iff, decide_eq_false_iff_not, decide_eq_true_eq] at hx ha ⊢ <;> omega
  | [b, c] =>
    simp only [startsWithSpace_pair, startsWithSpace_cons_cons_cons, isAsciiSpace_def,
      isSpace2_def, isSpace3_def, List.cons_append, List.nil_append, Bool.or_eq_false_iff,
      decide_eq_false_iff_not, decide_eq_true_eq] at hx ha ⊢
    omega
  | b :: c :: d :: rest => simpa [startsWithSpace_cons_cons_cons] using hx

/-- An ASCII byte that is not white space starts no white space rune. -/
theorem startsWithSpace_of_ascii (hb : isAsciiSpace b = false) (hb' : b.val < 0x80)
    (l : Bytes) : startsWithSpace (b :: l) = false := by
  rcases l with _ | ⟨c, _ | ⟨d, l⟩⟩ <;>
    simp only [startsWithSpace_singleton, startsWithSpace_pair, startsWithSpace_cons_cons_cons, hb,
      isSpace2_def, isSpace3_def, Bool.false_or, Bool.or_eq_false_iff, decide_eq_false_iff_not] <;>
    omega

/-- A prefix of a string that does not start with white space does not either. -/
theorem startsWithSpace_prefix_eq_false (hx : startsWithSpace x = false) (hy : y <+: x) :
    startsWithSpace y = false := by
  obtain ⟨t, rfl⟩ := hy
  match y, t with
  | [], _ => rfl
  | [b], [] => exact hx
  | [b], [_] =>
    simp only [List.cons_append, List.nil_append, startsWithSpace_pair, Bool.or_eq_false_iff] at hx
    exact hx.1
  | [b], _ :: _ :: _ =>
    simp only [List.cons_append, List.nil_append, startsWithSpace_cons_cons_cons,
      Bool.or_eq_false_iff] at hx
    exact hx.1.1
  | [b, c], [] => exact hx
  | [b, c], _ :: _ =>
    simp only [List.cons_append, List.nil_append, startsWithSpace_pair,
      startsWithSpace_cons_cons_cons, Bool.or_eq_false_iff] at hx ⊢
    exact hx.1
  | b :: c :: d :: rest, t => exact hx

/-! ### Trimming from the right -/

theorem trimLeftSpaceRev_ascii (hd : isAsciiSpace d = true) (rest : Bytes) :
    trimLeftSpaceRev (d :: rest) = trimLeftSpaceRev rest := by
  rw [trimLeftSpaceRev_cons, if_pos hd]

theorem trimLeftSpaceRev_space2 (hd : isAsciiSpace d = false) (hc : isSpace2 c d = true)
    (rest : Bytes) : trimLeftSpaceRev (d :: c :: rest) = trimLeftSpaceRev rest := by
  simp [trimLeftSpaceRev_cons, hd, hc]

theorem trimLeftSpaceRev_space3 (hd : isAsciiSpace d = false) (hc : isSpace2 c d = false)
    (hb : isSpace3 b c d = true) (rest : Bytes) :
    trimLeftSpaceRev (d :: c :: b :: rest) = trimLeftSpaceRev rest := by
  simp [trimLeftSpaceRev_cons, hd, hc, hb]

/-- Induction along `trimLeftSpaceRev`, as `trimLeftSpace_induction` with each rune read from its
last byte. -/
theorem trimLeftSpaceRev_induction {motive : Bytes → Prop} (nil : motive [])
    (ascii : ∀ d rest, isAsciiSpace d = true → motive rest → motive (d :: rest))
    (space2 : ∀ d c rest, isAsciiSpace d = false → isSpace2 c d = true → motive rest →
      motive (d :: c :: rest))
    (space3 : ∀ d c b rest, isAsciiSpace d = false → isSpace2 c d = false →
      isSpace3 b c d = true → motive rest → motive (d :: c :: b :: rest))
    (stop : ∀ d rest, isAsciiSpace d = false → trimLeftSpaceRev (d :: rest) = d :: rest →
      motive (d :: rest)) :
    ∀ v, motive v
  | [] => nil
  | d :: rest =>
    if hd : isAsciiSpace d = true then
      ascii d rest hd (trimLeftSpaceRev_induction nil ascii space2 space3 stop rest)
    else match rest with
      | [] => stop d [] (by simpa using hd) (by simp [trimLeftSpaceRev_cons, hd])
      | c :: rest' =>
        if hc : isSpace2 c d = true then
          space2 d c rest' (by simpa using hd) hc
            (trimLeftSpaceRev_induction nil ascii space2 space3 stop rest')
        else match rest' with
          | [] => stop d [c] (by simpa using hd) (by simp [trimLeftSpaceRev_cons, hd, hc])
          | b :: rest'' =>
            if hb : isSpace3 b c d = true then
              space3 d c b rest'' (by simpa using hd) (by simpa using hc) hb
                (trimLeftSpaceRev_induction nil ascii space2 space3 stop rest'')
            else
              stop d (c :: b :: rest'') (by simpa using hd)
                (by simp [trimLeftSpaceRev_cons, hd, hc, hb])

/-- A run of white space is dropped from the end too: its runes read backwards are the
runes of the reversed string. -/
theorem trimLeftSpaceRev_reverse_append (hw : trimLeftSpace w = []) (y : Bytes) :
    trimLeftSpaceRev (w.reverse ++ y) = trimLeftSpaceRev y := by
  induction w using trimLeftSpace_induction generalizing y with
  | stop w h =>
    rw [trimLeftSpace_of_startsWithSpace h] at hw
    rw [hw, List.reverse_nil, List.nil_append]
  | ascii b rest hb ih =>
    rw [trimLeftSpace_ascii hb] at hw
    simp only [List.reverse_cons, List.append_assoc, List.singleton_append]
    rw [ih hw, trimLeftSpaceRev_ascii hb]
  | space2 b c rest hb hc ih =>
    rw [trimLeftSpace_space2 hb hc] at hw
    simp only [List.reverse_cons, List.append_assoc, List.cons_append, List.nil_append]
    rw [ih hw, trimLeftSpaceRev_space2 (isSpace2_bytes hc).2.2 hc]
  | space3 b c d rest hb hc hd ih =>
    rw [trimLeftSpace_space3 hb hc hd] at hw
    obtain ⟨-, -, hd', hcd⟩ := of_isSpace3 hd
    simp only [List.reverse_cons, List.append_assoc, List.cons_append, List.nil_append]
    rw [ih hw, trimLeftSpaceRev_space3 hd' hcd hd]

/-- What `trimLeftSpaceRev` drops is a run of white space read backwards. -/
theorem exists_trimLeftSpaceRev (v : Bytes) :
    ∃ w, trimLeftSpace w = [] ∧ v = w.reverse ++ trimLeftSpaceRev v := by
  induction v using trimLeftSpaceRev_induction with
  | nil => exact ⟨[], rfl, rfl⟩
  | ascii d rest hd ih =>
    obtain ⟨w, hw, hrest⟩ := ih
    refine ⟨w ++ [d], ?_, ?_⟩
    · rw [trimLeftSpace_append hw, trimLeftSpace_ascii hd]
      rfl
    · rw [trimLeftSpaceRev_ascii hd, List.reverse_append, List.reverse_singleton,
        List.singleton_append, List.cons_append, ← hrest]
  | space2 d c rest hd hc ih =>
    obtain ⟨w, hw, hrest⟩ := ih
    refine ⟨w ++ [c, d], ?_, ?_⟩
    · have hc' : isAsciiSpace c = false := by
        have := (isSpace2_bytes hc).1
        simp only [isAsciiSpace_def, decide_eq_false_iff_not]
        omega
      rw [trimLeftSpace_append hw, trimLeftSpace_space2 hc' hc]
      rfl
    · simp only [trimLeftSpaceRev_space2 hd hc, List.reverse_append, List.reverse_cons,
        List.reverse_nil, List.nil_append, List.cons_append, ← hrest]
  | space3 d c b rest hd hc hb ih =>
    obtain ⟨w, hw, hrest⟩ := ih
    obtain ⟨hb', hbc, -, -⟩ := of_isSpace3 hb
    refine ⟨w ++ [b, c, d], ?_, ?_⟩
    · rw [trimLeftSpace_append hw, trimLeftSpace_space3 hb' hbc hb]
      rfl
    · simp only [trimLeftSpaceRev_space3 hd hc hb, List.reverse_append, List.reverse_cons,
        List.reverse_nil, List.nil_append, List.cons_append, ← hrest]
  | stop d rest hd h => exact ⟨[], rfl, by rw [h, List.reverse_nil, List.nil_append]⟩

/-- What is left after trimming from the end does not end in ASCII white space. -/
theorem trimLeftSpaceRev_head {v r : Bytes} (h : trimLeftSpaceRev v = d :: r) :
    isAsciiSpace d = false := by
  induction v using trimLeftSpaceRev_induction with
  | nil => cases h
  | ascii d' rest hd ih => exact ih (by rwa [trimLeftSpaceRev_ascii hd] at h)
  | space2 d' c rest hd hc ih => exact ih (by rwa [trimLeftSpaceRev_space2 hd hc] at h)
  | space3 d' c b rest hd hc hb ih => exact ih (by rwa [trimLeftSpaceRev_space3 hd hc hb] at h)
  | stop d' rest hd hstop =>
    -- the string is kept whole, so its first byte is the one the hypothesis names
    obtain ⟨rfl, -⟩ := List.cons_eq_cons.1 (hstop.symm.trans h)
    exact hd

/-- A run of white space at the end is dropped whatever precedes it. -/
theorem trimRightSpace_append (hw : trimLeftSpace w = []) (x : Bytes) :
    trimRightSpace (x ++ w) = trimRightSpace x := by
  rw [trimRightSpace_def, trimRightSpace_def, List.reverse_append,
    trimLeftSpaceRev_reverse_append hw]

/-- Every string is what trimming from the right leaves followed by a run of white space. -/
theorem exists_trimRightSpace (x : Bytes) :
    ∃ w, trimLeftSpace w = [] ∧ x = trimRightSpace x ++ w := by
  obtain ⟨w, hw, hx⟩ := exists_trimLeftSpaceRev x.reverse
  refine ⟨w, hw, ?_⟩
  calc x = x.reverse.reverse := (List.reverse_reverse x).symm
    _ = (w.reverse ++ trimLeftSpaceRev x.reverse).reverse := by rw [← hx]
    _ = trimRightSpace x ++ w := by
      rw [List.reverse_append, List.reverse_reverse, trimRightSpace_def]

/-- A string ending in an ASCII byte other than white space is kept whole when what follows it
is trimmed from the right: no byte of a run of white space is such a byte. -/
theorem prefix_trimRightSpace (hb : isAsciiSpace b = false) (hb' : b.val < 0x80) (x z : Bytes) :
    x ++ [b] <+: trimRightSpace (x ++ [b] ++ z) := by
  obtain ⟨w, hw, h⟩ := exists_trimRightSpace (x ++ [b] ++ z)
  generalize trimRightSpace (x ++ [b] ++ z) = T at h ⊢
  rcases List.append_eq_append_iff.1 h with ⟨a', hT, -⟩ | ⟨c', hx, hwc⟩
  · exact ⟨a', hT.symm⟩
  · rcases List.eq_nil_or_concat c' with rfl | ⟨c'', b', rfl⟩
    · exact ⟨[], by rw [List.append_nil]; simpa using hx⟩
    · -- the last byte of `x ++ [b]` would be a byte of the run
      rw [List.concat_eq_append, ← List.append_assoc] at hx
      have hbb : [b] = [b'] := List.append_inj_right' hx rfl
      obtain rfl : b = b' := List.singleton_inj.1 hbb
      have := mem_of_trimLeftSpace_eq_nil hw b (by rw [hwc]; simp)
      simp only [hb, Bool.false_eq_true, false_or] at this
      omega

theorem trimRightSpace_prefix_self (x : Bytes) : trimRightSpace x <+: x := by
  obtain ⟨w, -, hx⟩ := exists_trimRightSpace x
  exact ⟨w, hx.symm⟩

theorem trimRightSpace_idem (x : Bytes) : trimRightSpace (trimRightSpace x) = trimRightSpace x := by
  obtain ⟨w, hw, hx⟩ := exists_trimRightSpace x
  conv_rhs => rw [hx, trimRightSpace_append hw]

/-! ### Trimming both ends -/

/-- A run of white space at the end does not change what trimming leaves. -/
theorem trimSpace_append_run (hw : trimLeftSpace w = []) (y : Bytes) :
    trimSpace (y ++ w) = trimSpace y := by
  obtain ⟨wl, hwl, hy⟩ := exists_trimLeftSpace y
  have hleft : trimLeftSpace (y ++ w) = trimLeftSpace (trimLeftSpace y ++ w) := by
    conv_lhs => rw [hy, List.append_assoc, trimLeftSpace_append hwl]
  rw [trimSpace_def, trimSpace_def, hleft]
  by_cases hne : trimLeftSpace y = []
  · rw [hne, List.nil_append, hw]
  · have hs := startsWithSpace_append (startsWithSpace_trimLeftSpace y) hne hw
    rw [trimLeftSpace_of_startsWithSpace hs, trimRightSpace_append hw]

/-- What `TrimSpace` leaves does not start with white space. -/
theorem startsWithSpace_trimSpace (x : Bytes) : startsWithSpace (trimSpace x) = false :=
  startsWithSpace_prefix_eq_false (startsWithSpace_trimLeftSpace x) (trimRightSpace_prefix_self _)

/-- What `TrimSpace` leaves does not end in ASCII white space. -/
theorem trimSpace_last {l : Bytes} (h : trimSpace x = l ++ [b]) : isAsciiSpace b = false := by
  have h' : trimLeftSpaceRev (trimLeftSpace x).reverse = b :: l.reverse := by
    rw [← List.reverse_reverse (trimLeftSpaceRev _)]
    rw [trimSpace_def, trimRightSpace_def] at h
    rw [h, List.reverse_append, List.reverse_singleton, List.singleton_append]
  exact trimLeftSpaceRev_head h'

/-- On a string that does not start with white space, `TrimSpace` trims the right end only. -/
theorem trimSpace_of_startsWithSpace (h : startsWithSpace x = false) :
    trimSpace x = trimRightSpace x := by
  rw [trimSpace_def, trimLeftSpace_of_startsWithSpace h]

/-- `TrimSpace` and trimming the left end alone leave strings with the same first byte: what the
right end loses is a run of white space, and a string that does not start with white space is not
all white space. -/
theorem head?_trimSpace (x : Bytes) : (trimSpace x).head? = (trimLeftSpace x).head? := by
  obtain ⟨w, hw, hy⟩ := exists_trimRightSpace (trimLeftSpace x)
  rw [trimSpace_def]
  by_cases hne : trimRightSpace (trimLeftSpace x) = []
  · -- what is left of the left end is then a run of white space, and so empty
    have hrun : trimLeftSpace x = w := by rw [hy, hne, List.nil_append]
    have hempty : trimLeftSpace x = [] := by
      rw [← trimLeftSpace_eq_self_iff.2 (startsWithSpace_trimLeftSpace x), hrun, hw]
    rw [hne, hempty]
  · conv_rhs => rw [hy]
    rw [List.head?_append_of_ne_nil _ hne]

theorem trimSpace_idem (x : Bytes) : trimSpace (trimSpace x) = trimSpace x := by
  rw [trimSpace_of_startsWithSpace (startsWithSpace_trimSpace x), trimSpace_def,
    trimRightSpace_idem]

theorem length_trimSpace_le (x : Bytes) : (trimSpace x).length ≤ x.length :=
  calc (trimSpace x).length ≤ (trimLeftSpace x).length := (trimRightSpace_prefix_self _).length_le
    _ ≤ x.length := length_trimLeftSpace_le x

end Trim

/-! ## The other functions -/

/-- A cutset of white space takes nothing from what `TrimSpace` leaves. -/
theorem trimRight_trimSpace {cutset : Bytes} (hcut : ∀ b ∈ cutset, isAsciiSpace b = true)
    (s : Bytes) : trimRight (trimSpace s) cutset = trimSpace s := by
  rw [trimRight, List.rdropWhile_eq_self_iff]
  intro hne hlast
  have h := (List.dropLast_append_getLast hne).symm
  have := trimSpace_last h
  rw [hcut _ (by simpa using hlast)] at this
  cases this

/-- `Index` finds the first occurrence. -/
theorem index_eq_some_iff {sep : Bytes} :
    ∀ {s : Bytes} {i : ℕ}, index s sep = some i ↔ sep <+: s.drop i ∧ ∀ j < i, ¬sep <+: s.drop j
  | [], i => by
    rw [index_nil]
    by_cases h : sep <+: []
    · rw [if_pos h, Option.some.injEq, List.drop_nil]
      constructor
      · rintro rfl
        exact ⟨h, fun j hj => absurd hj (Nat.not_lt_zero j)⟩
      · rintro ⟨-, hj⟩
        by_contra hi
        exact hj 0 (by omega) h
    · rw [if_neg h, List.drop_nil]
      exact ⟨fun h' => absurd h' (by simp), fun h' => absurd h'.1 h⟩
  | a :: t, i => by
    rw [index_cons]
    by_cases h : sep <+: a :: t
    · rw [if_pos h, Option.some.injEq]
      constructor
      · rintro rfl
        exact ⟨h, fun j hj => absurd hj (Nat.not_lt_zero j)⟩
      · rintro ⟨-, hj⟩
        by_contra hi
        exact hj 0 (by omega) h
    · rw [if_neg h, Option.map_eq_some_iff]
      cases i with
      | zero =>
        constructor
        · rintro ⟨k, -, hk⟩
          omega
        · rintro ⟨h', -⟩
          exact absurd h' h
      | succ i =>
        rw [List.drop_succ_cons]
        constructor
        · rintro ⟨k, hk, hki⟩
          obtain rfl : k = i := by omega
          obtain ⟨hi, hj⟩ := index_eq_some_iff.1 hk
          refine ⟨hi, fun j hj' => ?_⟩
          cases j with
          | zero => exact h
          | succ j => exact hj j (by omega)
        · rintro ⟨hi, hj⟩
          exact ⟨i, index_eq_some_iff.2 ⟨hi, fun j hj' => hj (j + 1) (by omega)⟩, rfl⟩

/-- A text without `sep` does not start with it, and neither does its tail. -/
theorem contains_cons_eq_false {sep t : Bytes} {a : Byte} :
    contains (a :: t) sep = false ↔ ¬sep <+: a :: t ∧ contains t sep = false := by
  rw [contains_def, index_cons]
  by_cases h : sep <+: a :: t
  · simp [h]
  · simp [h, contains_def]

theorem not_prefix_of_contains_eq_false {s sep : Bytes} (h : contains s sep = false) :
    ¬sep <+: s := by
  cases s with
  | nil =>
    intro hp
    rw [contains_def, index_nil, if_pos hp] at h
    cases h
  | cons a t => exact (contains_cons_eq_false.1 h).1

theorem lowerByte_val (b : Byte) :
    (lowerByte b).val = if 65 ≤ b.val ∧ b.val ≤ 90 then b.val + 32 else b.val := by
  unfold lowerByte
  split_ifs with h
  · rw [Fin.val_add]
    show (b.val + 32) % 256 = b.val + 32
    exact Nat.mod_eq_of_lt (by omega)
  · rfl

theorem toLower_length (s : Bytes) : (toLower s).length = s.length := List.length_map _

end GoStrings
