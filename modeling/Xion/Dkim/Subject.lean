import Xion.Lib.GoStrings
import Xion.Lib.Base64

/-!
# The forced subject of a DKIM-signed reply

`decodeMIMESubject` and `ValidateForcedSubject` of `x/dkim/types/subject_validation.go`. The
subject must carry the tag `[Reply Needed]`, with nothing before it but the reply prefixes `Re:`
and `Fwd:` in any case, each followed by optional white space. A subject with RFC 2047 encoded
words is checked on their decoding.

Strings are byte strings, with Go's `strings` functions of `GoStrings`. `ToLower` and `ToUpper`
act on ASCII letters there: they are only compared with `utf-8` and `B`, and no other rune maps
to one of these letters. The pattern `=\?([^?]+)\?([BbQq])\?([^?]+)\?=` has one way to match at
each position, since `[^?]+` must stop at the next `?`; `mimeMatches` is `FindAllStringSubmatch`,
the leftmost match and then the next one after it.

The checks after the decoding accept exactly the text whose trimmed form has the shape
`ForcedSubjectShape` (`checkForcedSubject_iff`), so a plain subject is accepted exactly when it
has the shape (`validateForcedSubject_plain_iff`). An encoded subject is checked on the decoded
words alone, joined with spaces: the text around them is dropped, which RFC 2047 keeps
(`rfc2047Decode`), so a subject that shows plain text before the tag can pass.
-/

namespace Xion.Dkim

open Bytes GoStrings

/-! ## `decodeMIMESubject` -/

/-- A match of `=\?([^?]+)\?([BbQq])\?([^?]+)\?=` at the front of `l`: the three groups, and
what follows the match. -/
def mimeMatchAt (l : Bytes) : Option ((Bytes × Bytes × Bytes) × Bytes) :=
  match l with
  | b₀ :: b₁ :: rest =>
    if b₀ = 61 ∧ b₁ = 63 then
      let (charset, rest) := rest.span fun b => b ≠ 63
      match rest with
      | q₁ :: e :: q₂ :: rest =>
        if charset ≠ [] ∧ q₁ = 63 ∧ e ∈ ofAscii "BbQq" ∧ q₂ = 63 then
          let (text, rest) := rest.span fun b => b ≠ 63
          match rest with
          | q₃ :: q₄ :: rest =>
            if text ≠ [] ∧ q₃ = 63 ∧ q₄ = 61 then some ((charset, [e], text), rest) else none
          | _ => none
        else none
      | _ => none
    else none
  | _ => none

/-- `FindAllStringSubmatch(s, -1)` of the pattern: the groups of the leftmost match, then of the
matches after it. A match takes at least one byte, so `l.length + 1` passes are enough. -/
def mimeMatches : ℕ → Bytes → List (Bytes × Bytes × Bytes)
  | 0, _ => []
  | fuel + 1, l =>
    match mimeMatchAt l with
    | some (groups, rest) => groups :: mimeMatches fuel rest
    | none =>
      match l with
      | [] => []
      | _ :: tail => mimeMatches fuel tail

/-- The loop body of `decodeMIMESubject` on one match: a UTF-8 charset, the `B` encoding, and
base64 text, which is decoded again with `==` appended when it fails. -/
def decodeMIMEPart (m : Bytes × Bytes × Bytes) : Option Bytes :=
  let charset := toLower (trimSpace m.1)
  let encoding := toUpper (trimSpace m.2.1)
  if charset ≠ ofAscii "utf-8" then none
  else if encoding ≠ ofAscii "B" then none
  else
    match Base64.decode m.2.2 with
    | some decodedBytes => some decodedBytes
    | none => Base64.decode (m.2.2 ++ ofAscii "==")

/-- `decodeMIMESubject`: the decoded words joined with spaces, and whether the subject was
encoded. -/
def decodeMIMESubject (encoded : Bytes) : Bytes × Bool :=
  let encoded := trimSpace encoded
  if encoded = [] then ([], false)
  else
    let mimeParts := mimeMatches (encoded.length + 1) encoded
    if mimeParts = [] then ([], false)
    else
      match mimeParts.mapM decodeMIMEPart with
      | some decodedParts => (join decodedParts (ofAscii " "), true)
      | none => ([], false)

/-- A match starts with \=?. -/
theorem prefix_of_mimeMatchAt {l : Bytes} {r : (Bytes × Bytes × Bytes) × Bytes}
    (h : mimeMatchAt l = some r) : ofAscii "=?" <+: l := by
  match l, h with
  | [], h => simp [mimeMatchAt] at h
  | [_], h => simp [mimeMatchAt] at h
  | b₀ :: b₁ :: rest, h =>
    by_cases hq : b₀ = 61 ∧ b₁ = 63
    · obtain ⟨rfl, rfl⟩ := hq
      exact ⟨rest, rfl⟩
    · rw [mimeMatchAt, if_neg hq] at h
      cases h

/-- A text without \=? has no encoded word. -/
theorem mimeMatches_eq_nil :
    ∀ (n : ℕ) {l : Bytes}, contains l (ofAscii "=?") = false → mimeMatches n l = []
  | 0, _, _ => rfl
  | n + 1, l, h => by
    have hnone : mimeMatchAt l = none := by
      cases hm : mimeMatchAt l with
      | none => rfl
      | some r => exact absurd (prefix_of_mimeMatchAt hm) (not_prefix_of_contains_eq_false h)
    simp only [mimeMatches, hnone]
    cases l with
    | nil => rfl
    | cons b t => exact mimeMatches_eq_nil n (contains_cons_eq_false.1 h).2

/-! ## `ValidateForcedSubject` -/

/-- The tag a forced subject carries. -/
def forcedTag : Bytes := ofAscii "[Reply Needed]"

/-- `validPrefixes`. -/
def validPrefixes : List Bytes :=
  [ofAscii "Re:", ofAscii "RE:", ofAscii "re:", ofAscii "Fwd:", ofAscii "FWD:", ofAscii "fwd:"]

/-- The inner loop of `ValidateForcedSubject`: the first valid prefix that `remaining` starts
with, in any case. -/
def firstValidPrefixOf (remaining : Bytes) : Option Bytes :=
  validPrefixes.find? fun p =>
    decide (p.length ≤ remaining.length) && equalFold (remaining.take p.length) p

/-- The outer loop of `ValidateForcedSubject`: valid prefixes removed from the front of
`remaining`, each with the white space after it. A pass removes at least three bytes, so
`remaining.length` passes are enough. -/
def stripValidPrefixes : ℕ → Bytes → Bytes
  | 0, remaining => remaining
  | fuel + 1, remaining =>
    match firstValidPrefixOf remaining with
    | some p => stripValidPrefixes fuel (trimSpace (remaining.drop p.length))
    | none => remaining

/-- The checks of `ValidateForcedSubject` on the subject it settled on, plain or decoded. -/
def checkForcedSubject (subject : Bytes) : Bool :=
  let subject := trimSpace subject
  if subject = [] then false
  else
    let subject := trimRight subject (ofAscii "\r\n")
    if contains subject forcedTag = false then false
    else
      match index subject forcedTag with
      | none => false
      | some tagIndex =>
        let pfx := trimSpace (subject.take tagIndex)
        if pfx ≠ [] then decide (stripValidPrefixes pfx.length pfx = []) else true

/-- `ValidateForcedSubject`: an encoded subject is checked on its decoding; a subject with `=?`
that does not decode is rejected. -/
def validateForcedSubject (subject : Bytes) : Bool :=
  let subject := trimSpace subject
  if subject = [] then false
  else
    let (decoded, isMIME) := decodeMIMESubject subject
    if isMIME then checkForcedSubject decoded
    else if contains subject (ofAscii "=?") then false
    else checkForcedSubject subject

/-! ## What the check is for -/

/-- `Re:` or `Fwd:`, in any case. -/
def IsReplyWord (x : Bytes) : Prop := toLower x = ofAscii "re:" ∨ toLower x = ofAscii "fwd:"

/-- Reply words, each followed by white space or none. -/
inductive ReplyWords : Bytes → Prop
  | nil : ReplyWords []
  | cons {x w r : Bytes} : IsReplyWord x → trimLeftSpace w = [] → ReplyWords r →
      ReplyWords (x ++ w ++ r)

/-- The shape of a forced subject: reply words, then the tag where it first occurs, then
anything. -/
def ForcedSubjectShape (t : Bytes) : Prop :=
  ∃ p rest, t = p ++ forcedTag ++ rest ∧ (∀ i < p.length, ¬forcedTag <+: t.drop i) ∧ ReplyWords p

/-- Linear white space between the words of a header: space, tab, carriage return, line
feed. -/
def isLinearSpace (b : Byte) : Bool := decide (b = 32 ∨ b = 9 ∨ b = 13 ∨ b = 10)

/-- A header split into maximal runs of linear white space and of other bytes. -/
def headerTokens : Bytes → List Bytes
  | [] => []
  | b :: rest =>
    match headerTokens rest with
    | (c :: t) :: ts =>
      if isLinearSpace b = isLinearSpace c then (b :: c :: t) :: ts else [b] :: (c :: t) :: ts
    | _ => [[b]]

/-- The value of a hexadecimal digit. -/
def hexValue (b : Byte) : Option ℕ :=
  if 48 ≤ b.val ∧ b.val ≤ 57 then some (b.val - 48)
  else if 65 ≤ b.val ∧ b.val ≤ 70 then some (b.val - 55)
  else if 97 ≤ b.val ∧ b.val ≤ 102 then some (b.val - 87)
  else none

/-- The `Q` encoding of RFC 2047: `_` for a space and `=XX` for the byte `XX`. -/
def qDecode : Bytes → Option Bytes
  | [] => some []
  | b :: rest =>
    if b = 95 then (qDecode rest).map (32 :: ·)
    else if b = 61 then
      match rest with
      | h :: l :: rest' => do
        let hv ← hexValue h
        let lv ← hexValue l
        (qDecode rest').map (Base64.byte (hv * 16 + lv) :: ·)
      | _ => none
    else (qDecode rest).map (b :: ·)

/-- The decoding of a token that is an RFC 2047 encoded word in UTF-8,
`=?charset?encoding?text?=` with the encoding `B` (base64) or `Q`; none for any other token. -/
def decodeEncodedWord (w : Bytes) : Option Bytes :=
  if ofAscii "=?" <+: w ∧ ofAscii "?=" <:+ w ∧ 4 ≤ w.length then
    match ((w.drop 2).take (w.length - 4)).splitOn 63 with
    | [charset, [e], text] =>
      if charset ≠ [] ∧ text ≠ [] ∧ toLower charset = ofAscii "utf-8" then
        if e = 66 ∨ e = 98 then Base64.decode text
        else if e = 81 ∨ e = 113 then qDecode text
        else none
      else none
    | _ => none
  else none

/-- A token as RFC 2047 shows it: an encoded word decoded, anything else as it stands. -/
def renderToken (t : Bytes) : Bytes := (decodeEncodedWord t).getD t

/-- Whether the token at `i` is an encoded word. -/
def isEncodedWordAt (ts : List Bytes) (i : ℕ) : Bool :=
  match ts[i]? with
  | some t => (decodeEncodedWord t).isSome
  | none => false

/-- The RFC 2047 decoding of a header (sections 6.1 and 6.2): encoded words decoded, the linear
white space between two adjacent encoded words dropped, and all other text kept. -/
def rfc2047Decode (s : Bytes) : Bytes :=
  let ts := headerTokens s
  (ts.mapIdx fun i t =>
    if t.all isLinearSpace ∧ 0 < i ∧ isEncodedWordAt ts (i - 1) ∧ isEncodedWordAt ts (i + 1) then []
    else renderToken t).flatten

/-! ## Reply words -/

section ReplyWords

variable {x x' y y' r : Bytes}

/-- The two reply words, by their first byte: `r` or `R` starts `Re:`, `f` or `F` starts
`Fwd:`. -/
theorem IsReplyWord.cases (hx : IsReplyWord x) :
    ∃ b x'', x = b :: x'' ∧ isAsciiSpace b = false ∧ b.val < 0x80 ∧
      (lowerByte b = 114 ∧ x.length = 3 ∨ lowerByte b = 102 ∧ x.length = 4) := by
  have hlen := toLower_length x
  rcases x with _ | ⟨b, x''⟩
  · rcases hx with hx | hx <;> exact absurd hx (by decide)
  · have hre : ofAscii "re:" = [114, 101, 58] := by decide
    have hfwd : ofAscii "fwd:" = [102, 119, 100, 58] := by decide
    have hb : lowerByte b = 114 ∧ (b :: x'').length = 3 ∨ lowerByte b = 102 ∧ (b :: x'').length = 4 := by
      rcases hx with hx | hx
      · rw [hre] at hx
        rw [hx] at hlen
        exact .inl ⟨(List.cons_eq_cons.1 hx).1, by simpa using hlen.symm⟩
      · rw [hfwd] at hx
        rw [hx] at hlen
        exact .inr ⟨(List.cons_eq_cons.1 hx).1, by simpa using hlen.symm⟩
    have hlow : (lowerByte b).val = 114 ∨ (lowerByte b).val = 102 :=
      hb.imp (fun h => by rw [h.1]; rfl) (fun h => by rw [h.1]; rfl)
    have hascii : isAsciiSpace b = false ∧ b.val < 0x80 := by
      rw [lowerByte_val] at hlow
      simp only [isAsciiSpace, decide_eq_false_iff_not]
      split_ifs at hlow <;> omega
    exact ⟨b, x'', rfl, hascii.1, hascii.2, hb⟩

/-- A reply word ends with `:`. -/
theorem IsReplyWord.ends (hx : IsReplyWord x) : ∃ x'', x = x'' ++ [58] := by
  have hlen := toLower_length x
  have hlast : (toLower x).getLast? = some 58 := by
    rcases hx with hx | hx <;> rw [hx] <;> decide
  rw [toLower, List.getLast?_map, Option.map_eq_some_iff] at hlast
  obtain ⟨a, ha, hla⟩ := hlast
  obtain ⟨x'', rfl⟩ : ∃ x'', x = x'' ++ [a] := by
    obtain ⟨x'', hx''⟩ := List.getLast?_eq_some_iff.1 ha
    exact ⟨x'', hx''⟩
  -- only `:` itself lowers to `:`
  have : a = 58 := by
    have hv : (lowerByte a).val = 58 := by rw [hla]; rfl
    rw [lowerByte_val] at hv
    apply Fin.ext
    show a.val = 58
    split_ifs at hv <;> omega
  exact ⟨x'', by rw [this]⟩

/-- Text that starts with a reply word does not start with white space. -/
theorem IsReplyWord.startsWithSpace (hx : IsReplyWord x) (y : Bytes) :
    GoStrings.startsWithSpace (x ++ y) = false := by
  obtain ⟨b, x'', rfl, hb, hb', -⟩ := hx.cases
  exact startsWithSpace_of_ascii hb hb' _

/-- A text starts with at most one reply word. -/
theorem IsReplyWord.unique (hx : IsReplyWord x) (hx' : IsReplyWord x') (h : x ++ y = x' ++ y') :
    x = x' := by
  obtain ⟨b, z, rfl, -, -, hb⟩ := hx.cases
  obtain ⟨b', z', rfl, -, -, hb'⟩ := hx'.cases
  obtain rfl : b = b' := (List.cons_eq_cons.1 h).1
  -- the first byte tells the two words apart, and with them their lengths
  have hlen : (b :: z).length = (b :: z').length := by
    rcases hb with ⟨h1, l1⟩ | ⟨h1, l1⟩ <;> rcases hb' with ⟨h2, l2⟩ | ⟨h2, l2⟩
    · omega
    · exact absurd (h1.symm.trans h2) (by decide)
    · exact absurd (h1.symm.trans h2) (by decide)
    · omega
  exact (List.append_inj h hlen).1

/-- Reply words do not start with white space. -/
theorem ReplyWords.startsWithSpace (h : ReplyWords r) : GoStrings.startsWithSpace r = false := by
  cases h with
  | nil => rfl
  | cons hx _ _ => rw [List.append_assoc]; exact hx.startsWithSpace _

/-- The inner loop finds a valid prefix in front of a reply word. -/
theorem firstValidPrefixOf_isSome (hx : IsReplyWord x) (y : Bytes) :
    (firstValidPrefixOf (x ++ y)).isSome = true := by
  have hlen := toLower_length x
  rw [firstValidPrefixOf, List.find?_isSome]
  rcases hx with hx | hx
  · refine ⟨ofAscii "Re:", by decide, ?_⟩
    have h3 : x.length = 3 := by rw [← hlen, hx]; rfl
    have hp : (ofAscii "Re:").length = 3 := rfl
    rw [hp, List.take_append_of_le_length (by omega), List.take_of_length_le (by omega), equalFold,
      hx]
    simp only [List.length_append, Bool.and_eq_true, decide_eq_true_eq]
    exact ⟨by omega, by decide⟩
  · refine ⟨ofAscii "Fwd:", by decide, ?_⟩
    have h4 : x.length = 4 := by rw [← hlen, hx]; rfl
    have hp : (ofAscii "Fwd:").length = 4 := rfl
    rw [hp, List.take_append_of_le_length (by omega), List.take_of_length_le (by omega), equalFold,
      hx]
    simp only [List.length_append, Bool.and_eq_true, decide_eq_true_eq]
    exact ⟨by omega, by decide⟩

/-- What the inner loop finds is a reply word in front of the text. -/
theorem firstValidPrefixOf_eq_some {p : Bytes} (h : firstValidPrefixOf r = some p) :
    IsReplyWord (r.take p.length) ∧ p.length ≤ r.length := by
  have hmem := List.mem_of_find?_eq_some h
  have hp := List.find?_some h
  simp only [Bool.and_eq_true, decide_eq_true_eq, equalFold] at hp
  obtain ⟨hle, hfold⟩ := hp
  refine ⟨?_, hle⟩
  simp only [validPrefixes, List.mem_cons, List.not_mem_nil, or_false] at hmem
  rcases hmem with rfl | rfl | rfl | rfl | rfl | rfl
  · exact .inl (hfold.trans (by decide))
  · exact .inl (hfold.trans (by decide))
  · exact .inl (hfold.trans (by decide))
  · exact .inr (hfold.trans (by decide))
  · exact .inr (hfold.trans (by decide))
  · exact .inr (hfold.trans (by decide))

/-- Reply words that start with a reply word go on with reply words after its white space. -/
theorem ReplyWords.of_cons {w p' : Bytes} (h : ReplyWords (x ++ w ++ p')) (hx : IsReplyWord x)
    (hw : trimLeftSpace w = []) (hp' : GoStrings.startsWithSpace p' = false) : ReplyWords p' := by
  generalize hP : x ++ w ++ p' = P at h
  cases h with
  | nil =>
    obtain ⟨b, x'', rfl, -⟩ := hx.cases
    simp at hP
  | @cons x₁ w₁ r₁ hx₁ hw₁ hr₁ =>
    rw [List.append_assoc, List.append_assoc] at hP
    obtain rfl := hx.unique hx₁ hP
    -- the white space after the word is the whole run before the next text
    have hrest := congrArg trimLeftSpace (List.append_cancel_left hP)
    rw [trimLeftSpace_append hw, trimLeftSpace_append hw₁, trimLeftSpace_of_startsWithSpace hp',
      trimLeftSpace_of_startsWithSpace hr₁.startsWithSpace] at hrest
    rwa [hrest]

theorem firstValidPrefixOf_nil : firstValidPrefixOf [] = none := by decide

theorem stripValidPrefixes_nil (n : ℕ) : stripValidPrefixes n [] = [] := by
  cases n with
  | zero => rfl
  | succ n => rw [stripValidPrefixes, firstValidPrefixOf_nil]

end ReplyWords

/-! ## The accepted language -/

/-- Reply words put a valid prefix in front of the trimmed text. -/
theorem ReplyWords.firstValidPrefixOf_ne_none {p : Bytes} (h : ReplyWords p)
    (hp : GoStrings.startsWithSpace p = false) (hr : trimSpace p ≠ []) :
    firstValidPrefixOf (trimSpace p) ≠ none := by
  cases h with
  | nil => exact (hr rfl).elim
  | @cons x w r' hx hw hr' =>
    -- a reply word ends in a colon, which trimming from the right keeps
    obtain ⟨x'', hx''⟩ := hx.ends
    have hpre : x <+: trimSpace (x ++ w ++ r') := by
      rw [trimSpace_of_startsWithSpace hp, hx'', List.append_assoc]
      exact prefix_trimRightSpace (b := 58) (by decide) (by decide) x'' _
    obtain ⟨z, hz⟩ := hpre
    have hsome := firstValidPrefixOf_isSome hx z
    rw [hz] at hsome
    exact Option.isSome_iff_ne_none.1 hsome

/-- The prefix loop empties the trimmed text exactly when the text is reply words, given enough
passes. The induction is on the passes; each removes a reply word and the white space after
it, and what follows is again a text that does not start with white space. -/
theorem stripValidPrefixes_eq_nil_iff :
    ∀ (n : ℕ) {p : Bytes}, startsWithSpace p = false → (trimSpace p).length ≤ n →
      (stripValidPrefixes n (trimSpace p) = [] ↔ ReplyWords p)
  | n, p, hp, hn => by
    obtain ⟨wr, hwr, hpr⟩ := exists_trimRightSpace p
    rw [← trimSpace_of_startsWithSpace hp] at hpr
    by_cases hr : trimSpace p = []
    · -- the text is white space, and so empty
      have hp0 : p = [] := by
        rw [hr, List.nil_append] at hpr
        rw [← trimLeftSpace_of_startsWithSpace hp, hpr, hwr]
      rw [hr, stripValidPrefixes_nil, hp0]
      exact ⟨fun _ => .nil, fun _ => rfl⟩
    obtain ⟨m, rfl⟩ : ∃ m, n = m + 1 :=
      ⟨n - 1, by have := List.length_pos_iff.2 hr; omega⟩
    rw [stripValidPrefixes]
    cases hq : firstValidPrefixOf (trimSpace p) with
    | none =>
      exact ⟨fun h => absurd h hr, fun h => absurd hq (h.firstValidPrefixOf_ne_none hp hr)⟩
    | some q =>
      dsimp only
      obtain ⟨hx, hle⟩ := firstValidPrefixOf_eq_some hq
      have hxy := (List.take_append_drop q.length (trimSpace p)).symm
      generalize (trimSpace p).take q.length = x at hx hxy
      generalize (trimSpace p).drop q.length = y at hxy ⊢
      obtain ⟨b, x'', rfl, -, -, -⟩ := hx.cases
      -- the rest of the text after the reply word and its white space
      obtain ⟨wl, hwl, hywr⟩ := exists_trimLeftSpace (y ++ wr)
      have hp' := startsWithSpace_trimLeftSpace (y ++ wr)
      have htrim : trimSpace (trimLeftSpace (y ++ wr)) = trimSpace y := by
        rw [← trimSpace_append_run hwr y, trimSpace_of_startsWithSpace hp', trimSpace]
      have hlen : (trimSpace (trimLeftSpace (y ++ wr))).length ≤ m := by
        have h1 := length_trimSpace_le y
        have h2 := congrArg List.length hxy
        simp only [List.cons_append, List.length_cons, List.length_append] at h2
        rw [htrim]
        omega
      rw [← htrim, stripValidPrefixes_eq_nil_iff m hp' hlen]
      generalize trimLeftSpace (y ++ wr) = p' at hywr hp'
      have hpx : p = b :: x'' ++ wl ++ p' := by
        rw [hpr, hxy, List.append_assoc, hywr, ← List.append_assoc]
      rw [hpx]
      exact ⟨fun h' => .cons hx hwl h', fun h' => h'.of_cons hx hwl hp'⟩

theorem forcedTag_ne_nil : forcedTag ≠ [] := by simp [forcedTag, ofAscii]

/-- The tag has a first occurrence exactly where a forced subject puts it. -/
theorem forcedSubjectShape_iff_index {u : Bytes} {i : ℕ} (hi : index u forcedTag = some i) :
    ForcedSubjectShape u ↔ ReplyWords (u.take i) := by
  obtain ⟨hat, hfirst⟩ := index_eq_some_iff.1 hi
  constructor
  · rintro ⟨p, rest, hu, hp, hwords⟩
    have hpi : index u forcedTag = some p.length :=
      index_eq_some_iff.2 ⟨by rw [hu, List.append_assoc, List.drop_left]; simp, hp⟩
    rw [hi, Option.some.injEq] at hpi
    rwa [hpi, hu, List.append_assoc, List.take_left]
  · intro hwords
    obtain ⟨rest, hrest⟩ := hat
    -- the tag is not empty, so it starts within the text
    have hlt : i < u.length := by
      by_contra hge
      rw [List.drop_eq_nil_of_le (by omega)] at hrest
      exact forcedTag_ne_nil (List.append_eq_nil_iff.1 hrest).1
    refine ⟨u.take i, rest, ?_, fun j hj => hfirst j (by simpa [hlt.le] using hj), hwords⟩
    rw [List.append_assoc, hrest, List.take_append_drop]

theorem ForcedSubjectShape.ne_nil {t : Bytes} (h : ForcedSubjectShape t) : t ≠ [] := by
  obtain ⟨p, rest, rfl, -⟩ := h
  simp [forcedTag_ne_nil]

/-- The checks after the decoding accept exactly the text whose trimmed form has the shape of
a forced subject. -/
theorem checkForcedSubject_iff (t : Bytes) :
    checkForcedSubject t = true ↔ ForcedSubjectShape (trimSpace t) := by
  have hcut : ∀ b ∈ ofAscii "\r\n", isAsciiSpace b = true := by
    intro b hb
    rw [show ofAscii "\r\n" = [13, 10] from rfl, List.mem_pair] at hb
    rcases hb with rfl | rfl <;> rfl
  unfold checkForcedSubject
  dsimp only
  rw [trimRight_trimSpace hcut]
  by_cases hu : trimSpace t = []
  · rw [if_pos hu]
    exact ⟨fun h => (Bool.false_ne_true h).elim, fun h => absurd hu h.ne_nil⟩
  rw [if_neg hu]
  cases hi : index (trimSpace t) forcedTag with
  | none =>
    have hc : contains (trimSpace t) forcedTag = false := by simp [contains, hi]
    rw [hc, if_pos rfl]
    refine ⟨fun h => (Bool.false_ne_true h).elim, ?_⟩
    rintro ⟨p, rest, h, hp, -⟩
    have := index_eq_some_iff.2 ⟨by rw [h, List.append_assoc, List.drop_left]; simp, hp⟩
    rw [hi] at this
    cases this
  | some i =>
    have hc : contains (trimSpace t) forcedTag = true := by simp [contains, hi]
    rw [hc, forcedSubjectShape_iff_index hi]
    simp only [Bool.true_eq_false, if_false]
    -- the prefix loop on the text before the tag, which does not start with white space
    have htake : (trimSpace t).take i <+: trimSpace t := List.take_prefix _ _
    have hp : startsWithSpace ((trimSpace t).take i) = false :=
      startsWithSpace_prefix_eq_false (startsWithSpace_trimSpace t) htake
    rw [← stripValidPrefixes_eq_nil_iff _ hp le_rfl]
    by_cases hpfx : trimSpace ((trimSpace t).take i) = []
    · rw [if_neg (not_not.2 hpfx), hpfx, stripValidPrefixes_nil]
      simp
    · rw [if_pos hpfx, decide_eq_true_iff]

/-- A subject without \=? is checked as it stands: it is accepted exactly when it has the
shape of a forced subject. -/
theorem validateForcedSubject_plain_iff {s : Bytes}
    (h : contains (trimSpace s) (ofAscii "=?") = false) :
    validateForcedSubject s = true ↔ ForcedSubjectShape (trimSpace s) := by
  unfold validateForcedSubject
  by_cases hu : trimSpace s = []
  · rw [if_pos hu]
    exact ⟨fun h => (Bool.false_ne_true h).elim, fun h => absurd hu h.ne_nil⟩
  -- no encoded word, so the decoding reports a plain subject
  have hdec : decodeMIMESubject (trimSpace s) = ([], false) := by
    rw [decodeMIMESubject, trimSpace_idem, if_neg hu, mimeMatches_eq_nil _ h, if_pos rfl]
  rw [if_neg hu, hdec]
  dsimp only
  rw [if_neg Bool.false_ne_true, if_neg (by rw [h]; exact Bool.false_ne_true),
    checkForcedSubject_iff, trimSpace_idem]

/-- A subject that decodes is checked on its decoding alone. -/
theorem validateForcedSubject_mime_iff {s d : Bytes}
    (h : decodeMIMESubject (trimSpace s) = (d, true)) :
    validateForcedSubject s = true ↔ ForcedSubjectShape (trimSpace d) := by
  unfold validateForcedSubject
  have hu : trimSpace s ≠ [] := by
    intro hu
    rw [hu] at h
    cases h
  rw [if_neg hu, h]
  dsimp only
  rw [if_pos rfl, checkForcedSubject_iff]

/-- `ValidateForcedSubject` checks the shape of a forced subject on the subject itself when it has
no `=?`, and on its decoding alone when it holds an encoded word. -/
theorem validateForcedSubject_iff_shape (s : Bytes) :
    (contains (trimSpace s) (ofAscii "=?") = false →
      (validateForcedSubject s = true ↔ ForcedSubjectShape (trimSpace s))) ∧
    ∀ d, decodeMIMESubject (trimSpace s) = (d, true) →
      (validateForcedSubject s = true ↔ ForcedSubjectShape (trimSpace d)) :=
  ⟨fun h => validateForcedSubject_plain_iff h, fun _ h => validateForcedSubject_mime_iff h⟩

/-- A plain reply to a forced subject, and the tag as one encoded word. -/
theorem forced_subject_plain_and_encoded :
    (contains (trimSpace (ofAscii "Re: [Reply Needed] sign")) (ofAscii "=?") = false ∧
      (validateForcedSubject (ofAscii "Re: [Reply Needed] sign") = true ↔
        ForcedSubjectShape (trimSpace (ofAscii "Re: [Reply Needed] sign")))) ∧
    (decodeMIMESubject (trimSpace (ofAscii "=?utf-8?B?W1JlcGx5IE5lZWRlZF0=?=")) =
        (ofAscii "[Reply Needed]", true) ∧
      (validateForcedSubject (ofAscii "=?utf-8?B?W1JlcGx5IE5lZWRlZF0=?=") = true ↔
        ForcedSubjectShape (trimSpace (ofAscii "[Reply Needed]")))) := by
  have hplain : contains (trimSpace (ofAscii "Re: [Reply Needed] sign")) (ofAscii "=?") = false := by
    decide +kernel
  have hmime : decodeMIMESubject (trimSpace (ofAscii "=?utf-8?B?W1JlcGx5IE5lZWRlZF0=?=")) =
      (ofAscii "[Reply Needed]", true) := by
    decide +kernel
  exact ⟨⟨hplain, (validateForcedSubject_iff_shape _).1 hplain⟩,
    ⟨hmime, (validateForcedSubject_iff_shape _).2 _ hmime⟩⟩

/-! ## Plain text before an encoded word is not checked -/

/-- A forced subject starts with a reply word or with the tag. -/
theorem ForcedSubjectShape.head {t : Bytes} (h : ForcedSubjectShape t) :
    ∃ b rest, t = b :: rest ∧ (lowerByte b = 114 ∨ lowerByte b = 102 ∨ b = 91) := by
  obtain ⟨p, rest, rfl, -, hp⟩ := h
  cases hp with
  | nil => exact ⟨91, _, rfl, .inr (.inr rfl)⟩
  | @cons x w r hx _ _ =>
    rcases x with _ | ⟨b, x'⟩
    · exfalso
      rcases hx with hx | hx <;> exact absurd hx (by decide)
    · refine ⟨b, x' ++ w ++ r ++ forcedTag ++ rest, by simp, ?_⟩
      -- the first letter of `Re:` or `Fwd:`, in any case
      have hre : ofAscii "re:" = [114, 101, 58] := by decide
      have hfwd : ofAscii "fwd:" = [102, 119, 100, 58] := by decide
      rcases hx with hx | hx
      · rw [hre, toLower, List.map_cons] at hx
        exact .inl (List.cons_eq_cons.1 hx).1
      · rw [hfwd, toLower, List.map_cons] at hx
        exact .inr (.inl (List.cons_eq_cons.1 hx).1)

/-- A subject that shows `Hello` before an encoded tag. -/
def helloEncodedSubject : Bytes := ofAscii "Hello =?utf-8?B?W1JlcGx5IE5lZWRlZF0=?="

theorem validateForcedSubject_hides_plain_text :
    validateForcedSubject helloEncodedSubject = true ∧
      rfc2047Decode helloEncodedSubject = ofAscii "Hello [Reply Needed]" ∧
      ¬ForcedSubjectShape (trimSpace (rfc2047Decode helloEncodedSubject)) := by
  have hdecode : rfc2047Decode helloEncodedSubject = ofAscii "Hello [Reply Needed]" := by
    decide +kernel
  refine ⟨by decide +kernel, hdecode, fun h => ?_⟩
  have htrim : trimSpace (ofAscii "Hello [Reply Needed]") = ofAscii "Hello [Reply Needed]" := by
    decide +kernel
  rw [hdecode, htrim] at h
  obtain ⟨b, rest, hb, hcase⟩ := h.head
  -- the text starts with `H`
  have hH : (ofAscii "Hello [Reply Needed]").head? = some 72 := by decide
  rw [hb, List.head?_cons, Option.some.injEq] at hH
  subst hH
  revert hcase
  decide

end Xion.Dkim
