import HeyServer.Lib.Utf8

/-!
# JSON strings

The string encoder of `encoding/json` with HTML escaping, and the reading of a
string literal: escapes, surrogate pairs, and U+FFFD for what is not UTF-8.
Reading what the encoder wrote gives the string with its stray bytes replaced.
-/

namespace HeyServer.Lib.Json
open Utf8 List

/-- The lower-case hexadecimal digit of `n < 16`. -/
def hexDigit (n : Nat) : UInt8 := UInt8.ofNat (if n < 10 then 0x30 + n else 0x57 + n)

/-- `\uXXXX` -/
def unicodeEscape (r : Nat) : Bytes :=
  [0x5C, 0x75, hexDigit (r / 4096 % 16), hexDigit (r / 256 % 16), hexDigit (r / 16 % 16),
    hexDigit (r % 16)]

/-- `htmlSafeSet`: the ASCII bytes written as they are. -/
def isHtmlSafe (b : UInt8) : Bool :=
  0x20 ≤ b.toNat && b.toNat < 0x80 && b != 0x22 && b != 0x5C && b != 0x3C && b != 0x3E &&
    b != 0x26

/-- The second character of a two-character escape, in the encoder. -/
def shortEscape (b : UInt8) : Option UInt8 :=
  if b = 0x22 then some 0x22 else if b = 0x5C then some 0x5C
  else if b = 0x08 then some 0x62 else if b = 0x0C then some 0x66
  else if b = 0x0A then some 0x6E else if b = 0x0D then some 0x72
  else if b = 0x09 then some 0x74 else none

def encodePiece : Piece → Bytes
  | .rune r [b] =>
    if isHtmlSafe b then [b] else
      match shortEscape b with
      | some e => [0x5C, e]
      | none => unicodeEscape r
  | .rune r bytes => if r = 0x2028 ∨ r = 0x2029 then unicodeEscape r else bytes
  | .stray _ => unicodeEscape 0xFFFD

/-- The characters between the quotes. -/
def encodeChars (s : Bytes) : Bytes := (pieces s).flatMap encodePiece

def encodeString (s : Bytes) : Bytes := 0x22 :: (encodeChars s ++ [0x22])

/-! ## Reading -/

def hexValue (b : UInt8) : Option Nat :=
  if 0x30 ≤ b.toNat ∧ b.toNat ≤ 0x39 then some (b.toNat - 0x30)
  else if 0x61 ≤ b.toNat ∧ b.toNat ≤ 0x66 then some (b.toNat - 0x57)
  else if 0x41 ≤ b.toNat ∧ b.toNat ≤ 0x46 then some (b.toNat - 0x37)
  else none

def hexRune (a b c d : UInt8) : Option Nat := do
  return (((← hexValue a) * 16 + (← hexValue b)) * 16 + (← hexValue c)) * 16 + (← hexValue d)

/-- `utf8.AppendRune` for a rune that is no surrogate. -/
def encodeRune (r : Nat) : Bytes :=
  if r < 0x80 then [UInt8.ofNat r]
  else if r < 0x800 then [UInt8.ofNat (0xC0 + r / 64), UInt8.ofNat (0x80 + r % 64)]
  else if r < 0x10000 then
    [UInt8.ofNat (0xE0 + r / 4096), UInt8.ofNat (0x80 + r / 64 % 64), UInt8.ofNat (0x80 + r % 64)]
  else
    [UInt8.ofNat (0xF0 + r / 262144), UInt8.ofNat (0x80 + r / 4096 % 64),
      UInt8.ofNat (0x80 + r / 64 % 64), UInt8.ofNat (0x80 + r % 64)]

/-- The byte a two-character escape stands for. -/
def unescape (e : UInt8) : Option UInt8 :=
  if e = 0x22 then some 0x22 else if e = 0x5C then some 0x5C else if e = 0x2F then some 0x2F
  else if e = 0x62 then some 0x08 else if e = 0x66 then some 0x0C
  else if e = 0x6E then some 0x0A else if e = 0x72 then some 0x0D
  else if e = 0x74 then some 0x09 else none

def isSurrogate (r : Nat) : Bool := 0xD800 ≤ r && r < 0xE000

/-- `utf16.DecodeRune`, without its replacement of an invalid pair. -/
def joinSurrogates (r1 r2 : Nat) : Option Nat :=
  if 0xD800 ≤ r1 ∧ r1 < 0xDC00 ∧ 0xDC00 ≤ r2 ∧ r2 < 0xE000 then
    some ((r1 - 0xD800) * 1024 + (r2 - 0xDC00) + 0x10000)
  else none

/-- The rune of a `\uXXXX` escape at the head of the text. -/
def hexEscape : Bytes → Option Nat
  | b :: u :: h1 :: h2 :: h3 :: h4 :: _ =>
    if b = 0x5C ∧ u = 0x75 then hexRune h1 h2 h3 h4 else none
  | _ => none

/-- What an escape sequence stands for and how many bytes it takes. A surrogate that no
second escape completes stands for U+FFFD. -/
def escape (s : Bytes) : Option (Bytes × Nat) :=
  match (s.drop 1).head?.bind unescape with
  | some c => some ([c], 2)
  | none =>
    match hexEscape s with
    | none => none
    | some r =>
      if isSurrogate r then
        match (hexEscape (s.drop 6)).bind (joinSurrogates r) with
        | some joined => some (encodeRune joined, 12)
        | none => some (replacement, 6)
      else some (encodeRune r, 6)

def prepend (bs : Bytes) (result : Option (Bytes × Bytes)) : Option (Bytes × Bytes) :=
  result.map fun v => (bs ++ v.1, v.2)

/-- The rest of a string literal up to its closing quote: the decoded bytes and what
follows the quote. The first `skip` bytes belong to an escape already read, the next
`copy` bytes to a rune already read. -/
def parseChars : Nat → Nat → Bytes → Option (Bytes × Bytes)
  | _, _, [] => none
  | skip + 1, copy, _ :: rest => parseChars skip copy rest
  | 0, copy + 1, b :: rest => prepend [b] (parseChars 0 copy rest)
  | 0, 0, b :: rest =>
    if b = 0x22 then some ([], rest)
    else if b = 0x5C then
      match escape (b :: rest) with
      | some (out, w) => prepend out (parseChars (w - 1) 0 rest)
      | none => none
    else if b.toNat < 0x20 then none
    else
      match decodeRune (b :: rest) with
      | some (_, w) => prepend [b] (parseChars 0 (w - 1) rest)
      | none => prepend replacement (parseChars 0 0 rest)

example : parseChars 0 0 (ascii "a\\u00e9\\ud83d\\ude00\\n\" x") =
    some ([0x61, 0xC3, 0xA9, 0xF0, 0x9F, 0x98, 0x80, 0x0A], ascii " x") := by decide

/-! ## Round trip -/

@[simp] theorem prepend_some (bs out rest : Bytes) :
    prepend bs (some (out, rest)) = some (bs ++ out, rest) := rfl

theorem prepend_prepend (a b : Bytes) (v : Option (Bytes × Bytes)) :
    prepend a (prepend b v) = prepend (a ++ b) v := by
  cases v <;> simp [prepend]

theorem parseChars_skip (l rest : Bytes) :
    parseChars l.length 0 (l ++ rest) = parseChars 0 0 rest := by
  induction l with
  | nil => rfl
  | cons b l ih => simpa [parseChars] using ih

theorem parseChars_copy (l rest : Bytes) :
    parseChars 0 l.length (l ++ rest) = prepend l (parseChars 0 0 rest) := by
  induction l with
  | nil => cases h : parseChars 0 0 rest <;> simp [prepend, h]
  | cons b l ih =>
    rw [length_cons, cons_append, parseChars, ih, prepend_prepend]
    rfl

/-- An escape sequence is read as a whole. -/
theorem parseChars_escape {l out : Bytes} (rest : Bytes)
    (h : escape (0x5C :: l ++ rest) = some (out, l.length + 1)) :
    parseChars 0 0 (0x5C :: l ++ rest) = prepend out (parseChars 0 0 rest) := by
  rw [cons_append] at h ⊢
  rw [parseChars, if_neg (by decide), if_pos rfl, h]
  simp only [Nat.add_sub_cancel, parseChars_skip]

theorem hexValue_hexDigit : ∀ n < 16, hexValue (hexDigit n) = some n := by decide

theorem hexEscape_unicodeEscape {r : Nat} (hr : r < 0x10000) (rest : Bytes) :
    hexEscape (unicodeEscape r ++ rest) = some r := by
  have h : ∀ n, hexValue (hexDigit (n % 16)) = some (n % 16) :=
    fun n => hexValue_hexDigit _ (Nat.mod_lt n (by decide))
  simp only [unicodeEscape, cons_append, hexEscape, hexRune, h, and_self, if_true]
  show some ((((r / 4096 % 16) * 16 + r / 256 % 16) * 16 + r / 16 % 16) * 16 + r % 16) = some r
  congr 1
  omega

theorem parseChars_unicodeEscape {r : Nat} (hr : r < 0x10000) (hs : isSurrogate r = false)
    (rest : Bytes) :
    parseChars 0 0 (unicodeEscape r ++ rest) = prepend (encodeRune r) (parseChars 0 0 rest) := by
  apply parseChars_escape
  have h := hexEscape_unicodeEscape hr rest
  rw [unicodeEscape] at h
  simp only [cons_append, nil_append] at h ⊢
  simp [escape, h, hs, unescape]

theorem encodeRune_of_rune {r : Nat} {bs : Bytes} (h : Rune r bs) : encodeRune r = bs := by
  have ofNat_eq : ∀ (b : UInt8) (n : Nat), n = b.toNat → UInt8.ofNat n = b := by
    rintro b n rfl
    exact UInt8.ofNat_toNat
  cases h with
  | one h0 => simp [encodeRune, h0]
  | @two b0 b1 h0 h1 =>
    rw [isContinuation_iff] at h1
    rw [encodeRune, if_neg (by unfold low; omega), if_pos (by unfold low; omega),
      ofNat_eq b0 _ (by unfold low; omega), ofNat_eq b1 _ (by unfold low; omega)]
  | @three b0 b1 b2 h0 h1 h2 =>
    obtain ⟨h1, hE0, -⟩ := (isSecond_iff b0 b1).mp h1
    rw [isContinuation_iff] at h2
    rw [encodeRune, if_neg (by unfold low; omega), if_neg (by unfold low; omega),
      if_pos (by unfold low; omega), ofNat_eq b0 _ (by unfold low; omega),
      ofNat_eq b1 _ (by unfold low; omega), ofNat_eq b2 _ (by unfold low; omega)]
  | @four b0 b1 b2 b3 h0 h1 h2 h3 =>
    obtain ⟨h1, -, hF0, -⟩ := (isSecond_iff b0 b1).mp h1
    rw [isContinuation_iff] at h2 h3
    rw [encodeRune, if_neg (by unfold low; omega), if_neg (by unfold low; omega),
      if_neg (by unfold low; omega), ofNat_eq b0 _ (by unfold low; omega),
      ofNat_eq b1 _ (by unfold low; omega), ofNat_eq b2 _ (by unfold low; omega),
      ofNat_eq b3 _ (by unfold low; omega)]

/-- A rune whose first byte is no quote, backslash or control byte is read as it is. -/
theorem parseChars_rune {r : Nat} {b : UInt8} {tail : Bytes} (h : Rune r (b :: tail))
    (hquote : b ≠ 0x22) (hslash : b ≠ 0x5C) (hcontrol : ¬ b.toNat < 0x20) (rest : Bytes) :
    parseChars 0 0 (b :: tail ++ rest) = prepend (b :: tail) (parseChars 0 0 rest) := by
  have hdecode := decodeRune_append h rest
  rw [cons_append] at hdecode ⊢
  rw [parseChars, if_neg hquote, if_neg hslash, if_neg hcontrol, hdecode]
  simp only [length_cons, Nat.add_sub_cancel]
  rw [parseChars_copy, prepend_prepend]
  rfl

theorem unescape_of_shortEscape {b e : UInt8} (h : shortEscape b = some e) :
    unescape e = some b := by
  unfold shortEscape at h
  split_ifs at h with h1 h2 h3 h4 h5 h6 h7 <;> cases h <;> subst b <;> decide

theorem ne_of_toNat_ge {b c : UInt8} (hb : 0x80 ≤ b.toNat) (hc : c.toNat < 0x80) : b ≠ c := by
  rintro rfl
  omega

/-- Reading an encoded rune gives back its bytes. -/
theorem parseChars_encodePiece {r : Nat} {bs : Bytes} (h : Rune r bs) (rest : Bytes) :
    parseChars 0 0 (encodePiece (.rune r bs) ++ rest) = prepend bs (parseChars 0 0 rest) := by
  have verbatim : ∀ b tail, bs = b :: tail → 0x80 ≤ b.toNat →
      parseChars 0 0 (bs ++ rest) = prepend bs (parseChars 0 0 rest) := by
    rintro b tail rfl hb
    exact parseChars_rune h (ne_of_toNat_ge hb (by decide)) (ne_of_toNat_ge hb (by decide))
      (by omega) rest
  have separator : r = 0x2028 ∨ r = 0x2029 → parseChars 0 0 (unicodeEscape r ++ rest) =
      prepend bs (parseChars 0 0 rest) := by
    intro hr
    rw [parseChars_unicodeEscape (by omega) (by rcases hr with rfl | rfl <;> decide),
      encodeRune_of_rune h]
  cases h with
  | @one b h0 =>
    rw [encodePiece]
    split_ifs with hsafe
    · simp only [isHtmlSafe, Bool.and_eq_true, decide_eq_true_eq, bne_iff_ne] at hsafe
      exact parseChars_rune (.one h0) hsafe.1.1.1.1.2 hsafe.1.1.1.2 (by omega) rest
    · cases he : shortEscape b with
      | some e =>
        apply parseChars_escape
        simp [escape, unescape_of_shortEscape he]
      | none =>
        rw [parseChars_unicodeEscape (by omega), encodeRune_of_rune (.one h0)]
        simp only [isSurrogate, Bool.and_eq_false_iff, decide_eq_false_iff_not]
        omega
  | @two b0 | @three b0 | @four b0 =>
    rw [encodePiece]
    split_ifs with hr
    · exact separator hr
    · exact verbatim b0 _ rfl (by omega)
    · simp

/-- Reading an encoded string gives the string with its stray bytes replaced. -/
theorem parseChars_encodeChars (s rest : Bytes) :
    parseChars 0 0 (encodeChars s ++ 0x22 :: rest) = some (sanitize s, rest) := by
  induction s using pieces_induction with
  | nil => rfl
  | rune r bs tail hr ih =>
    rw [encodeChars, pieces_rune hr, flatMap_cons, append_assoc,
      parseChars_encodePiece hr, sanitize_rune hr]
    exact congrArg (prepend bs) ih
  | stray b tail hd ih =>
    rw [encodeChars, pieces_stray hd, flatMap_cons, append_assoc, sanitize_stray hd]
    have h := parseChars_unicodeEscape (r := 0xFFFD) (by decide) (by decide)
      ((pieces tail).flatMap encodePiece ++ 0x22 :: rest)
    exact h.trans (congrArg (prepend replacement) ih)

end HeyServer.Lib.Json
