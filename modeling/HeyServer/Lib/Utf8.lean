import Mathlib.Data.UInt

/-!
# Byte strings and their UTF-8 reading

Strings are byte lists that need not be valid UTF-8. `pieces` cuts a string
into the runes and the stray bytes a range loop over it sees; rune lists,
validity and the replacement of stray bytes are read off the pieces.
-/

namespace HeyServer.Lib
open List Option

abbrev Bytes := List UInt8

instance lawfulBEqBytes : LawfulBEq Bytes := inferInstance

/-- The bytes of an ASCII literal. -/
def ascii (s : String) : Bytes := s.toList.map fun c => UInt8.ofNat c.toNat

/-- What holds of the 256 values of a byte holds of every byte. -/
theorem forall_byte {P : UInt8 → Prop} (h : ∀ n < 256, P (UInt8.ofNat n)) (b : UInt8) : P b := by
  have hb := h b.toNat b.toNat_lt
  rwa [UInt8.ofNat_toNat] at hb

namespace Utf8

/-- `10xxxxxx` -/
def isContinuation (b : UInt8) : Bool := 0x80 ≤ b.toNat && b.toNat ≤ 0xBF

/-- The second byte after `b0` in a sequence of three or four bytes: overlong forms,
surrogates and values above U+10FFFF are cut off here. -/
def isSecond (b0 b1 : UInt8) : Bool :=
  (if b0.toNat = 0xE0 then 0xA0 else if b0.toNat = 0xF0 then 0x90 else 0x80) ≤ b1.toNat &&
    b1.toNat ≤ (if b0.toNat = 0xED then 0x9F else if b0.toNat = 0xF4 then 0x8F else 0xBF)

theorem isContinuation_iff (b : UInt8) : isContinuation b = true ↔
    0x80 ≤ b.toNat ∧ b.toNat ≤ 0xBF := by
  simp [isContinuation]

theorem isSecond_iff (b0 b1 : UInt8) : isSecond b0 b1 = true ↔ (0x80 ≤ b1.toNat ∧ b1.toNat ≤ 0xBF) ∧
      (b0.toNat = 0xE0 → 0xA0 ≤ b1.toNat) ∧ (b0.toNat = 0xF0 → 0x90 ≤ b1.toNat) ∧
      (b0.toNat = 0xED → b1.toNat ≤ 0x9F) ∧ (b0.toNat = 0xF4 → b1.toNat ≤ 0x8F) := by
  rw [isSecond, Bool.and_eq_true, decide_eq_true_eq, decide_eq_true_eq]
  split_ifs <;> omega

/-- The low six bits of a continuation byte. -/
def low (b : UInt8) : Nat := b.toNat - 0x80

/-- The first rune with its width, or nothing when the first byte starts no rune. -/
def decodeRune : Bytes → Option (Nat × Nat)
  | [] => none
  | b0 :: rest =>
    if b0.toNat < 0x80 then some (b0.toNat, 1)
    else if 0xC2 ≤ b0.toNat ∧ b0.toNat ≤ 0xDF then
      match rest with
      | b1 :: _ =>
        if isContinuation b1 then some ((b0.toNat - 0xC0) * 64 + low b1, 2) else none
      | _ => none
    else if 0xE0 ≤ b0.toNat ∧ b0.toNat ≤ 0xEF then
      match rest with
      | b1 :: b2 :: _ =>
        if isSecond b0 b1 && isContinuation b2 then
          some (((b0.toNat - 0xE0) * 64 + low b1) * 64 + low b2, 3)
        else none
      | _ => none
    else if 0xF0 ≤ b0.toNat ∧ b0.toNat ≤ 0xF4 then
      match rest with
      | b1 :: b2 :: b3 :: _ =>
        if isSecond b0 b1 && isContinuation b2 && isContinuation b3 then
          some ((((b0.toNat - 0xF0) * 64 + low b1) * 64 + low b2) * 64 + low b3, 4)
        else none
      | _ => none
    else none

/-- Every successful decoding is one of the four sequence forms. -/
inductive Rune : Nat → Bytes → Prop
  | one {b0} (h0 : b0.toNat < 0x80) : Rune b0.toNat [b0]
  | two {b0 b1} (h0 : 0xC2 ≤ b0.toNat ∧ b0.toNat ≤ 0xDF) (h1 : isContinuation b1) :
      Rune ((b0.toNat - 0xC0) * 64 + low b1) [b0, b1]
  | three {b0 b1 b2} (h0 : 0xE0 ≤ b0.toNat ∧ b0.toNat ≤ 0xEF) (h1 : isSecond b0 b1)
      (h2 : isContinuation b2) :
      Rune (((b0.toNat - 0xE0) * 64 + low b1) * 64 + low b2) [b0, b1, b2]
  | four {b0 b1 b2 b3} (h0 : 0xF0 ≤ b0.toNat ∧ b0.toNat ≤ 0xF4) (h1 : isSecond b0 b1)
      (h2 : isContinuation b2) (h3 : isContinuation b3) :
      Rune ((((b0.toNat - 0xF0) * 64 + low b1) * 64 + low b2) * 64 + low b3) [b0, b1, b2, b3]

variable {r : Nat} {bs : Bytes} {b : UInt8}

theorem decodeRune_append (h : Rune r bs) (rest : Bytes) :
    decodeRune (bs ++ rest) = some (r, bs.length) := by
  cases h with
  | one h0 => simp [decodeRune, h0]
  | two h0 h1 =>
    have h : ¬ _ < 0x80 := Nat.not_lt.mpr (Nat.le_trans (by decide) h0.1)
    simp [decodeRune, h, h0, h1]
  | @three b0 b1 b2 h0 h1 h2 =>
    have h : ¬ b0.toNat < 0x80 := by omega
    have h' : ¬ (0xC2 ≤ b0.toNat ∧ b0.toNat ≤ 0xDF) := by omega
    simp [decodeRune, h, h', h0, h1, h2]
  | @four b0 b1 b2 b3 h0 h1 h2 h3 =>
    have h : ¬ b0.toNat < 0x80 := by omega
    have h' : ¬ (0xC2 ≤ b0.toNat ∧ b0.toNat ≤ 0xDF) := by omega
    have h'' : ¬ (0xE0 ≤ b0.toNat ∧ b0.toNat ≤ 0xEF) := by omega
    simp [decodeRune, h, h', h'', h0, h1, h2, h3]

theorem decodeRune_some {s : Bytes} {w : Nat} (h : decodeRune s = some (r, w)) :
    ∃ bs rest, Rune r bs ∧ bs.length = w ∧ s = bs ++ rest := by
  revert h
  fun_cases decodeRune s with
  | case2 b0 rest h0 =>
    rintro ⟨⟩
    exact ⟨[b0], rest, .one h0, rfl, rfl⟩
  | case3 b0 _ h0 b1 rest h1 =>
    intro h
    obtain ⟨rfl, rfl⟩ := Prod.mk.inj (some.inj h)
    exact ⟨[b0, b1], rest, .two h0 h1, rfl, rfl⟩
  | case6 b0 _ _ h0 b1 b2 rest h1 =>
    intro h
    obtain ⟨rfl, rfl⟩ := Prod.mk.inj (some.inj h)
    rw [Bool.and_eq_true] at h1
    exact ⟨[b0, b1, b2], rest, .three h0 h1.1 h1.2, rfl, rfl⟩
  | case9 b0 _ _ _ h0 b1 b2 b3 rest h1 =>
    intro h
    obtain ⟨rfl, rfl⟩ := Prod.mk.inj (some.inj h)
    rw [Bool.and_eq_true, Bool.and_eq_true] at h1
    exact ⟨[b0, b1, b2, b3], rest, .four h0 h1.1.1 h1.1.2 h1.2, rfl, rfl⟩
  | _ => rintro ⟨⟩

theorem Rune.length_pos (h : Rune r bs) : 0 < bs.length := by
  cases h <;> simp

/-- What a range loop sees: a rune with its bytes, or a byte that starts none. -/
inductive Piece
  | rune (r : Nat) (bytes : Bytes)
  | stray (b : UInt8)
  deriving DecidableEq

/-- The pieces of `s` after its first `skip` bytes. -/
def piecesFrom : Nat → Bytes → List Piece
  | _, [] => []
  | skip + 1, _ :: rest => piecesFrom skip rest
  | 0, b :: rest =>
    match decodeRune (b :: rest) with
    | some (r, w) => .rune r ((b :: rest).take w) :: piecesFrom (w - 1) rest
    | none => .stray b :: piecesFrom 0 rest

variable (s : Bytes)

def pieces : List Piece := piecesFrom 0 s

theorem piecesFrom_eq (skip : Nat) (s : Bytes) : piecesFrom skip s = pieces (s.drop skip) := by
  induction s generalizing skip with
  | nil => simp [piecesFrom, pieces]
  | cons b rest ih =>
    cases skip with
    | zero => rfl
    | succ skip => exact ih skip

@[simp] theorem pieces_nil : pieces [] = [] := rfl

theorem pieces_rune (h : Rune r bs) (rest : Bytes) :
    pieces (bs ++ rest) = .rune r bs :: pieces rest := by
  have hdecode := decodeRune_append h rest
  obtain ⟨b, tail, rfl⟩ := exists_cons_of_length_pos h.length_pos
  rw [cons_append] at hdecode ⊢
  rw [pieces, piecesFrom, hdecode]
  simp only [piecesFrom_eq]
  simp

theorem pieces_stray {rest : Bytes} (h : decodeRune (b :: rest) = none) :
    pieces (b :: rest) = .stray b :: pieces rest := by
  rw [pieces, piecesFrom, h, pieces]

/-- Induction along the pieces of a string. -/
theorem pieces_induction {P : Bytes → Prop} (nil : P [])
    (rune : ∀ r bs rest, Rune r bs → P rest → P (bs ++ rest))
    (stray : ∀ b rest, decodeRune (b :: rest) = none → P rest → P (b :: rest)) (s : Bytes) :
      P s := by
  induction hn : s.length using Nat.strong_induction_on generalizing s with
  | _ n ih =>
    cases s with
    | nil => exact nil
    | cons b rest =>
      cases hd : decodeRune (b :: rest) with
      | none =>
        refine stray b rest hd (ih rest.length ?_ rest rfl)
        rw [← hn, length_cons]
        exact Nat.lt_succ_self _
      | some v =>
        obtain ⟨r, w⟩ := v
        obtain ⟨bs, tail, hr, -, hs⟩ := decodeRune_some hd
        rw [hs]
        refine rune r bs tail hr (ih tail.length ?_ tail rfl)
        have := hr.length_pos
        rw [← hn, hs, length_append]
        omega

/-- The replacement character U+FFFD. -/
def replacement : Bytes := [0xEF, 0xBF, 0xBD]

namespace Piece

def value : Piece → Nat
  | rune r _ => r
  | stray _ => 0xFFFD

def isRune : Piece → Bool
  | rune _ _ => true
  | stray _ => false

/-- The bytes of the rune that stands for the piece. -/
def replaced : Piece → Bytes
  | rune _ bytes => bytes
  | stray _ => replacement

end Piece

/-- The runes a range loop over the string sees. -/
def runes : List Nat := (pieces s).map Piece.value

/-- `utf8.ValidString` -/
def valid : Bool := (pieces s).all Piece.isRune

/-- The string with each stray byte replaced by U+FFFD. -/
def sanitize : Bytes := (pieces s).flatMap Piece.replaced

theorem sanitize_rune (h : Rune r bs) (rest : Bytes) :
    sanitize (bs ++ rest) = bs ++ sanitize rest := by
  rw [sanitize, pieces_rune h, flatMap_cons]
  rfl

theorem sanitize_stray {rest : Bytes} (h : decodeRune (b :: rest) = none) :
    sanitize (b :: rest) = replacement ++ sanitize rest := by
  rw [sanitize, pieces_stray h, flatMap_cons]
  rfl

variable (s : Bytes)

theorem sanitize_of_valid (h : valid s) : sanitize s = s := by
  induction s using pieces_induction with
  | nil => rfl
  | rune r bs rest hr ih =>
    rw [sanitize_rune hr, ih]
    rw [valid, pieces_rune hr] at h
    simpa [valid, Piece.isRune] using h
  | stray b rest hd ih =>
    rw [valid, pieces_stray hd] at h
    simp [Piece.isRune] at h

/-- Bytes below 0x80 are their own runes. -/
theorem pieces_cons_ascii (hb : b.toNat < 0x80) (rest : Bytes) :
    pieces (b :: rest) = .rune b.toNat [b] :: pieces rest :=
  pieces_rune (.one hb) rest

/-- Behind its first byte a rune has no ASCII bytes. -/
theorem Rune.not_ascii_tail (h : Rune r (b :: bs)) : ∀ c ∈ bs, 0x80 ≤ c.toNat := by
  cases h with
  | one h0 => exact nofun
  | @two _ b1 h0 h1 =>
    intro c hc
    rw [mem_singleton.mp hc]
    exact ((isContinuation_iff b1).mp h1).1
  | @three _ b1 b2 h0 h1 h2 =>
    have hsecond := (isSecond_iff b b1).mp h1
    have hthird := (isContinuation_iff b2).mp h2
    simp only [forall_mem_cons]
    exact ⟨by omega, by omega, nofun⟩
  | @four _ b1 b2 b3 h0 h1 h2 h3 =>
    have hsecond := (isSecond_iff b b1).mp h1
    have hthird := (isContinuation_iff b2).mp h2
    have hfourth := (isContinuation_iff b3).mp h3
    simp only [forall_mem_cons]
    exact ⟨by omega, by omega, by omega, nofun⟩

/-- An ASCII byte ends whatever stands before it. -/
theorem pieces_append_ascii (hb : b.toNat < 0x80) (rest : Bytes) :
    pieces (s ++ b :: rest) = pieces s ++ pieces (b :: rest) := by
  induction s using pieces_induction with
  | nil => rfl
  | rune r bs tail hr ih =>
    rw [append_assoc, pieces_rune hr, pieces_rune hr, ih, cons_append]
  | stray c tail hstray ih =>
    have hstray' : decodeRune (c :: tail ++ b :: rest) = none := by
      cases hd : decodeRune (c :: tail ++ b :: rest) with
      | none => rfl
      | some v =>
        obtain ⟨bs, after, hr, -, hs⟩ := decodeRune_some hd
        rcases append_eq_append_iff.mp hs with ⟨more, rfl, hmore⟩ | ⟨more, hmore, -⟩
        · cases more with
          | nil =>
            have hdecoded := decodeRune_append hr []
            rw [append_nil, append_nil, hstray] at hdecoded
            cases hdecoded
          | cons b' more =>
            -- the ASCII byte would be inside a rune
            cases hmore
            have hlarge := hr.not_ascii_tail b
              (mem_append.mpr (.inr mem_cons_self))
            omega
        · rw [hmore, decodeRune_append hr more] at hstray
          cases hstray
    rw [cons_append] at hstray' ⊢
    rw [pieces_stray hstray', pieces_stray hstray, ih, cons_append]

theorem valid_of_ascii (h : ∀ b ∈ s, b.toNat < 0x80) : valid s := by
  induction s with
  | nil => rfl
  | cons b rest ih =>
    rw [valid, pieces_cons_ascii (h b (by simp))]
    exact ih fun c hc => h c (by simp [hc])

/-- A rune in the ASCII range is one byte. -/
theorem Rune.ascii (h : Rune r bs) (hr : r < 0x80) : ∀ b ∈ bs, b.toNat < 0x80 := by
  cases h with
  | one h0 => exact fun b hb => mem_singleton.mp hb ▸ h0
  | two h0 h1 => omega
  | @three b0 b1 b2 h0 h1 h2 =>
    have hsecond := (isSecond_iff b0 b1).mp h1
    unfold low at hr
    omega
  | @four b0 b1 b2 b3 h0 h1 h2 h3 =>
    have hsecond := (isSecond_iff b0 b1).mp h1
    unfold low at hr
    omega

/-- A string whose runes are ASCII is made of ASCII bytes. -/
theorem ascii_of_runes (h : ∀ r ∈ runes s, r < 0x80) : ∀ b ∈ s, b.toNat < 0x80 := by
  induction s using pieces_induction with
  | nil => exact nofun
  | rune r bs rest hr ih =>
    rw [runes, pieces_rune hr, map_cons, forall_mem_cons] at h
    exact forall_mem_append.mpr ⟨hr.ascii h.1, ih h.2⟩
  | stray b rest hd ih =>
    rw [runes, pieces_stray hd, map_cons, forall_mem_cons] at h
    have hvalue : 0xFFFD < 0x80 := h.1
    omega

/-- A replacement leaves a byte outside ASCII behind, so a string whose sanitized
form is ASCII was that form. -/
theorem eq_of_sanitize_ascii (h : ∀ b ∈ sanitize s, b.toNat < 0x80) : sanitize s = s := by
  induction s using pieces_induction with
  | nil => rfl
  | rune r bs rest hr ih =>
    rw [sanitize_rune hr] at h ⊢
    rw [ih fun b hb => h b (by simp [hb])]
  | stray b rest hd ih =>
    rw [sanitize_stray hd] at h
    exact absurd (h 0xEF (by simp [replacement])) (by decide)

/-- Replacing stray bytes never makes an ASCII text of another one. -/
theorem sanitize_eq_iff {s t : Bytes} (ht : ∀ b ∈ t, b.toNat < 0x80) : sanitize s = t ↔ s = t := by
  constructor
  · rintro rfl
    exact (eq_of_sanitize_ascii s ht).symm
  · rintro rfl
    exact sanitize_of_valid s (valid_of_ascii s ht)

end Utf8

end HeyServer.Lib
