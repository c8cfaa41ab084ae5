import HeyServer.Lib.Utf8

/-!
# Base64

`base64.StdEncoding`: the standard alphabet with padding. Decoding ignores line
breaks and the unused bits of a padded group, as the non-strict decoder does.
-/

namespace HeyServer.Lib.Base64
open List

def isLineBreak (b : UInt8) : Bool := b = 0x0A || b = 0x0D

/-- The character of a six-bit value. -/
def encodeSextet (n : Nat) : UInt8 :=
  UInt8.ofNat (if n < 26 then 0x41 + n else if n < 52 then 0x47 + n
    else if n < 62 then n - 4 else if n = 62 then 0x2B else 0x2F)

def decodeSextet (b : UInt8) : Option Nat :=
  if 0x41 ≤ b.toNat ∧ b.toNat ≤ 0x5A then some (b.toNat - 0x41)
  else if 0x61 ≤ b.toNat ∧ b.toNat ≤ 0x7A then some (b.toNat - 0x47)
  else if 0x30 ≤ b.toNat ∧ b.toNat ≤ 0x39 then some (b.toNat + 4)
  else if b = 0x2B then some 62 else if b = 0x2F then some 63 else none

def pad : UInt8 := 0x3D

/-- `base64.StdEncoding.EncodeToString` -/
def encode : Bytes → Bytes
  | [] => []
  | [x] => [encodeSextet (x.toNat / 4), encodeSextet (x.toNat % 4 * 16), pad, pad]
  | [x, y] =>
    [encodeSextet (x.toNat / 4), encodeSextet (x.toNat % 4 * 16 + y.toNat / 16),
      encodeSextet (y.toNat % 16 * 4), pad]
  | x :: y :: z :: rest =>
    encodeSextet (x.toNat / 4) :: encodeSextet (x.toNat % 4 * 16 + y.toNat / 16) ::
      encodeSextet (y.toNat % 16 * 4 + z.toNat / 64) :: encodeSextet (z.toNat % 64) ::
      encode rest

def first (a b : Nat) : UInt8 := UInt8.ofNat (a * 4 + b / 16)

def second (b c : Nat) : UInt8 := UInt8.ofNat (b % 16 * 16 + c / 4)

def third (c d : Nat) : UInt8 := UInt8.ofNat (c % 4 * 64 + d)

/-- Groups of four characters; only the last one may be padded. -/
def decodeGroups : Bytes → Option Bytes
  | [] => some []
  | a :: b :: c :: d :: rest =>
    if d = pad then
      if rest ≠ [] then none
      else if c = pad then do return [first (← decodeSextet a) (← decodeSextet b)]
      else do
        let b ← decodeSextet b
        let c ← decodeSextet c
        return [first (← decodeSextet a) b, second b c]
    else do
      let b ← decodeSextet b
      let c ← decodeSextet c
      return first (← decodeSextet a) b :: second b c :: third c (← decodeSextet d) ::
        (← decodeGroups rest)
  | _ => none

/-- `base64.StdEncoding.DecodeString` -/
def decode (s : Bytes) : Option Bytes := decodeGroups (s.filter fun b => !isLineBreak b)

example : encode (ascii "ab") = ascii "YWI=" ∧ decode (ascii "YW\nJj") = some (ascii "abc") := by
  decide

/-- `base64.RawStdEncoding.DecodeString`: the same groups without their padding. -/
def decodeRaw (s : Bytes) : Option Bytes :=
  let text := s.filter fun b => !isLineBreak b
  if text.contains pad then none
  else if text.length % 4 = 2 then decodeGroups (text ++ [pad, pad])
  else if text.length % 4 = 3 then decodeGroups (text ++ [pad])
  else decodeGroups text

theorem decodeSextet_encodeSextet : ∀ n < 64, decodeSextet (encodeSextet n) = some n := by
  decide

theorem encodeSextet_ne_pad : ∀ n < 64, encodeSextet n ≠ pad := by decide

/-- The characters an encoding is made of. -/
def isPlain (b : UInt8) : Bool := !isLineBreak b && b.toNat < 0x80

theorem isPlain_encodeSextet : ∀ n < 64, isPlain (encodeSextet n) = true := by decide

variable (x y z : UInt8)

theorem first_eq {b : Nat} (hb : b / 16 = x.toNat % 4) : first (x.toNat / 4) b = x := by
  rw [first, hb, Nat.div_add_mod', UInt8.ofNat_toNat]

theorem second_eq {b c : Nat} (hb : b % 16 = y.toNat / 16) (hc : c / 4 = y.toNat % 16) :
    second b c = y := by
  rw [second, hb, hc, Nat.div_add_mod', UInt8.ofNat_toNat]

theorem third_eq {c : Nat} (hc : c % 4 = z.toNat / 64) : third c (z.toNat % 64) = z := by
  rw [third, hc, Nat.div_add_mod', UInt8.ofNat_toNat]

variable (s : Bytes)

theorem decodeGroups_encode : decodeGroups (encode s) = some s := by
  induction s using encode.induct with
  | case1 => rfl
  | case2 x =>
    have hx := x.toNat_lt
    simp (disch := omega) [encode, decodeGroups, decodeSextet_encodeSextet, first_eq x]
  | case3 x y =>
    have hx := x.toNat_lt
    have hy := y.toNat_lt
    simp (disch := omega) [encode, decodeGroups, encodeSextet_ne_pad, decodeSextet_encodeSextet,
      first_eq x, second_eq y]
  | case4 x y z rest ih =>
    have hx := x.toNat_lt
    have hy := y.toNat_lt
    have hz := z.toNat_lt
    simp (disch := omega) [encode, decodeGroups, ih, encodeSextet_ne_pad, decodeSextet_encodeSextet,
      first_eq x, second_eq y, third_eq z]

theorem mem_encode {s : Bytes} {b : UInt8} (hb : b ∈ encode s) :
    b = pad ∨ ∃ n < 64, b = encodeSextet n := by
  induction s using encode.induct with
  | case1 => cases hb
  | case2 x =>
    have hx := x.toNat_lt
    simp only [encode, mem_cons, not_mem_nil, or_false] at hb
    rcases hb with rfl | rfl | rfl | rfl
    · exact .inr ⟨_, by omega, rfl⟩
    · exact .inr ⟨_, by omega, rfl⟩
    · exact .inl rfl
    · exact .inl rfl
  | case3 x y =>
    have hx := x.toNat_lt
    have hy := y.toNat_lt
    simp only [encode, mem_cons, not_mem_nil, or_false] at hb
    rcases hb with rfl | rfl | rfl | rfl
    · exact .inr ⟨_, by omega, rfl⟩
    · exact .inr ⟨_, by omega, rfl⟩
    · exact .inr ⟨_, by omega, rfl⟩
    · exact .inl rfl
  | case4 x y z rest ih =>
    have hx := x.toNat_lt
    have hy := y.toNat_lt
    have hz := z.toNat_lt
    simp only [encode, mem_cons] at hb
    rcases hb with rfl | rfl | rfl | rfl | hb
    · exact .inr ⟨_, by omega, rfl⟩
    · exact .inr ⟨_, by omega, rfl⟩
    · exact .inr ⟨_, by omega, rfl⟩
    · exact .inr ⟨_, by omega, rfl⟩
    · exact ih hb

theorem isPlain_encode {s : Bytes} {b : UInt8} (hb : b ∈ encode s) :
    (!isLineBreak b) = true ∧ b.toNat < 0x80 := by
  have hplain : isPlain b = true := by
    rcases mem_encode hb with rfl | ⟨n, hn, rfl⟩
    · decide
    · exact isPlain_encodeSextet n hn
  rw [isPlain, Bool.and_eq_true] at hplain
  exact ⟨hplain.1, of_decide_eq_true hplain.2⟩

theorem encode_ascii : ∀ b ∈ encode s, b.toNat < 0x80 :=
  fun _ hb => (isPlain_encode hb).2

/-- Decoding an encoding gives the bytes back. -/
theorem decode_encode : decode (encode s) = some s := by
  have hfilter : (encode s).filter (fun b => !isLineBreak b) = encode s :=
    filter_eq_self.mpr fun b hb => (isPlain_encode hb).1
  rw [decode, hfilter, decodeGroups_encode]

theorem encode_length : (encode s).length = (s.length + 2) / 3 * 4 := by
  induction s using encode.induct with
  | case1 => rfl
  | case2 | case3 => simp [encode]
  | case4 x y z rest ih =>
    simp only [encode, length_cons, ih]
    omega

end HeyServer.Lib.Base64
