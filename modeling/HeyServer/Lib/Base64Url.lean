import HeyServer.Lib.Base64

/-!
# Base64 in names

`base64.RawURLEncoding`: the alphabet for URLs and file names, without padding.
-/

namespace HeyServer.Lib.Base64
open List

/-- The character that stands for a character of the standard alphabet. -/
def toUrl (b : UInt8) : UInt8 := if b = 0x2B then 0x2D else if b = 0x2F then 0x5F else b

def fromUrl (b : UInt8) : UInt8 := if b = 0x2D then 0x2B else if b = 0x5F then 0x2F else b

def encodeRawUrl (s : Bytes) : Bytes := ((encode s).filter (· ≠ pad)).map toUrl

def decodeRawUrl (s : Bytes) : Option Bytes :=
  if s.any fun b => b = 0x2B || b = 0x2F then none else decodeRaw (s.map fromUrl)

theorem toUrl_encodeSextet : ∀ n < 64, fromUrl (toUrl (encodeSextet n)) = encodeSextet n ∧
    toUrl (encodeSextet n) ≠ 0x2B ∧ toUrl (encodeSextet n) ≠ 0x2F ∧
    0x20 < (toUrl (encodeSextet n)).toNat ∧ (toUrl (encodeSextet n)).toNat < 0x80 := by
  decide

variable (s : Bytes)

/-- Padding stands at the end only. -/
theorem encode_eq_unpadded :
    encode s = (encode s).filter (· ≠ pad) ++ List.replicate ((3 - s.length % 3) % 3) pad := by
  have hne : ∀ n < 64, decide (encodeSextet n ≠ pad) = true :=
    fun n hn => decide_eq_true (encodeSextet_ne_pad n hn)
  have hpad : decide (pad ≠ pad) = false := rfl
  induction s using encode.induct with
  | case1 => rfl
  | case2 x =>
    have hx := x.toNat_lt
    simp (disch := omega) only [encode, filter_cons, filter_nil, hne, hpad, if_true,
      length_cons, length_nil]
    rfl
  | case3 x y =>
    have hx := x.toNat_lt
    have hy := y.toNat_lt
    simp (disch := omega) only [encode, filter_cons, filter_nil, hne, hpad, if_true,
      length_cons, length_nil]
    rfl
  | case4 x y z rest ih =>
    have hx := x.toNat_lt
    have hy := y.toNat_lt
    have hz := z.toNat_lt
    have hlength : (3 - (x :: y :: z :: rest).length % 3) % 3 = (3 - rest.length % 3) % 3 := by
      simp only [length_cons]
      omega
    simp (disch := omega) only [encode, filter_cons, hne, if_true, hlength, cons_append,
      ← ih]

theorem mem_unpadded {s : Bytes} {b : UInt8} (hb : b ∈ (encode s).filter (· ≠ pad)) :
    ∃ n < 64, b = encodeSextet n := by
  obtain ⟨hmem, hne⟩ := mem_filter.mp hb
  exact (mem_encode hmem).resolve_left (of_decide_eq_true hne)

/-- The groups are completed again before they are decoded. -/
theorem decodeRaw_unpadded : decodeRaw ((encode s).filter (· ≠ pad)) = some s := by
  have hunpadded := encode_eq_unpadded s
  have hlength := congrArg length hunpadded
  rw [length_append, length_replicate, encode_length] at hlength
  have hbreaks : ((encode s).filter (· ≠ pad)).filter (fun b => !isLineBreak b) =
      (encode s).filter (· ≠ pad) := by
    apply filter_eq_self.mpr
    intro b hb
    exact (isPlain_encode (mem_filter.mp hb).1).1
  have hpad : ((encode s).filter (· ≠ pad)).contains pad = false := by
    rw [contains_eq_mem, decide_eq_false_iff_not]
    intro hmem
    exact of_decide_eq_true (mem_filter.mp hmem).2 rfl
  have hdecode := decodeGroups_encode s
  rw [decodeRaw, hbreaks, hpad, if_neg Bool.false_ne_true]
  rw [hunpadded] at hdecode
  generalize hk : (3 - s.length % 3) % 3 = k at hlength hdecode
  have hcases : k = 0 ∨ k = 1 ∨ k = 2 := by omega
  rcases hcases with rfl | rfl | rfl
  · rw [if_neg (by omega), if_neg (by omega)]
    simpa using hdecode
  · rw [if_neg (by omega), if_pos (by omega)]
    exact hdecode
  · rw [if_pos (by omega)]
    exact hdecode

theorem mem_encodeRawUrl {s : Bytes} {b : UInt8} (hb : b ∈ encodeRawUrl s) :
    0x20 < b.toNat ∧ b.toNat < 0x80 := by
  obtain ⟨c, hc, rfl⟩ := mem_map.mp hb
  obtain ⟨n, hn, rfl⟩ := mem_unpadded hc
  exact (toUrl_encodeSextet n hn).2.2.2

theorem decodeRawUrl_encodeRawUrl : decodeRawUrl (encodeRawUrl s) = some s := by
  have hback : (encodeRawUrl s).map fromUrl = (encode s).filter (· ≠ pad) := by
    rw [encodeRawUrl, map_map]
    conv_rhs => rw [← map_id ((encode s).filter (· ≠ pad))]
    apply map_congr_left
    intro b hb
    obtain ⟨n, hn, rfl⟩ := mem_unpadded hb
    exact (toUrl_encodeSextet n hn).1
  have hplain : (encodeRawUrl s).any (fun b => b = 0x2B || b = 0x2F) = false := by
    rw [any_eq_false]
    intro b hb
    obtain ⟨c, hc, rfl⟩ := mem_map.mp hb
    obtain ⟨n, hn, rfl⟩ := mem_unpadded hc
    obtain ⟨-, hplus, hslash, -⟩ := toUrl_encodeSextet n hn
    simp [hplus, hslash]
  rw [decodeRawUrl, hplain, if_neg Bool.false_ne_true, hback, decodeRaw_unpadded]

theorem length_encodeRawUrl_le : (encodeRawUrl s).length ≤ (s.length + 2) / 3 * 4 := by
  rw [encodeRawUrl, length_map, ← encode_length]
  exact length_filter_le _ _

example : encodeRawUrl (ascii "shop_1") = ascii "c2hvcF8x" ∧
    decodeRawUrl (ascii "YWI") = some (ascii "ab") := by
  decide

end HeyServer.Lib.Base64
