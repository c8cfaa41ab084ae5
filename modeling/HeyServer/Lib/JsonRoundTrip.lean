import HeyServer.Lib.Json

/-!
# Reading back encoded JSON

Parsing what the encoder wrote returns the value, with stray bytes in its
strings replaced. A value whose strings are valid UTF-8 comes back unchanged.

## Implementation notes

`MarshalIndent` writes the same tokens with white space between them. Both texts are
cases of `encodeSpaced`, and the parser is only compared with that.
-/

namespace HeyServer.Lib.Json
open Utf8 List

/-! ## Numbers -/

/-- The text cannot continue a number literal. -/
def Stops (rest : Bytes) : Prop :=
  ∀ b ∈ rest.head?, isDigit b = false ∧ b ≠ 0x2E ∧ b ≠ 0x65 ∧ b ≠ 0x45

theorem stops_nil : Stops [] := by simp [Stops]

variable {b c : UInt8} {rest ws s : Bytes} {fuel depth : Nat}

theorem stops_cons (rest : Bytes)
    (h : isDigit b = false ∧ b ≠ 0x2E ∧ b ≠ 0x65 ∧ b ≠ 0x45) : Stops (b :: rest) := by
  simpa [Stops] using h

/-- The digits of a text end where a text that stops them begins. -/
theorem span_isDigit_append (l : Bytes) (h : Stops rest) :
    (l ++ rest).takeWhile isDigit = l.takeWhile isDigit ∧
      (l ++ rest).dropWhile isDigit = l.dropWhile isDigit ++ rest := by
  induction l with
  | nil =>
    cases rest with
    | nil => exact ⟨rfl, rfl⟩
    | cons b rest => simp [(h b rfl).1]
  | cons b l ih =>
    by_cases hb : isDigit b
    · simp [hb, ih]
    · simp [hb]

variable {l out rest tail : Bytes}

theorem parseInteger_append (h : parseInteger l = some (out, tail)) (hrest : Stops rest) :
    parseInteger (l ++ rest) = some (out, tail ++ rest) := by
  cases l with
  | nil => simp [parseInteger] at h
  | cons b l =>
    simp only [cons_append, parseInteger] at h ⊢
    split_ifs at h ⊢ with h0 hd
    · cases h
      rfl
    · cases h
      rw [(span_isDigit_append l hrest).1, (span_isDigit_append l hrest).2]

theorem parseDigits_append (h : parseDigits l = some (out, tail)) (hrest : Stops rest) :
    parseDigits (l ++ rest) = some (out, tail ++ rest) := by
  unfold parseDigits at h ⊢
  rw [(span_isDigit_append l hrest).1, (span_isDigit_append l hrest).2]
  split_ifs at h ⊢ with h0
  cases h
  rfl

theorem prepend_eq_some {bs : Bytes} {v : Option (Bytes × Bytes)}
    (h : prepend bs v = some (out, tail)) : ∃ o, v = some (o, tail) ∧ out = bs ++ o := by
  cases v with
  | none => simp [prepend] at h
  | some v =>
    cases h
    exact ⟨v.1, rfl, rfl⟩

theorem parseFraction_append (h : parseFraction l = some (out, tail)) (hrest : Stops rest) :
    parseFraction (l ++ rest) = some (out, tail ++ rest) := by
  cases l with
  | nil =>
    cases h
    cases rest with
    | nil => rfl
    | cons b rest => simp [parseFraction, (hrest b rfl).2.1]
  | cons b l =>
    simp only [cons_append, parseFraction] at h ⊢
    split_ifs at h ⊢ with h0
    · obtain ⟨o, ho, rfl⟩ := prepend_eq_some h
      rw [parseDigits_append ho hrest]
      rfl
    · cases h
      rfl

theorem parseExponent_append (h : parseExponent l = some (out, tail)) (hrest : Stops rest) :
    parseExponent (l ++ rest) = some (out, tail ++ rest) := by
  cases l with
  | nil =>
    cases h
    cases rest with
    | nil => rfl
    | cons b rest => simp [parseExponent, (hrest b rfl).2.2]
  | cons b l =>
    cases l with
    | nil =>
      simp only [parseExponent] at h
      split_ifs at h with h0
      cases h
      simp [parseExponent, h0]
    | cons c l =>
      simp only [cons_append, parseExponent] at h ⊢
      split_ifs at h ⊢ with h0 h1
      · obtain ⟨o, ho, rfl⟩ := prepend_eq_some h
        rw [parseDigits_append ho hrest]
        rfl
      · obtain ⟨o, ho, rfl⟩ := prepend_eq_some h
        have := parseDigits_append ho hrest
        rw [cons_append] at this
        rw [this]
        rfl
      · cases h
        rfl

theorem parseSign_append (hl : l ≠ []) :
    parseSign (l ++ rest) = ((parseSign l).1, (parseSign l).2 ++ rest) := by
  cases l with
  | nil => exact absurd rfl hl
  | cons b l =>
    simp only [cons_append, parseSign]
    split_ifs <;> rfl

/-- A number literal is read as a whole in front of a text that cannot continue it. -/
theorem parseNumber_append (h : isNumber l) (hrest : Stops rest) :
    parseNumber (l ++ rest) = some (l, rest) := by
  have h : parseNumber l = some (l, []) := by simpa [isNumber] using h
  have hl : l ≠ [] := by
    rintro rfl
    simp [parseNumber, parseSign, parseInteger] at h
  unfold parseNumber at h ⊢
  rw [parseSign_append hl]
  cases hi : parseInteger (parseSign l).2 with
  | none => simp [hi] at h
  | some i =>
    rw [hi] at h
    simp only [parseInteger_append hi hrest]
    cases hf : parseFraction i.2 with
    | none => simp [hf] at h
    | some f =>
      simp only [hf] at h
      obtain ⟨o, ho, hout⟩ := prepend_eq_some h
      simp only [parseFraction_append hf hrest, parseExponent_append ho hrest]
      rw [prepend_some, ← hout, nil_append]

/-! ## Values -/

mutual
/-- The value with the stray bytes of its strings replaced. -/
def sanitized : Json → Json
  | str s => str (sanitize s)
  | arr vs => arr (sanitizedItems vs)
  | obj ms => obj (sanitizedMembers ms)
  | v => v

def sanitizedItems : List Json → List Json
  | [] => []
  | v :: vs => sanitized v :: sanitizedItems vs

def sanitizedMembers : List (Bytes × Json) → List (Bytes × Json)
  | [] => []
  | (k, v) :: ms => (sanitize k, sanitized v) :: sanitizedMembers ms
end

mutual
/-- At most `depth` nested arrays and objects, and number literals that are numbers. -/
def fits : Nat → Json → Bool
  | _, num literal => isNumber literal
  | 0, arr _ => false
  | 0, obj _ => false
  | depth + 1, arr vs => fitsItems depth vs
  | depth + 1, obj ms => fitsMembers depth ms
  | _, _ => true

def fitsItems : Nat → List Json → Bool
  | _, [] => true
  | depth, v :: vs => fits depth v && fitsItems depth vs

def fitsMembers : Nat → List (Bytes × Json) → Bool
  | _, [] => true
  | depth, (_, v) :: ms => fits depth v && fitsMembers depth ms
end

/-- The first byte of a number literal is a digit or the minus sign. -/
theorem head_of_isNumber (h : isNumber l) :
    ∃ b t, l = b :: t ∧ 0x2D ≤ b.toNat ∧ b.toNat ≤ 0x39 := by
  have h : parseNumber l = some (l, []) := by simpa [isNumber] using h
  cases l with
  | nil => simp [parseNumber, parseSign, parseInteger] at h
  | cons b t =>
    refine ⟨b, t, rfl, ?_⟩
    by_cases hb : b = 0x2D
    · subst hb
      decide
    · by_cases hd : isDigit b
      · simp only [isDigit, Bool.and_eq_true, decide_eq_true_eq] at hd
        omega
      · have h0 : b ≠ 0x30 := by
          rintro rfl
          exact hd (by decide)
        simp [parseNumber, parseSign, parseInteger, hb, h0, hd] at h

/-- Bytes outside the range of number heads differ from them. -/
theorem ne_of_numberHead (hb : 0x2D ≤ b.toNat ∧ b.toNat ≤ 0x39)
    (hc : c.toNat < 0x2D ∨ 0x39 < c.toNat) : b ≠ c := by
  rintro rfl
  omega

theorem isSpace_numberHead (hb : 0x2D ≤ b.toNat ∧ b.toNat ≤ 0x39) :
    isSpace b = false := by
  have h : ∀ c : UInt8, c.toNat < 0x2D → b ≠ c := fun c hc => ne_of_numberHead hb (.inl hc)
  simp [isSpace, h 0x20 (by decide), h 0x09 (by decide), h 0x0D (by decide), h 0x0A (by decide)]

theorem skipSpace_cons (hb : isSpace b = false) (s : Bytes) :
    skipSpace (b :: s) = b :: s := by
  simp [skipSpace, hb]

theorem parseScalar_number (h : isNumber l) (hrest : Stops rest) :
    parseScalar (l ++ rest) = some (num l, rest) := by
  obtain ⟨b, t, rfl, hb⟩ := head_of_isNumber h
  have hword : ∀ (c : UInt8) (word : Bytes), 0x39 < c.toNat → ¬ c :: word <+: b :: t ++ rest :=
    fun c word hc hp => ne_of_numberHead hb (.inr hc) (cons_prefix_cons.mp hp).1.symm
  have hnull : ¬ ascii "null" <+: b :: t ++ rest := hword 0x6E _ (by decide)
  have htrue : ¬ ascii "true" <+: b :: t ++ rest := hword 0x74 _ (by decide)
  have hfalse : ¬ ascii "false" <+: b :: t ++ rest := hword 0x66 _ (by decide)
  rw [parseScalar, if_neg hnull, if_neg htrue, if_neg hfalse, parseNumber_append h hrest]
  rfl

/-- A scalar that starts with none of the bytes the parser branches on. -/
theorem parseValue_scalar {t : Bytes} (hfuel : 0 < fuel)
    (hspace : isSpace b = false) (hb : b ≠ 0x22 ∧ b ≠ 0x5B ∧ b ≠ 0x7B) :
    parseValue fuel depth (b :: t) = parseScalar (b :: t) := by
  obtain ⟨fuel, rfl⟩ := Nat.exists_eq_succ_of_ne_zero hfuel.ne'
  rw [parseValue, skipSpace_cons hspace]
  simp [hb]

theorem parseKey_encode (k rest : Bytes) :
    parseKey (encodeString k ++ 0x3A :: rest) = some (sanitize k, rest) := by
  rw [encodeString, cons_append, append_assoc, parseKey, skipSpace_cons (by decide)]
  simp only [if_true, singleton_append, parseChars_encodeChars]
  rfl

/-! ## Texts with white space -/

section Spaced
variable (sp : Nat → Bytes) (colon : Bytes)

mutual
/-- The text of a value at a depth: `sp` stands before an item or a closing bracket of that depth,
`colon` follows a colon. -/
def encodeSpaced : Nat → Json → Bytes
  | _, null => ascii "null"
  | _, bool b => if b then ascii "true" else ascii "false"
  | _, num literal => literal
  | _, str s => encodeString s
  | _, arr [] => [0x5B, 0x5D]
  | d, arr (v :: vs) => 0x5B :: (sp (d + 1) ++ (encodeSpaced (d + 1) v ++ spacedItems d vs))
  | _, obj [] => [0x7B, 0x7D]
  | d, obj ((k, v) :: ms) =>
    0x7B :: (sp (d + 1) ++ (encodeString k ++
      0x3A :: (colon ++ (encodeSpaced (d + 1) v ++ spacedMembers d ms))))

def spacedItems : Nat → List Json → Bytes
  | d, [] => sp d ++ [0x5D]
  | d, v :: vs => 0x2C :: (sp (d + 1) ++ (encodeSpaced (d + 1) v ++ spacedItems d vs))

def spacedMembers : Nat → List (Bytes × Json) → Bytes
  | d, [] => sp d ++ [0x7D]
  | d, (k, v) :: ms =>
    0x2C :: (sp (d + 1) ++ (encodeString k ++
      0x3A :: (colon ++ (encodeSpaced (d + 1) v ++ spacedMembers d ms))))
end

end Spaced

/-- The white space `json.Indent` puts before an item at a depth. -/
def indentation (d : Nat) : Bytes := 0x0A :: List.replicate (2 * d) 0x20

variable (v : Json)

/-- `json.MarshalIndent` without a first part of each line and with two spaces for a depth. -/
def encodeIndent : Bytes := encodeSpaced indentation [0x20] 0 v

theorem isSpace_indentation (d : Nat) : ∀ b ∈ indentation d, isSpace b = true := by
  intro b hb
  rcases mem_cons.mp hb with rfl | hb
  · rfl
  · rw [eq_of_mem_replicate hb]
    rfl

mutual
/-- The encoder writes no white space. -/
theorem encode_eq_spaced : (v : Json) → (d : Nat) → encode v = encodeSpaced (fun _ => []) [] d v
  | null, _ | bool _, _ | num _, _ | str _, _ | arr [], _ => by rw [encode, encodeSpaced]
  | arr (v :: vs), d => by
      rw [encode, encodeSpaced, encode_eq_spaced v (d + 1), encodeItems_eq_spaced vs d]
      rfl
  | obj [], _ => by rw [encode, encodeSpaced]
  | obj ((k, v) :: ms), d => by
      rw [encode, encodeSpaced, encode_eq_spaced v (d + 1), encodeMembers_eq_spaced ms d]
      rfl

theorem encodeItems_eq_spaced : (vs : List Json) → (d : Nat) →
    encodeItems vs = spacedItems (fun _ => []) [] d vs
  | [], _ => by rw [encodeItems, spacedItems, List.nil_append]
  | v :: vs, d => by
      rw [encodeItems, spacedItems, encode_eq_spaced v (d + 1), encodeItems_eq_spaced vs d]
      rfl

theorem encodeMembers_eq_spaced : (ms : List (Bytes × Json)) → (d : Nat) →
    encodeMembers ms = spacedMembers (fun _ => []) [] d ms
  | [], _ => by rw [encodeMembers, spacedMembers, List.nil_append]
  | (k, v) :: ms, d => by
      rw [encodeMembers, spacedMembers, encode_eq_spaced v (d + 1), encodeMembers_eq_spaced ms d]
      rfl
end

section
variable (h : ∀ b ∈ ws, isSpace b = true)
include h

theorem skipSpace_append (s : Bytes) :
    skipSpace (ws ++ s) = skipSpace s :=
  dropWhile_append_of_pos h

theorem parseValue_append (fuel depth : Nat) (s : Bytes) :
    parseValue fuel depth (ws ++ s) = parseValue fuel depth s := by
  cases fuel with
  | zero => rw [parseValue, parseValue]
  | succ fuel => rw [parseValue, parseValue, skipSpace_append h]

theorem parseKey_append (s : Bytes) :
    parseKey (ws ++ s) = parseKey s := by
  rw [parseKey, parseKey, skipSpace_append h]

end

/-- An array that is not empty is read item by item. -/
theorem parseValue_array (hs : skipSpace s = c :: rest) (hc : c ≠ 0x5D) :
    parseValue (fuel + 1) (depth + 1) (0x5B :: s) =
      (parseItems fuel depth s).map fun v => (arr v.1, v.2) := by
  rw [parseValue, skipSpace_cons (by decide)]
  simp [hs, hc]

theorem parseValue_object (hs : skipSpace s = c :: rest) (hc : c ≠ 0x7D) :
    parseValue (fuel + 1) (depth + 1) (0x7B :: s) =
      (parseMembers fuel depth s).map fun v => (obj v.1, v.2) := by
  rw [parseValue, skipSpace_cons (by decide)]
  simp [hs, hc]

section
variable (h : ∀ b ∈ ws, isSpace b = true)
include h

theorem parseItems_append (fuel depth : Nat) (s : Bytes) :
    parseItems fuel depth (ws ++ s) = parseItems fuel depth s := by
  cases fuel with
  | zero => rw [parseItems, parseItems]
  | succ fuel => rw [parseItems, parseItems, parseValue_append h]

theorem parseMembers_append (fuel depth : Nat)
    (s : Bytes) : parseMembers fuel depth (ws ++ s) = parseMembers fuel depth s := by
  cases fuel with
  | zero => rw [parseMembers, parseMembers]
  | succ fuel => rw [parseMembers, parseMembers, parseKey_append h]

theorem stops_of_space (hs : Stops s) :
    Stops (ws ++ s) := by
  cases ws with
  | nil => exact hs
  | cons b ws =>
    apply stops_cons
    have hb := h b mem_cons_self
    simp only [isSpace, Bool.or_eq_true, decide_eq_true_eq] at hb
    rcases hb with ((rfl | rfl) | rfl) | rfl <;> decide

end

section Reading
variable (sp : Nat → Bytes) (colon : Bytes)

/-- Every encoded value starts with a byte that is no space and closes nothing. -/
theorem head_of_spaced {depth : Nat} (v : Json) (d : Nat) (h : fits depth v) :
    ∃ b t, encodeSpaced sp colon d v = b :: t ∧ isSpace b = false ∧ b ≠ 0x5D ∧ b ≠ 0x7D := by
  cases v with
  | bool b => cases b <;> exact ⟨_, _, by rw [encodeSpaced]; rfl, by decide⟩
  | num l =>
    obtain ⟨b, t, rfl, hb⟩ := head_of_isNumber (by simpa [fits] using h)
    exact ⟨b, t, by rw [encodeSpaced], isSpace_numberHead hb,
      ne_of_numberHead hb (.inr (by decide)),
      ne_of_numberHead hb (.inr (by decide))⟩
  | null | str s => exact ⟨_, _, by rw [encodeSpaced]; rfl, by decide⟩
  | arr vs => cases vs <;> exact ⟨_, _, by rw [encodeSpaced], by decide⟩
  | obj ms => cases ms <;> exact ⟨_, _, by rw [encodeSpaced], by decide⟩

theorem spacedItems_length_pos (d : Nat) (vs : List Json) :
    0 < (spacedItems sp colon d vs).length := by
  cases vs <;> simp [spacedItems]

/-- What the encoder puts between the parts of a value is white space. -/
structure Blank : Prop where
  indent : ∀ d, ∀ b ∈ sp d, isSpace b = true
  colon : ∀ b ∈ colon, isSpace b = true

variable {sp colon} (hsp : Blank sp colon)
include hsp

theorem spacedItems_stops (d : Nat) (vs : List Json) (rest : Bytes) :
    Stops (spacedItems sp colon d vs ++ rest) := by
  cases vs with
  | nil =>
    rw [spacedItems, append_assoc]
    exact stops_of_space (hsp.indent d) (stops_cons _ (by decide))
  | cons v vs =>
    exact stops_cons _ (by decide)

theorem spacedMembers_stops (d : Nat) (ms : List (Bytes × Json)) (rest : Bytes) :
    Stops (spacedMembers sp colon d ms ++ rest) := by
  cases ms with
  | nil =>
    rw [spacedMembers, append_assoc]
    exact stops_of_space (hsp.indent d) (stops_cons _ (by decide))
  | cons m ms =>
    exact stops_cons _ (by decide)

mutual
/-- The parser undoes the encoder in front of any text that cannot continue a number. -/
theorem parseValue_spaced : (v : Json) → (fuel d : Nat) → {depth : Nat} → {rest : Bytes} →
    (encodeSpaced sp colon d v).length ≤ fuel → fits depth v → Stops rest →
    parseValue fuel depth (encodeSpaced sp colon d v ++ rest) = some (sanitized v, rest)
  | null, fuel, d, depth, rest, hfuel, _, _ => by
      rw [encodeSpaced] at hfuel ⊢
      exact (parseValue_scalar (Nat.lt_of_lt_of_le (by decide) hfuel) (by decide)
        (by decide)).trans rfl
  | bool b, fuel, d, depth, rest, hfuel, _, _ => by
      rw [encodeSpaced] at hfuel ⊢
      cases b <;> exact (parseValue_scalar (Nat.lt_of_lt_of_le (by decide) hfuel) (by decide)
        (by decide)).trans rfl
  | num l, fuel, d, depth, rest, hfuel, hfits, hrest => by
      have hnum : isNumber l := by simpa [fits] using hfits
      rw [encodeSpaced] at hfuel ⊢
      refine Eq.trans ?_ (parseScalar_number hnum hrest)
      obtain ⟨b, t, rfl, hb⟩ := head_of_isNumber hnum
      exact parseValue_scalar (Nat.lt_of_lt_of_le (Nat.succ_pos _) hfuel)
        (isSpace_numberHead hb) ⟨ne_of_numberHead hb (.inl (by decide)),
          ne_of_numberHead hb (.inr (by decide)), ne_of_numberHead hb (.inr (by decide))⟩
  | str s, fuel, d, depth, rest, hfuel, _, _ => by
      rw [encodeSpaced, encodeString] at hfuel ⊢
      obtain ⟨fuel, rfl⟩ := Nat.exists_eq_succ_of_ne_zero (n := fuel) (by
        rintro rfl
        simp at hfuel)
      rw [cons_append, append_assoc, parseValue, skipSpace_cons (by decide)]
      simp [parseChars_encodeChars, sanitized]
  | arr _, fuel, d, 0, rest, hfuel, hfits, _ | obj _, fuel, d, 0, rest, hfuel, hfits, _ => by
      simp [fits] at hfits
  | arr [], fuel, d, depth + 1, rest, hfuel, hfits, _
  | obj [], fuel, d, depth + 1, rest, hfuel, hfits, _ => by
      obtain ⟨fuel, rfl⟩ := Nat.exists_eq_succ_of_ne_zero (n := fuel) (by
        rintro rfl
        simp [encodeSpaced] at hfuel)
      rfl
  | arr (v :: vs), fuel, d, depth + 1, rest, hfuel, hfits, _ => by
      simp only [encodeSpaced, length_cons, length_append] at hfuel ⊢
      simp only [fits, fitsItems, Bool.and_eq_true] at hfits
      have hpos := spacedItems_length_pos sp colon d vs
      obtain ⟨fuel, rfl⟩ : ∃ f, fuel = f + 2 := ⟨fuel - 2, by omega⟩
      have hv := parseValue_spaced v fuel (d + 1) (by omega) hfits.1
        (spacedItems_stops hsp d vs rest)
      have hvs := parseItems_spaced vs d hv (by omega) hfits.2
      obtain ⟨b, t, hb, hspace, hclose, -⟩ := head_of_spaced sp colon v (d + 1) hfits.1
      have hhead : skipSpace (sp (d + 1) ++ (encodeSpaced sp colon (d + 1) v ++
          (spacedItems sp colon d vs ++ rest))) =
            b :: (t ++ (spacedItems sp colon d vs ++ rest)) := by
        rw [skipSpace_append (hsp.indent _), hb, cons_append, skipSpace_cons hspace]
      simp only [cons_append, append_assoc]
      rw [parseValue_array hhead hclose, parseItems_append (hsp.indent _), hvs, sanitized,
        sanitizedItems]
      rfl
  | obj ((k, v) :: ms), fuel, d, depth + 1, rest, hfuel, hfits, _ => by
      simp only [encodeSpaced, length_cons, length_append] at hfuel ⊢
      simp only [fits, fitsMembers, Bool.and_eq_true] at hfits
      obtain ⟨fuel, rfl⟩ : ∃ f, fuel = f + 2 := ⟨fuel - 2, by omega⟩
      have hv := parseValue_spaced v fuel (d + 1) (by omega) hfits.1
        (spacedMembers_stops hsp d ms rest)
      have hms := parseMembers_spaced ms d (parseKey_encode k _)
        ((parseValue_append hsp.colon _ _ _).trans hv) (by omega) hfits.2
      have hhead : ∀ more, skipSpace (sp (d + 1) ++ (encodeString k ++ more)) =
          0x22 :: (encodeChars k ++ [0x22] ++ more) := by
        intro more
        rw [skipSpace_append (hsp.indent _), encodeString, cons_append, skipSpace_cons (by decide)]
      simp only [cons_append, append_assoc]
      rw [parseValue_object (hhead _) (by decide), parseMembers_append (hsp.indent _), hms,
        sanitized,
        sanitizedMembers]
      rfl

theorem parseItems_spaced : (vs : List Json) → (d : Nat) → {fuel depth : Nat} → {v : Json} →
    {s rest : Bytes} → parseValue fuel depth s = some (v, spacedItems sp colon d vs ++ rest) →
    (spacedItems sp colon d vs).length ≤ fuel + 1 → fitsItems depth vs →
    parseItems (fuel + 1) depth s = some (v :: sanitizedItems vs, rest)
  | [], d, fuel, depth, v, s, rest, hv, _, _ => by
      rw [spacedItems, List.append_assoc] at hv
      rw [parseItems, hv]
      simp only
      rw [skipSpace_append (hsp.indent d)]
      rfl
  | w :: ws, d, fuel, depth, v, s, rest, hv, hfuel, hfits => by
      rw [spacedItems] at hv hfuel
      rw [fitsItems, Bool.and_eq_true] at hfits
      simp only [List.length_cons, List.length_append] at hfuel
      have hpos := spacedItems_length_pos sp colon d ws
      obtain ⟨fuel, rfl⟩ := Nat.exists_eq_succ_of_ne_zero (n := fuel) (by omega)
      have hw := parseValue_spaced w fuel (d + 1) (by omega) hfits.1
        (spacedItems_stops hsp d ws rest)
      have hws := parseItems_spaced ws d ((parseValue_append (hsp.indent (d + 1)) _ _ _).trans hw)
        (by omega)
        hfits.2
      rw [parseItems, hv]
      simp only [cons_append, append_assoc]
      rw [skipSpace_cons (by decide)]
      simp [hws, sanitizedItems]

theorem parseMembers_spaced : (ms : List (Bytes × Json)) → (d : Nat) → {fuel depth : Nat} →
    {k : Bytes} → {v : Json} → {s t rest : Bytes} → parseKey s = some (k, t) →
    parseValue fuel depth t = some (v, spacedMembers sp colon d ms ++ rest) →
    (spacedMembers sp colon d ms).length ≤ fuel + 1 → fitsMembers depth ms →
    parseMembers (fuel + 1) depth s = some ((k, v) :: sanitizedMembers ms, rest)
  | [], d, fuel, depth, k, v, s, t, rest, hk, hv, _, _ => by
      rw [spacedMembers, List.append_assoc] at hv
      simp only [parseMembers, hk, hv]
      rw [skipSpace_append (hsp.indent d)]
      rfl
  | (j, w) :: ms, d, fuel, depth, k, v, s, t, rest, hk, hv, hfuel, hfits => by
      rw [spacedMembers] at hv hfuel
      rw [fitsMembers, Bool.and_eq_true] at hfits
      simp only [List.length_cons, List.length_append] at hfuel
      obtain ⟨fuel, rfl⟩ := Nat.exists_eq_succ_of_ne_zero (n := fuel) (by omega)
      have hw := parseValue_spaced w fuel (d + 1) (by omega) hfits.1
        (spacedMembers_stops hsp d ms rest)
      have hkey : ∀ more, parseKey (sp (d + 1) ++ (encodeString j ++ 0x3A :: more)) =
          some (sanitize j, more) :=
        fun more => (parseKey_append (hsp.indent (d + 1)) _).trans (parseKey_encode j more)
      have hms := parseMembers_spaced ms d (hkey _) ((parseValue_append hsp.colon _ _ _).trans hw)
        (by omega)
        hfits.2
      rw [parseMembers, hk]
      simp only [hv, cons_append, append_assoc]
      rw [skipSpace_cons (by decide)]
      simp [hms, sanitizedMembers]
end

theorem parse_spaced_append (v : Json) (h : fits maxNestingDepth v) {rest : Bytes}
    (hstops : Stops rest)
    (hspace : skipSpace rest = []) :
    parse (encodeSpaced sp colon 0 v ++ rest) = some (sanitized v) := by
  have hv := parseValue_spaced hsp v ((encodeSpaced sp colon 0 v ++ rest).length + 1) 0
    (by rw [length_append]; omega) h hstops
  rw [parse, hv]
  exact if_pos hspace

end Reading

section
variable (h : fits maxNestingDepth v)
include h

/-- Parsing the encoding of a value gives the value back, stray bytes replaced. White space
may follow it. -/
theorem parse_encode_append
    (hstops : Stops rest) (hspace : skipSpace rest = []) :
    parse (encode v ++ rest) = some (sanitized v) := by
  have hempty : ∀ b ∈ ([] : Bytes), isSpace b = true := fun b hb => by cases hb
  rw [encode_eq_spaced v 0]
  exact parse_spaced_append ⟨fun _ => hempty, hempty⟩ v h hstops hspace

theorem parse_encode : parse (encode v) = some (sanitized v) := by
  have hv := parse_encode_append v h stops_nil rfl
  rwa [append_nil] at hv

/-- What `MarshalIndent` wrote, with a line feed after it, is read back as well. -/
theorem parse_encodeIndent : parse (encodeIndent v ++ [0x0A]) = some (sanitized v) := by
  have hspace : ∀ b ∈ ([0x20] : Bytes), isSpace b = true := by
    intro b hb
    rw [mem_singleton.mp hb]
    rfl
  exact parse_spaced_append ⟨isSpace_indentation, hspace⟩ v h (stops_cons _ (by decide)) (by decide)

end

end HeyServer.Lib.Json
