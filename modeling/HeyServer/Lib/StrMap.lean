import HeyServer.Lib.JsonRoundTrip
import Mathlib.Data.List.Lex

/-!
# String maps

A string map is kept as its entries in byte order of the keys, which is the
order in which they are marshalled. The order of the entries is part of the
type, so equal maps are equal values.
-/

namespace HeyServer.Lib
open List

instance linearOrderUInt8 : LinearOrder UInt8 where
  le_refl := UInt8.le_refl
  le_trans _ _ _ := UInt8.le_trans
  lt_iff_le_not_ge a b := by
    rw [UInt8.not_le]
    exact ⟨fun h => ⟨UInt8.le_of_lt h, h⟩, fun h => h.2⟩
  le_antisymm _ _ := UInt8.le_antisymm
  le_total := UInt8.le_total
  toDecidableLE := inferInstance

/-- `map[string]string` -/
@[ext] structure StrMap where
  entries : List (Bytes × Bytes)
  sorted : entries.Pairwise fun a b => a.1 < b.1

namespace StrMap

instance : DecidableEq StrMap := fun a b =>
  decidable_of_iff (a.entries = b.entries) StrMap.ext_iff.symm

def empty : StrMap := ⟨[], .nil⟩

def lookup (m : StrMap) (key : Bytes) : Option Bytes := m.entries.lookup key

/-- `m[key]`, which is the empty string for a missing key. -/
def get (m : StrMap) (key : Bytes) : Bytes := (m.lookup key).getD []

def size (m : StrMap) : Nat := m.entries.length

def insertEntry (key value : Bytes) : List (Bytes × Bytes) → List (Bytes × Bytes)
  | [] => [(key, value)]
  | e :: rest =>
    if key < e.1 then (key, value) :: e :: rest
    else if key = e.1 then (key, value) :: rest
    else e :: insertEntry key value rest

variable {key : Bytes} {l : List (Bytes × Bytes)} {m : StrMap}

theorem mem_insertEntry {value : Bytes} {e : Bytes × Bytes}
    (h : e ∈ insertEntry key value l) : e = (key, value) ∨ e ∈ l := by
  induction l with
  | nil => simpa [insertEntry] using h
  | cons d l ih =>
    simp only [insertEntry] at h
    split_ifs at h with hlt heq
    · simpa using h
    · rcases mem_cons.mp h with h | h
      · exact .inl h
      · exact .inr (mem_cons_of_mem _ h)
    · rcases mem_cons.mp h with h | h
      · exact .inr (by simp [h])
      · exact (ih h).imp_right (mem_cons_of_mem _)

theorem insertEntry_sorted (key value : Bytes) (h : l.Pairwise fun a b => a.1 < b.1) :
    (insertEntry key value l).Pairwise fun a b => a.1 < b.1 := by
  induction l with
  | nil => simp [insertEntry]
  | cons d l ih =>
    obtain ⟨hd, hl⟩ := pairwise_cons.mp h
    simp only [insertEntry]
    split_ifs with hlt heq
    · refine pairwise_cons.mpr ⟨fun e he => ?_, h⟩
      rcases mem_cons.mp he with rfl | he
      · exact hlt
      · exact hlt.trans (hd e he)
    · exact pairwise_cons.mpr ⟨fun e he => by simpa [heq] using hd e he, hl⟩
    · refine pairwise_cons.mpr ⟨fun e he => ?_, ih hl⟩
      rcases mem_insertEntry he with rfl | he
      · exact lt_of_le_of_ne (not_lt.mp hlt) (Ne.symm heq)
      · exact hd e he

def insert (m : StrMap) (key value : Bytes) : StrMap :=
  ⟨insertEntry key value m.entries, insertEntry_sorted key value m.sorted⟩

/-- `delete(m, key)` -/
def erase (m : StrMap) (key : Bytes) : StrMap :=
  ⟨m.entries.filter (·.1 ≠ key), m.sorted.filter _⟩

/-- The map that the entries leave when they are assigned in order. -/
def ofList (l : List (Bytes × Bytes)) : StrMap :=
  l.foldl (fun m e => m.insert e.1 e.2) empty

theorem insertEntry_of_last (key value : Bytes)
    (h : ∀ e ∈ l, e.1 < key) : insertEntry key value l = l ++ [(key, value)] := by
  induction l with
  | nil => rfl
  | cons d l ih =>
    have hd := h d (by simp)
    rw [insertEntry, if_neg hd.asymm, if_neg hd.ne', ih fun e he => h e (by simp [he])]
    rfl

variable (l : List (Bytes × Bytes))

theorem foldl_insert_entries (m : StrMap) (h : (m.entries ++ l).Pairwise fun a b => a.1 < b.1) :
    (l.foldl (fun m e => m.insert e.1 e.2) m).entries = m.entries ++ l := by
  induction l generalizing m with
  | nil => simp
  | cons e l ih =>
    have hlast : (m.insert e.1 e.2).entries = m.entries ++ [e] :=
      insertEntry_of_last _ _ fun d hd => (pairwise_append.mp h).2.2 d hd e (by simp)
    rw [foldl_cons, ih, hlast, append_assoc]
    · rfl
    · rw [hlast, append_assoc]
      exact h

@[simp] theorem ofList_entries (m : StrMap) : ofList m.entries = m :=
  StrMap.ext (foldl_insert_entries m.entries empty m.sorted)

/-! ## JSON -/

def toJson (m : StrMap) : Json := .obj (m.entries.map fun e => (e.1, .str e.2))

/-- `json.Marshal` of a string map. -/
def marshal (m : StrMap) : Bytes := m.toJson.encode

/-- One value of a string map: `null` leaves the zero value. -/
def ofJsonValue : Json → Option Bytes
  | .str s => some s
  | .null => some []
  | _ => none

/-- A JSON value decoded into a nil string map: later members replace earlier ones. -/
def ofJson : Json → Option StrMap
  | .obj ms => (ms.mapM fun e => (ofJsonValue e.2).map fun v => (e.1, v)).map ofList
  | .null => some empty
  | _ => none

/-- `json.Unmarshal` into a nil string map. -/
def unmarshal (text : Bytes) : Option StrMap := (Json.parse text).bind ofJson

open Json Utf8

theorem fitsMembers_strings (depth : Nat) (l : List (Bytes × Bytes)) :
    fitsMembers depth (l.map fun e => (e.1, .str e.2)) = true := by
  induction l with
  | nil => rfl
  | cons e l ih => simp [fitsMembers, fits, ih]

theorem sanitizedMembers_strings : sanitizedMembers (l.map fun e => (e.1, .str e.2)) =
      l.map fun e => (sanitize e.1, .str (sanitize e.2)) := by
  induction l with
  | nil => rfl
  | cons e l ih => simp [sanitizedMembers, sanitized, ih]

section
variable (m : StrMap)

/-- A marshalled map parses to its own members, stray bytes replaced. -/
theorem parse_marshal : Json.parse m.marshal =
      some (.obj (m.entries.map fun e => (sanitize e.1, .str (sanitize e.2)))) := by
  rw [marshal, parse_encode]
  · rw [toJson, sanitized, sanitizedMembers_strings]
  · rw [toJson, maxNestingDepth, fits]
    exact fitsMembers_strings _ _

/-- The map with the stray bytes of its entries replaced; keys that become equal are assigned in
order. -/
def readBack : StrMap := ofList (m.entries.map fun e => (sanitize e.1, sanitize e.2))

theorem ofJson_strings : ofJson (.obj (l.map fun e => (e.1, .str e.2))) = some (ofList l) := by
  have h : (l.map fun e => ((e.1, .str e.2) : Bytes × Json)).mapM
      (fun e => (ofJsonValue e.2).map fun v => (e.1, v)) = some l := by
    induction l with
    | nil => rfl
    | cons e l ih =>
      rw [map_cons, mapM_cons, ih]
      rfl
  rw [ofJson, h]
  rfl

/-- Every marshalled map can be read. -/
theorem unmarshal_marshal : unmarshal m.marshal = some m.readBack := by
  have h := ofJson_strings (m.entries.map fun e => (sanitize e.1, sanitize e.2))
  rw [map_map] at h
  rw [unmarshal, parse_marshal]
  exact h

theorem lookup_cons_eq (e : Bytes × Bytes) (l : List (Bytes × Bytes)) (k : Bytes) :
    (e :: l).lookup k = if k = e.1 then some e.2 else l.lookup k := by
  rw [lookup_cons]
  split_ifs with h
  · simp [h]
  · rw [beq_false_of_ne h]

theorem lookup_insertEntry (key value k : Bytes) (l : List (Bytes × Bytes)) :
    (insertEntry key value l).lookup k = if k = key then some value else l.lookup k := by
  fun_induction insertEntry key value l with
  | case1 | case2 => exact lookup_cons_eq _ _ _
  | case3 e _ _ heq =>
    rw [lookup_cons_eq, lookup_cons_eq, ← heq]
    split_ifs <;> rfl
  | case4 e l _ heq ih =>
    rw [lookup_cons_eq, lookup_cons_eq, ih]
    split_ifs with h h'
    · exact absurd (h'.symm.trans h) heq
    all_goals rfl

theorem insertEntry_ne_nil (key value : Bytes) (l : List (Bytes × Bytes)) :
    insertEntry key value l ≠ [] := by
  fun_cases insertEntry key value l <;> exact cons_ne_nil _ _

theorem lookup_insert (key value : Bytes) :
    (m.insert key value).lookup = Function.update m.lookup key (some value) := by
  funext k
  rw [Function.update_apply]
  exact lookup_insertEntry key value k m.entries

theorem lookup_erase (key : Bytes) : (m.erase key).lookup = Function.update m.lookup key none := by
  funext k
  rw [Function.update_apply]
  show (m.entries.filter _).lookup k = if k = key then none else m.entries.lookup k
  induction m.entries with
  | nil => exact (ite_self _).symm
  | cons e l ih =>
    rw [filter_cons, lookup_cons_eq]
    by_cases he : e.1 = key
    · rw [if_neg (by simpa using he), ih, he]
      split_ifs <;> rfl
    · rw [if_pos (by simpa using he), lookup_cons_eq, ih]
      split_ifs with hk hkey
      · exact absurd (hk.symm.trans hkey) he
      all_goals rfl

/-- The last value assigned to a key. -/
theorem lookup_ofList (k : Bytes) : (ofList l).lookup k = l.reverse.lookup k := by
  induction l using reverseRecOn with
  | nil => rfl
  | append_singleton l e ih =>
    have hlast : ofList (l ++ [e]) = (ofList l).insert e.1 e.2 := by
      rw [ofList, foldl_append]
      rfl
    rw [hlast, reverse_concat, lookup_cons_eq, ← ih]
    exact lookup_insertEntry e.1 e.2 k _

theorem lookup_sanitize (hkey : ∀ b ∈ key, b.toNat < 0x80) (l : List (Bytes × Bytes)) :
    (l.map fun e => (sanitize e.1, sanitize e.2)).lookup key = (l.lookup key).map sanitize := by
  induction l with
  | nil => rfl
  | cons e l ih =>
    have hiff : key = sanitize e.1 ↔ key = e.1 := by rw [eq_comm, sanitize_eq_iff hkey, eq_comm]
    rw [map_cons, lookup_cons_eq, lookup_cons_eq, ih, if_congr hiff rfl rfl]
    split_ifs <;> rfl

/-- What is read back under an ASCII key is what was stored, stray bytes replaced. -/
theorem get_readBack (hkey : ∀ b ∈ key, b.toNat < 0x80) :
    m.readBack.get key = sanitize (m.get key) := by
  have hlookup : m.readBack.lookup key = (m.lookup key).map sanitize := by
    calc m.readBack.lookup key
        = (m.entries.reverse.map fun e => (sanitize e.1, sanitize e.2)).lookup key := by
          rw [readBack, lookup_ofList, map_reverse]
      _ = ((ofList m.entries).lookup key).map sanitize := by
          rw [lookup_sanitize hkey, lookup_ofList]
      _ = (m.lookup key).map sanitize := by rw [ofList_entries]
  rw [get, get, hlookup]
  cases m.lookup key <;> rfl

/-- Keys and values are valid UTF-8. -/
def Valid : Prop := ∀ e ∈ m.entries, valid e.1 ∧ valid e.2

end

theorem Valid.map_sanitize (h : m.Valid) :
    (m.entries.map fun e => (sanitize e.1, sanitize e.2)) = m.entries := by
  refine (map_congr_left fun e he => ?_).trans (map_id _)
  rw [sanitize_of_valid _ (h e he).1, sanitize_of_valid _ (h e he).2]
  rfl

theorem unmarshal_marshal_of_valid (h : m.Valid) : unmarshal m.marshal = some m := by
  rw [unmarshal_marshal, readBack, h.map_sanitize, ofList_entries]

/-- Keys and values are ASCII. -/
def Ascii (m : StrMap) : Prop :=
  ∀ e ∈ m.entries, (∀ b ∈ e.1, b.toNat < 0x80) ∧ ∀ b ∈ e.2, b.toNat < 0x80

theorem Ascii.valid (h : m.Ascii) : m.Valid := fun e he =>
  ⟨valid_of_ascii _ (h e he).1, valid_of_ascii _ (h e he).2⟩

/-- No other map is marshalled to the text of an ASCII map. -/
theorem eq_of_marshal_eq {n : StrMap} (h : m.marshal = n.marshal) (hn : n.Ascii) : m = n := by
  have hparse := m.parse_marshal
  rw [h, parse_marshal] at hparse
  have hmap : (n.entries.map fun e => (sanitize e.1, sanitize e.2)) =
      m.entries.map fun e => (sanitize e.1, sanitize e.2) := by
    have hfields := Json.obj.inj (Option.some.inj hparse)
    have := congrArg (map fun f : Bytes × Json => (f.1, (ofJsonValue f.2).getD [])) hfields
    rw [map_map, map_map] at this
    exact this
  have hclean := hn.valid.map_sanitize
  have hsame : (m.entries.map fun e => (sanitize e.1, sanitize e.2)) = m.entries := by
    refine (map_congr_left fun e he => ?_).trans (map_id _)
    have hmem : (sanitize e.1, sanitize e.2) ∈ n.entries := by
      rw [← hclean, hmap]
      exact mem_map_of_mem he
    have hascii := hn _ hmem
    rw [eq_of_sanitize_ascii _ hascii.1, eq_of_sanitize_ascii _ hascii.2]
    rfl
  apply StrMap.ext
  rw [← hsame, ← hmap, hclean]

end StrMap

end HeyServer.Lib
