import HeyServer.Lib.Utf8
import Mathlib.Data.List.TakeWhile

/-!
# Text and path functions

The functions of the packages `strings`, `unicode` and `path/filepath` that the
program calls, over byte strings.
-/

namespace HeyServer.Lib.Text
open Utf8 List

/-- `strings.Split` with a one-byte separator. -/
def split (sep : UInt8) : Bytes → List Bytes
  | [] => [[]]
  | b :: rest =>
    if b = sep then [] :: split sep rest
    else
      match split sep rest with
      | [] => [[b]]
      | w :: ws => (b :: w) :: ws

variable {s c path : Bytes} {sep : UInt8} {kept parts : List Bytes}

theorem split_ne_nil (sep : UInt8) (s : Bytes) : split sep s ≠ [] := by
  fun_cases split sep s <;> exact cons_ne_nil _ _

/-- Every byte is a separator or lies in a part. -/
theorem mem_split (sep : UInt8) {b : UInt8} (h : b ∈ s) :
    b = sep ∨ ∃ part ∈ split sep s, b ∈ part := by
  fun_induction split sep s with
  | case1 => cases h
  | case2 rest ih =>
    rcases mem_cons.mp h with rfl | h
    · exact .inl rfl
    · obtain hb | ⟨part, hpart, hb⟩ := ih h
      · exact .inl hb
      · exact .inr ⟨part, mem_cons_of_mem _ hpart, hb⟩
  | case3 _ rest _ hnil => exact absurd hnil (split_ne_nil sep rest)
  | case4 c rest hsep w ws hrest ih =>
    rw [hrest] at ih
    rcases mem_cons.mp h with rfl | h
    · exact .inr ⟨b :: w, by simp, by simp⟩
    · obtain hb | ⟨part, hpart, hb⟩ := ih h
      · exact .inl hb
      · rcases mem_cons.mp hpart with rfl | hpart
        · exact .inr ⟨c :: part, by simp, mem_cons_of_mem _ hb⟩
        · exact .inr ⟨part, mem_cons_of_mem _ hpart, hb⟩

theorem not_mem_of_mem_split {part : Bytes} (h : part ∈ split sep s) : sep ∉ part := by
  fun_induction split sep s generalizing part with
  | case1 =>
    rw [mem_singleton.mp h]
    simp
  | case2 rest ih =>
    rcases mem_cons.mp h with rfl | h
    · simp
    · exact ih h
  | case3 _ rest _ hnil => exact absurd hnil (split_ne_nil sep rest)
  | case4 c rest hsep w ws hrest ih =>
    rw [hrest] at ih
    rcases mem_cons.mp h with rfl | h
    · rw [mem_cons, not_or]
      exact ⟨Ne.symm hsep, ih mem_cons_self⟩
    · exact ih (mem_cons_of_mem _ h)

/-- `strings.Join` with a one-byte separator. -/
def join (sep : UInt8) : List Bytes → Bytes
  | [] => []
  | [w] => w
  | w :: ws => w ++ sep :: join sep ws

/-- `[a-zA-Z0-9]` -/
def isAlnum (b : UInt8) : Bool :=
  (0x61 ≤ b && b ≤ 0x7A) || (0x41 ≤ b && b ≤ 0x5A) || (0x30 ≤ b && b ≤ 0x39)

/-- An ASCII letter in upper case, any other byte as it is. -/
def upperByte (b : UInt8) : UInt8 := if 0x61 ≤ b ∧ b ≤ 0x7A then b - 0x20 else b

/-- ASCII letters in lower case, other bytes as they are. -/
def toLower (s : Bytes) : Bytes := s.map fun b => if 0x41 ≤ b ∧ b ≤ 0x5A then b + 0x20 else b

/-- `strings.Trim` with one byte to cut. -/
def trimByte (cut : UInt8) (s : Bytes) : Bytes :=
  ((s.dropWhile (· = cut)).reverse.dropWhile (· = cut)).reverse

/-- `unicode.IsSpace` -/
def isSpaceRune (r : Nat) : Bool :=
  (0x09 ≤ r && r ≤ 0x0D) || r = 0x20 || r = 0x85 || r = 0xA0 || r = 0x1680 ||
    (0x2000 ≤ r && r ≤ 0x200A) || r = 0x2028 || r = 0x2029 || r = 0x202F || r = 0x205F ||
    r = 0x3000

/-- `unicode.IsControl` -/
def isControlRune (r : Nat) : Bool := r < 0x20 || (0x7F ≤ r && r < 0xA0)

/-- The bytes a piece was read from. -/
def pieceBytes : Piece → Bytes
  | .rune _ bytes => bytes
  | .stray b => [b]

/-- `strings.TrimSpace` -/
def trimSpace (s : Bytes) : Bytes :=
  let isSpace : Piece → Bool := fun p => isSpaceRune p.value
  ((((pieces s).dropWhile isSpace).reverse.dropWhile isSpace).reverse).flatMap pieceBytes

/-- Some rune of the string is a control character. -/
def containsControl (s : Bytes) : Bool := (runes s).any isControlRune

/-- The number of words `strings.Fields` splits a string into. -/
def fieldCount (s : Bytes) : Nat :=
  ((runes s).foldl
    (fun (acc : Nat × Bool) r =>
      if isSpaceRune r then (acc.1, false) else (if acc.2 then acc.1 else acc.1 + 1, true))
    (0, false)).1

/-- The words of a list of pieces, with the one that is being read. -/
def fieldsFrom : Bytes → List Piece → List Bytes
  | word, [] => if word = [] then [] else [word]
  | word, p :: rest =>
    if isSpaceRune p.value then
      if word = [] then fieldsFrom [] rest else word :: fieldsFrom [] rest
    else fieldsFrom (word ++ pieceBytes p) rest

/-- `strings.Fields` -/
def fields (s : Bytes) : List Bytes := fieldsFrom [] (pieces s)

example : fields (ascii " v1,a  v1,b") = [ascii "v1,a", ascii "v1,b"] := by decide

/-- `strings.ContainsAny` with ASCII characters. -/
def containsAny (s chars : Bytes) : Bool := s.any fun b => chars.contains b

/-- `strings.TrimPrefix` -/
def trimPrefix (s start : Bytes) : Bytes := if start.isPrefixOf s then s.drop start.length else s

/-! ## Trimming -/

/-- Dropping stops at the latest where the test fails. -/
theorem dropWhile_append_of_neg {α : Type} {p : α → Bool} {a : List α} {m : α} {b : List α}
    (hm : p m = false) : ∃ a', (a ++ m :: b).dropWhile p = a' ++ m :: b := by
  induction a with
  | nil => exact ⟨[], by simp [hm]⟩
  | cons x xs ih =>
    by_cases hx : p x = true
    · obtain ⟨a', ha'⟩ := ih
      exact ⟨a', by rw [cons_append, dropWhile_cons_of_pos hx, ha']⟩
    · exact ⟨x :: xs, by rw [cons_append, dropWhile_cons_of_neg hx]⟩

/-- Dropping from both ends stops at the elements that are not dropped. -/
theorem trim_append_of_neg {α : Type} {p : α → Bool} {a b c : List α} {m x : α} (hm : p m = false)
    (hx : p x = false) : ∃ left right, ((a ++ m :: (b ++ x :: c)).dropWhile p).reverse.dropWhile p =
      (left ++ m :: (b ++ x :: right)).reverse := by
  obtain ⟨left, hleft⟩ := dropWhile_append_of_neg hm
  obtain ⟨right, hright⟩ := dropWhile_append_of_neg (a := c.reverse)
    (b := (left ++ m :: b).reverse) hx
  have hreverse : (left ++ m :: (b ++ x :: c)).reverse =
      c.reverse ++ x :: (left ++ m :: b).reverse := by simp
  refine ⟨left, right.reverse, ?_⟩
  rw [hleft, hreverse, hright]
  simp

/-- The pieces of ASCII bytes before any text. -/
theorem pieces_ascii_append (hs : ∀ b ∈ s, b.toNat < 0x80) (t : Bytes) :
    pieces (s ++ t) = (s.map fun b => Piece.rune b.toNat [b]) ++ pieces t := by
  induction s with
  | nil => rfl
  | cons b rest ih =>
    obtain ⟨hb, hrest⟩ := forall_mem_cons.mp hs
    rw [cons_append, pieces_cons_ascii hb, ih hrest, map_cons, cons_append]

theorem flatMap_pieceBytes_ascii (s : Bytes) :
    (s.map fun b => Piece.rune b.toNat [b]).flatMap pieceBytes = s := by
  induction s with
  | nil => rfl
  | cons b rest ih =>
    rw [map_cons, flatMap_cons, ih]
    rfl

/-- ASCII text without white space is left as it is. -/
theorem trimSpace_eq_self (hascii : ∀ b ∈ s, b.toNat < 0x80)
    (hspace : ∀ b ∈ s, isSpaceRune b.toNat = false) : trimSpace s = s := by
  have hpieces : pieces s = s.map fun b => Piece.rune b.toNat [b] := by
    simpa using pieces_ascii_append hascii []
  have hkeep : ∀ xs : List Piece, (∀ x ∈ xs, isSpaceRune x.value = false) →
      xs.dropWhile (fun p => isSpaceRune p.value) = xs := by
    intro xs hxs
    cases xs with
    | nil => rfl
    | cons x xs => exact dropWhile_cons_of_neg (Bool.eq_false_iff.mp (hxs x mem_cons_self))
  have hnone : ∀ x ∈ pieces s, isSpaceRune x.value = false := by
    intro x hx
    rw [hpieces] at hx
    obtain ⟨b, hb, rfl⟩ := mem_map.mp hx
    exact hspace b hb
  rw [trimSpace, hkeep _ hnone, hkeep _ fun x hx => hnone x (mem_reverse.mp hx),
    reverse_reverse, hpieces, flatMap_pieceBytes_ascii]

/-- Trimming leaves what stands between two characters that are not white space. -/
theorem mem_trimSpace (s : Bytes) {m : UInt8} {middle t : Bytes}
    (hascii : ∀ b ∈ m :: middle, b.toNat < 0x80) (hm : isSpaceRune m.toNat = false)
    (ht : trimSpace t ≠ []) : m :: middle <:+: trimSpace (s ++ (m :: middle ++ t)) := by
  -- the text after the middle has a last character that is not white space
  have hlast : ∃ x ∈ pieces t, isSpaceRune x.value = false := by
    by_contra hnone
    refine ht ?_
    have hall : (pieces t).dropWhile (fun p => isSpaceRune p.value) = [] := by
      refine dropWhile_eq_nil_iff.mpr fun x hx => ?_
      by_contra hx'
      exact hnone ⟨x, hx, Bool.eq_false_iff.mpr hx'⟩
    rw [trimSpace, hall]
    rfl
  obtain ⟨x, hx, hspace⟩ := hlast
  obtain ⟨before, after, hpieces⟩ := append_of_mem hx
  have hsplit : pieces (s ++ (m :: middle ++ t)) = pieces s ++ Piece.rune m.toNat [m] ::
      (((middle.map fun b => Piece.rune b.toNat [b]) ++ before) ++ x :: after) := by
    rw [cons_append, pieces_append_ascii s (hascii m mem_cons_self), ← cons_append,
      pieces_ascii_append hascii, hpieces, map_cons, cons_append, append_assoc]
  obtain ⟨left, right, htrim⟩ := trim_append_of_neg (p := fun p : Piece => isSpaceRune p.value)
    (a := pieces s) (m := Piece.rune m.toNat [m]) hm hspace
  rw [trimSpace, hsplit, htrim, reverse_reverse]
  refine ⟨left.flatMap pieceBytes, (before ++ x :: right).flatMap pieceBytes, ?_⟩
  rw [← flatMap_pieceBytes_ascii (m :: middle)]
  simp

/-! ## Paths -/

def dot : Bytes := [0x2E]

def dotdot : Bytes := [0x2E, 0x2E]

/-- One component of a path on the components kept so far, the last one first. -/
def pushComponent (rooted : Bool) (kept : List Bytes) (c : Bytes) : List Bytes :=
  if c = [] ∨ c = dot then kept
  else if c = dotdot then
    match kept with
    | [] => if rooted then [] else [c]
    | top :: rest => if top = dotdot then c :: kept else rest
  else c :: kept

section
variable (path : Bytes)

/-- `filepath.IsAbs` -/
def isAbs : Bool := path.head? = some 0x2F

/-- `filepath.Clean` -/
def clean : Bytes :=
  let kept := ((split 0x2F path).foldl (pushComponent (isAbs path)) []).reverse
  if isAbs path then 0x2F :: join 0x2F kept
  else if kept = [] then dot else join 0x2F kept

/-- The components `Clean` keeps. -/
def components : List Bytes :=
  ((split 0x2F path).foldl (pushComponent (isAbs path)) []).reverse

/-- The absolute path with these components. -/
def absolute (names : List Bytes) : Bytes := 0x2F :: join 0x2F names

/-- `filepath.Base` of a path that is not empty. -/
def base : Bytes := (((split 0x2F path).filter (· ≠ [])).getLast?).getD [0x2F]

end

/-- `filepath.Join` of two parts that are not empty. -/
def pathJoin (a b : Bytes) : Bytes := clean (a ++ 0x2F :: b)

/-- A component that names an entry of a directory. -/
def isName (c : Bytes) : Bool := c ≠ [] && c ≠ dot && c ≠ dotdot && !c.contains 0x2F

/-- Only components that name something are kept. -/
theorem mem_pushComponent {rooted : Bool} {x : Bytes}
    (h : x ∈ pushComponent rooted kept c) : x ∈ kept ∨ (x = c ∧ c ≠ [] ∧ c ≠ dot) := by
  revert h
  fun_cases pushComponent rooted kept c with
  | case1 => exact .inl
  | case2 => exact fun h => by cases h
  | case5 => exact fun h => .inl (mem_cons_of_mem _ h)
  | case3 hskip | case4 hskip | case6 _ hskip =>
    intro h
    rcases mem_cons.mp h with rfl | h
    · exact .inr ⟨rfl, not_or.mp hskip⟩
    · exact .inl h

theorem mem_foldl_pushComponent {rooted : Bool} {x : Bytes}
    (h : x ∈ parts.foldl (pushComponent rooted) kept) :
      x ∈ kept ∨ (x ∈ parts ∧ x ≠ [] ∧ x ≠ dot) := by
  induction parts generalizing kept with
  | nil => exact .inl h
  | cons part parts ih =>
    rcases ih h with hx | ⟨hx, hne⟩
    · rcases mem_pushComponent hx with hx | ⟨rfl, hne⟩
      · exact .inl hx
      · exact .inr ⟨mem_cons_self, hne⟩
    · exact .inr ⟨mem_cons_of_mem _ hx, hne⟩

/-- Joined components that are not empty do not start with the separator. -/
theorem head_join_ne
    (h : ∀ part ∈ parts, part ≠ [] ∧ sep ∉ part) : (join sep parts).head? ≠ some sep := by
  cases parts with
  | nil => simp [join]
  | cons part parts =>
    obtain ⟨hne, hsep⟩ := h part mem_cons_self
    obtain ⟨b, tail, rfl⟩ := exists_cons_of_ne_nil hne
    have hb : b ≠ sep := fun hb => hsep (hb ▸ mem_cons_self)
    cases parts <;> simpa [join] using hb

/-- A cleaned path has one slash at its start at most. -/
theorem clean_ne_slashes {rest : Bytes} (h : clean path = path) : path ≠ 0x2F :: 0x2F :: rest := by
  rintro rfl
  have habs : isAbs (0x2F :: 0x2F :: rest) = true := rfl
  rw [clean, habs, if_pos rfl] at h
  have hhead := congrArg head? (cons.inj h).2
  refine head_join_ne ?_ hhead
  intro part hpart
  rcases mem_foldl_pushComponent (mem_reverse.mp hpart) with hpart | ⟨hpart, hne⟩
  · cases hpart
  · exact ⟨hne.1, not_mem_of_mem_split hpart⟩

theorem isName_iff : isName c = true ↔ c ≠ [] ∧ c ≠ dot ∧ c ≠ dotdot ∧ 0x2F ∉ c := by
  simp [isName, and_assoc]

theorem clean_eq_absolute (h : isAbs path = true) : clean path = absolute (components path) := by
  rw [clean, h, if_pos rfl, components, h]
  rfl

/-- Splitting at a separator in the middle. -/
theorem split_append (sep : UInt8) (a b : Bytes) :
    split sep (a ++ sep :: b) = split sep a ++ split sep b := by
  fun_induction split sep a with
  | case1 => simp [split]
  | case2 rest ih =>
    rw [cons_append, split, if_pos rfl, ih]
    rfl
  | case3 _ rest _ hnil => exact absurd hnil (split_ne_nil sep rest)
  | case4 c rest hsep w ws hrest ih =>
    rw [cons_append, split, if_neg hsep, ih, hrest]
    rfl

theorem split_of_not_mem (h : sep ∉ s) : split sep s = [s] := by
  induction s with
  | nil => rfl
  | cons b rest ih =>
    rw [mem_cons, not_or] at h
    rw [split, if_neg (Ne.symm h.1), ih h.2]

theorem split_join_flatMap (hne : parts ≠ []) :
    split sep (join sep parts) = parts.flatMap (split sep) := by
  induction parts with
  | nil => exact absurd rfl hne
  | cons part parts ih =>
    cases parts with
    | nil => simp [join]
    | cons next parts =>
      rw [join, split_append, ih (cons_ne_nil _ _)]
      · rfl
      · exact cons_ne_nil _ _

theorem flatMap_split (h : ∀ part ∈ parts, sep ∉ part) : parts.flatMap (split sep) = parts :=
  (flatMap_congr fun part hpart => split_of_not_mem (h part hpart)).trans
    (flatMap_singleton' _)

theorem split_join (hne : parts ≠ [])
    (h : ∀ part ∈ parts, sep ∉ part) : split sep (join sep parts) = parts :=
  (split_join_flatMap hne).trans (flatMap_split h)

/-- In a rooted path every kept component is a name. -/
theorem isName_pushComponent (hkept : ∀ k ∈ kept, isName k = true)
    (hc : 0x2F ∉ c) : ∀ k ∈ pushComponent true kept c, isName k = true := by
  fun_cases pushComponent true kept c with
  | case1 => exact hkept
  | case2 => exact hkept
  | case3 _ _ h => exact absurd rfl h
  | case4 => exact absurd rfl (isName_iff.mp (hkept _ mem_cons_self)).2.2.1
  | case5 => exact fun k hk => hkept k (mem_cons_of_mem _ hk)
  | case6 _ hskip hup =>
    rw [not_or] at hskip
    exact forall_mem_cons.mpr ⟨isName_iff.mpr ⟨hskip.1, hskip.2, hup, hc⟩, hkept⟩

theorem isName_of_mem_components (habs : isAbs path = true) :
    ∀ c ∈ components path, isName c = true := by
  have hfold : ∀ (parts kept : List Bytes), (∀ part ∈ parts, 0x2F ∉ part) →
      (∀ k ∈ kept, isName k = true) → ∀ k ∈ parts.foldl (pushComponent true) kept,
        isName k = true := by
    intro parts
    induction parts with
    | nil => exact fun kept _ hkept => hkept
    | cons part parts ih =>
      intro kept hparts hkept
      exact ih _ (fun p hp => hparts p (mem_cons_of_mem _ hp))
        (isName_pushComponent hkept (hparts part mem_cons_self))
  intro c hc
  rw [components, habs, mem_reverse] at hc
  exact hfold _ [] (fun part hpart => not_mem_of_mem_split hpart) (by simp) c hc

example : clean (ascii "/a/./b/../../c/") = ascii "/c" ∧ clean (ascii "../a/..") = ascii ".." := by
  decide

end HeyServer.Lib.Text
