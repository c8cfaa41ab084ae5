import HeyServer.Lib.Text
import Mathlib.Data.List.GetD

/-!
# Minimal restore roots

`addMinimalRestorePath` keeps the paths that lie below no other. It filters the slice in place and
appends to what is left of it.

## Implementation notes

A slice is its array, up to the capacity, with a length. `grow` is the spare capacity of the array
that an append to a full slice makes.
-/

namespace HeyServer.Backup
open Lib Text List

structure Slice where
  array : List Bytes
  length : Nat

namespace Slice

def contents (s : Slice) : List Bytes := s.array.take s.length

def append (grow : Nat → Nat) (s : Slice) (x : Bytes) : Slice where
  array :=
    if s.length < s.array.length then s.array.set s.length x
    else s.contents ++ x :: replicate (grow s.length) []
  length := s.length + 1

end Slice

/-- The loop over `k` elements from `i` on: the array, and the length of `filtered` unless it
returned. -/
def scan (candidate : Bytes) : Nat → Nat → Nat → List Bytes → List Bytes × Option Nat
  | 0, _, filtered, array => (array, some filtered)
  | k + 1, i, filtered, array =>
    let existing := array.getD i []
    if candidate = existing ∨ existing ++ [0x2F] <+: candidate then (array, none)
    else if candidate ++ [0x2F] <+: existing then scan candidate k (i + 1) filtered array
    else scan candidate k (i + 1) (filtered + 1) (array.set filtered existing)

def addMinimalRestorePath (grow : Nat → Nat) (paths : Slice) (path : Bytes) : Slice :=
  let candidate := trimByte 0x2F path
  if candidate = [] then paths
  else
    match scan candidate paths.length 0 0 paths.array with
    | (array, none) => ⟨array, paths.length⟩
    | (array, some filtered) => Slice.append grow ⟨array, filtered⟩ candidate

/-- The path `q` has the components of `p` and more. -/
def Ancestor (p q : Bytes) : Prop := ∃ rest, q = p ++ 0x2F :: rest

/-- The roots are the paths without an ancestor. -/
structure Minimal (seen roots : List Bytes) : Prop where
  nodup : roots.Nodup
  subset : roots ⊆ seen
  apart : ∀ p ∈ roots, ∀ q ∈ roots, ¬ Ancestor p q
  covers : ∀ q ∈ seen, ∃ p ∈ roots, p = q ∨ Ancestor p q

variable {p q : Bytes}

theorem ancestor_iff : Ancestor p q ↔ p ++ [0x2F] <+: q :=
  exists_congr fun rest => by rw [append_assoc, singleton_append, eq_comm]

theorem Ancestor.trans {r : Bytes} (h : Ancestor p q) (h' : Ancestor q r) : Ancestor p r := by
  obtain ⟨a, rfl⟩ := h
  obtain ⟨b, rfl⟩ := h'
  exact ⟨a ++ 0x2F :: b, by simp⟩

theorem not_ancestor_self : ¬ Ancestor p p := fun ⟨_, h⟩ => by simpa using congrArg length h

/-- Nothing is trimmed from a path without empty components. -/
theorem trimByte_eq_self (h : [] ∉ split 0x2F p) : trimByte 0x2F p = p := by
  have hkeep : ∀ t : Bytes, t.head? ≠ some 0x2F → t.dropWhile (· = 0x2F) = t := by
    intro t ht
    cases t with
    | nil => rfl
    | cons b t => simpa using ht
  have hhead : p.head? ≠ some 0x2F := by
    intro hhead
    obtain ⟨rest, rfl⟩ := head?_eq_some_iff.mp hhead
    exact h mem_cons_self
  have hlast : p.reverse.head? ≠ some 0x2F := by
    rw [head?_reverse]
    intro hlast
    obtain ⟨init, rfl⟩ := getLast?_eq_some_iff.mp hlast
    rw [split_append] at h
    exact h (mem_append_right _ mem_cons_self)
  rw [trimByte, hkeep p hhead, hkeep p.reverse hlast, reverse_reverse]

/-! ## The loop -/

theorem take_set_succ {l : List Bytes} {n : Nat} (h : n < l.length) (x : Bytes) :
    (l.set n x).take (n + 1) = l.take n ++ [x] := by
  rw [take_succ_eq_append_getElem (by simpa using h), take_set_of_le le_rfl, getElem_set_self]

/-- What the loop leaves in the slice if no path covers the candidate. -/
theorem scan_filter {c : Bytes} {k i n : Nat} {array : List Bytes} (hn : n ≤ i)
    (hk : i + k ≤ array.length)
    (h : ∀ e ∈ (array.drop i).take k, ¬ (c = e ∨ e ++ [0x2F] <+: c)) :
    ∃ array' n', scan c k i n array = (array', some n') ∧ n' ≤ i + k ∧
      array'.length = array.length ∧
      array'.take n' = array.take n ++ ((array.drop i).take k).filter fun e =>
        ¬ c ++ [0x2F] <+: e := by
  induction k generalizing i n array with
  | zero => exact ⟨array, n, rfl, by omega, rfl, by simp⟩
  | succ k ih =>
    have hi : i < array.length := by omega
    rw [drop_eq_getElem_cons hi, take_succ_cons] at h ⊢
    rw [scan, getD_eq_getElem _ _ hi]
    rw [if_neg (h _ mem_cons_self)]
    have hrest := fun e he => h e (mem_cons_of_mem _ he)
    split_ifs with hbelow
    · obtain ⟨array', n', hscan, hle, hlength, htake⟩ := ih (Nat.le_succ_of_le hn) (by omega) hrest
      refine ⟨array', n', hscan, by omega, hlength, ?_⟩
      rw [htake, filter_cons_of_neg (by simpa using hbelow)]
    · have hdrop : (array.set n array[i]).drop (i + 1) = array.drop (i + 1) :=
        drop_set_of_lt (by omega)
      rw [← hdrop] at hrest
      obtain ⟨array', n', hscan, hle, hlength, htake⟩ :=
        ih (Nat.succ_le_succ hn) (by rw [length_set]; omega) hrest
      refine ⟨array', n', hscan, by omega, by rw [hlength, length_set], ?_⟩
      rw [htake, hdrop, filter_cons_of_pos (by simpa using hbelow), take_set_succ (by omega),
        append_assoc]
      rfl

/-- A path that covers the candidate ends the loop, with the slice as it was. -/
theorem scan_covered {c : Bytes} {k i : Nat} {array : List Bytes} (hk : i + k ≤ array.length)
    (hcovers : ∃ e ∈ (array.drop i).take k, c = e ∨ e ++ [0x2F] <+: c)
    (h : ∀ e ∈ (array.drop i).take k, ¬ c ++ [0x2F] <+: e) :
      scan c k i i array = (array, none) := by
  induction k generalizing i with
  | zero => simp at hcovers
  | succ k ih =>
    have hi : i < array.length := by omega
    rw [drop_eq_getElem_cons hi, take_succ_cons] at h hcovers
    rw [scan, getD_eq_getElem _ _ hi]
    split_ifs with hc hbelow
    · rfl
    · exact absurd hbelow (h _ mem_cons_self)
    · rw [set_getElem_self]
      refine ih (by omega) ?_ fun e he => h e (mem_cons_of_mem _ he)
      obtain ⟨e, he, hcover⟩ := hcovers
      rcases mem_cons.mp he with rfl | he
      · exact absurd hcover hc
      · exact ⟨e, he, hcover⟩

theorem Slice.contents_append (grow : Nat → Nat) {s : Slice} (h : s.length ≤ s.array.length)
    (x : Bytes) :
    (s.append grow x).contents = s.contents ++ [x] ∧
      (s.append grow x).length ≤ (s.append grow x).array.length := by
  rw [contents, append]
  dsimp only
  split_ifs with hspare
  · exact ⟨take_set_succ hspare x, (length_set ..).symm ▸ hspare⟩
  · have hlength : s.contents.length = s.length := length_take_of_le h
    constructor
    · rw [append_cons, take_append_of_le_length (by simp [hlength]),
        take_of_length_le (by simp [hlength])]
    · simp [hlength]

/-! ## The roots -/

section
variable {seen roots : List Bytes}

section
variable (h : Minimal seen roots)
include h

theorem Minimal.mem_iff : p ∈ roots ↔ p ∈ seen ∧ ∀ q ∈ seen, ¬ Ancestor q p := by
  constructor
  · intro hp
    refine ⟨h.subset hp, fun q hq hqp => ?_⟩
    obtain ⟨a, ha, rfl | haq⟩ := h.covers q hq
    · exact h.apart a ha p hp hqp
    · exact h.apart a ha p hp (haq.trans hqp)
  · rintro ⟨hp, hnone⟩
    obtain ⟨a, ha, rfl | hap⟩ := h.covers p hp
    · exact ha
    · exact absurd hap (hnone a (h.subset ha))

/-- A path that a root covers changes nothing. -/
theorem Minimal.covered (hcovers : ∃ a ∈ roots, a = p ∨ Ancestor a p) :
    Minimal (seen ++ [p]) roots where
  nodup := h.nodup
  subset _ hp := mem_append_left _ (h.subset hp)
  apart := h.apart
  covers := by
    intro q hq
    rcases mem_append.mp hq with hq | hq
    · exact h.covers q hq
    · exact mem_singleton.mp hq ▸ hcovers

/-- A path that no root covers replaces the roots below it. -/
theorem Minimal.added (hnone : ∀ a ∈ roots, ¬ (p = a ∨ a ++ [0x2F] <+: p)) :
    Minimal (seen ++ [p]) (roots.filter (fun a => ¬ p ++ [0x2F] <+: a) ++ [p]) := by
  have hmem : ∀ a, a ∈ roots.filter (fun a => ¬ p ++ [0x2F] <+: a) ++ [p] ↔
      a ∈ roots ∧ ¬ Ancestor p a ∨ a = p := by simp [ancestor_iff]
  simp only [← ancestor_iff] at hnone
  refine ⟨nodup_append.mpr ⟨h.nodup.filter _, nodup_singleton p, ?_⟩, ?_, ?_, ?_⟩
  · grind
  · grind [h.subset]
  · grind [h.apart, not_ancestor_self]
  · grind [h.covers, Ancestor.trans]

end

end

theorem add_minimal (grow : Nat → Nat) {s : Slice} {seen : List Bytes}
    (hs : s.length ≤ s.array.length)
    (h : Minimal seen s.contents) (hp : [] ∉ split 0x2F p) :
    (addMinimalRestorePath grow s p).length ≤ (addMinimalRestorePath grow s p).array.length ∧
      Minimal (seen ++ [p]) (addMinimalRestorePath grow s p).contents := by
  have hne : p ≠ [] := by
    rintro rfl
    exact hp mem_cons_self
  rw [addMinimalRestorePath, trimByte_eq_self hp, if_neg hne]
  by_cases hcovers : ∃ a ∈ s.contents, p = a ∨ a ++ [0x2F] <+: p
  · rw [@scan_covered p s.length 0 s.array (by simpa using hs) hcovers]
    · refine ⟨hs, h.covered ?_⟩
      simpa only [ancestor_iff, eq_comm] using hcovers
    · intro b hb hbelow
      obtain ⟨a, ha, rfl | hap⟩ := hcovers
      · exact h.apart p ha b hb (ancestor_iff.mpr hbelow)
      · exact h.apart a ha b hb ((ancestor_iff.mpr hap).trans (ancestor_iff.mpr hbelow))
  · have hnone : ∀ a ∈ s.contents, ¬ (p = a ∨ a ++ [0x2F] <+: p) :=
      fun a ha hcover => hcovers ⟨a, ha, hcover⟩
    obtain ⟨array, n, hscan, hle, hlength, htake⟩ :=
      scan_filter (Nat.le_refl 0) (by simpa using hs) hnone
    rw [hscan]
    have hn : n ≤ array.length := by omega
    obtain ⟨hcontents, hbound⟩ := Slice.contents_append grow (s := ⟨array, n⟩) hn p
    refine ⟨hbound, ?_⟩
    rw [hcontents, Slice.contents, htake]
    exact h.added hnone

/-- The roots are the paths of the sequence that have no ancestor in it, each once. -/
theorem restore_roots_minimal (grow : Nat → Nat) (paths : List Bytes)
    (h : ∀ p ∈ paths, [] ∉ split 0x2F p) :
    (paths.foldl (addMinimalRestorePath grow) ⟨[], 0⟩).contents.Nodup ∧
      ∀ p, p ∈ (paths.foldl (addMinimalRestorePath grow) ⟨[], 0⟩).contents ↔
        p ∈ paths ∧ ∀ q ∈ paths, ¬ Ancestor q p := by
  have hrun : (paths.foldl (addMinimalRestorePath grow) ⟨[], 0⟩).length ≤
        (paths.foldl (addMinimalRestorePath grow) ⟨[], 0⟩).array.length ∧
      Minimal paths (paths.foldl (addMinimalRestorePath grow) ⟨[], 0⟩).contents := by
    induction paths using reverseRecOn with
    | nil => exact ⟨Nat.le_refl 0, nodup_nil, nil_subset _, by simp [Slice.contents], by simp⟩
    | append_singleton paths p ih =>
      rw [foldl_concat]
      obtain ⟨hs, hminimal⟩ := ih fun q hq => h q (mem_append_left _ hq)
      exact add_minimal grow hs hminimal (h p mem_concat_self)
  exact ⟨hrun.2.nodup, fun p => hrun.2.mem_iff⟩

/-- A path is replaced by its ancestor. -/
theorem ancestor_added_later : ascii "a" ∈
    ([ascii "a/b", ascii "a"].foldl (addMinimalRestorePath id) ⟨[], 0⟩).contents := by
  refine ((restore_roots_minimal id _ (by decide)).2 _).mpr ⟨by decide, ?_⟩
  simp only [ancestor_iff]
  decide

end HeyServer.Backup
