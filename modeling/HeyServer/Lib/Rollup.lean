import Mathlib.Algebra.BigOperators.Ring.Finset
import Mathlib.Algebra.Order.Field.Rat
import Mathlib.Tactic.Abel

/-!
# Grouped and replaced rows

`INSERT OR REPLACE … SELECT … GROUP BY`: rows are collected by a key, each group gives one
row of another table, and a new row takes the place of the row with its key.
-/

namespace HeyServer.Lib.Rollup
open List

variable {α κ ρ M : Type} [DecidableEq κ] [AddCommMonoid M]

/-- The rows with one key. -/
def group (key : α → κ) (xs : List α) (k : κ) : List α := xs.filter fun x => key x = k

/-- `GROUP BY` -/
def groups (key : α → κ) (xs : List α) : List (κ × List α) :=
  (xs.map key).dedup.map fun k => (k, group key xs k)

/-- `INSERT OR REPLACE` of one row. -/
def replace (key : ρ → κ) (rows : List ρ) (row : ρ) : List ρ :=
  rows.filter (fun old => key old ≠ key row) ++ [row]

def replaceAll (key : ρ → κ) (rows new : List ρ) : List ρ := new.foldl (replace key) rows

theorem mem_group {key : α → κ} {xs : List α} {k : κ} {x : α} :
    x ∈ group key xs k ↔ x ∈ xs ∧ key x = k := by
  simp [group]

variable {key : ρ → κ} {ks : List κ} {rows new : List ρ}

/-- The groups of different keys together are the rows with one of these keys. -/
theorem flatMap_group_perm (key : α → κ) (xs : List α) (h : ks.Nodup) :
    (ks.flatMap (group key xs)).Perm (xs.filter fun x => key x ∈ ks) := by
  induction ks with
  | nil => simp
  | cons k ks ih =>
    obtain ⟨hk, hks⟩ := nodup_cons.mp h
    have hfirst : (xs.filter fun x => key x ∈ k :: ks).filter (fun x => key x = k) =
        group key xs k := by
      rw [filter_filter, group]
      refine filter_congr fun x _ => ?_
      by_cases hx : key x = k <;> simp [hx]
    have hrest : (xs.filter fun x => key x ∈ k :: ks).filter (fun x => !decide (key x = k)) =
        xs.filter fun x => key x ∈ ks := by
      rw [filter_filter]
      refine filter_congr fun x _ => ?_
      by_cases hx : key x = k
      · simp [hx, hk]
      · simp [hx]
    refine List.Perm.trans ?_ (filter_append_perm (fun x => key x = k) _)
    rw [flatMap_cons, hfirst, hrest]
    exact (ih hks).append_left _

/-- Summing over groups that cover all rows is summing over the rows. -/
theorem sum_group (key : α → κ) (xs : List α) (f : α → M) (h : ks.Nodup)
    (hall : ∀ x ∈ xs, key x ∈ ks) :
    (ks.map fun k => ((group key xs k).map f).sum).sum = (xs.map f).sum := by
  have hperm := flatMap_group_perm key xs h
  rw [filter_eq_self.mpr fun x hx => by simpa using hall x hx] at hperm
  rw [← (hperm.map f).sum_eq, map_flatMap, flatMap_def, sum_flatten, map_map]
  rfl

theorem mem_groups {key : α → κ} {xs : List α} {g : κ × List α} :
    g ∈ groups key xs ↔ (∃ x ∈ xs, key x = g.1) ∧ g.2 = group key xs g.1 := by
  constructor
  · intro hg
    obtain ⟨k, hk, rfl⟩ := mem_map.mp hg
    exact ⟨mem_map.mp (mem_dedup.mp hk), rfl⟩
  · rintro ⟨hx, hrows⟩
    exact mem_map.mpr ⟨g.1, mem_dedup.mpr (mem_map.mpr hx), Prod.ext rfl hrows.symm⟩

theorem mem_replaceAll {row : ρ} (h : row ∈ replaceAll key rows new) : row ∈ rows ∨ row ∈ new := by
  induction new generalizing rows with
  | nil => exact .inl h
  | cons first new ih =>
    rcases ih h with hold | hnew
    · rcases mem_append.mp hold with hold | hfirst
      · exact .inl (mem_filter.mp hold).1
      · exact .inr (by simp [mem_singleton.mp hfirst])
    · exact .inr (mem_cons_of_mem _ hnew)

/-- New rows with different keys replace exactly the rows that have one of their keys. -/
theorem replaceAll_eq (h : (new.map key).Nodup) :
    replaceAll key rows new = rows.filter (fun old => key old ∉ new.map key) ++ new := by
  unfold replaceAll
  induction new generalizing rows with
  | nil => simp
  | cons row new ih =>
    rw [map_cons, nodup_cons] at h
    have hkept : [row].filter (fun old => decide (key old ∉ new.map key)) = [row] := by
      simpa using h.1
    rw [foldl_cons, ih h.2, replace, filter_append, hkept, append_assoc,
      singleton_append, filter_filter]
    congr 1
    refine filter_congr fun old _ => ?_
    by_cases hold : key old = key row <;> simp [hold]

/-- The rows of a table that new rows replace. -/
def replaced (key : ρ → κ) (rows new : List ρ) : List ρ :=
  rows.filter fun old => key old ∈ new.map key

/-- What new rows with different keys bring in and what they replace. -/
theorem sum_replaceAll (rows : List ρ) (h : (new.map key).Nodup) (w : ρ → M) :
    ((replaceAll key rows new).map w).sum + ((replaced key rows new).map w).sum =
      (rows.map w).sum + (new.map w).sum := by
  have hsplit :=
    ((filter_append_perm (fun old => decide (key old ∈ new.map key)) rows).map w).sum_eq
  rw [map_append, sum_append] at hsplit
  rw [replaceAll_eq h, map_append, sum_append, replaced, ← hsplit]
  simp only [decide_not]
  abel

theorem replaced_eq_nil : replaced key rows new = [] ↔ ∀ old ∈ rows, key old ∉ new.map key := by
  rw [replaced, filter_eq_nil_iff]
  simp

theorem replaceAll_of_replaced_eq_nil
    (hnodup : (new.map key).Nodup) (h : replaced key rows new = []) :
    replaceAll key rows new = rows ++ new := by
  rw [replaceAll_eq hnodup, filter_eq_self.mpr]
  intro old hold
  simpa using replaced_eq_nil.mp h old hold

/-! ## One row for each group -/

section Rows
variable {key : α → κ} {tag : ρ → κ} {mk : κ → List α → ρ} {xs ys : List α} {row : ρ}

/-- `SELECT … GROUP BY` with the row made of each group. -/
def rollup (key : α → κ) (mk : κ → List α → ρ) (xs : List α) : List ρ :=
  (groups key xs).map fun g => mk g.1 g.2

theorem mem_rollup : row ∈ rollup key mk xs ↔ ∃ x ∈ xs, row = mk (key x)
    (group key xs (key x)) := by
  constructor
  · intro hrow
    obtain ⟨g, hg, rfl⟩ := mem_map.mp hrow
    obtain ⟨⟨x, hx, hkey⟩, hrows⟩ := mem_groups.mp hg
    exact ⟨x, hx, by rw [hrows, hkey]⟩
  · rintro ⟨x, hx, rfl⟩
    exact mem_map.mpr ⟨(key x, group key xs (key x)), mem_groups.mpr ⟨⟨x, hx, rfl⟩, rfl⟩, rfl⟩

section
variable (htag : ∀ k g, tag (mk k g) = k)
include htag

theorem tags_rollup : (rollup key mk xs).map tag = (xs.map key).dedup := by
  simp [rollup, groups, Function.comp_def, htag]

theorem mem_tags_rollup {k : κ} : k ∈ (rollup key mk xs).map tag ↔ ∃ x ∈ xs, key x = k := by
  rw [tags_rollup htag, mem_dedup, mem_map]

/-- Nothing is replaced exactly when no row has the key of a group. -/
theorem replaced_rollup_eq_nil {rows : List ρ} :
    replaced tag rows (rollup key mk xs) = [] ↔ ∀ x ∈ xs, ∀ row ∈ rows, tag row ≠ key x := by
  simp only [replaced_eq_nil, mem_tags_rollup htag]
  constructor
  · intro hnone x hx row hrow heq
    exact hnone row hrow ⟨x, hx, heq.symm⟩
  · rintro hfresh row hrow ⟨x, hx, heq⟩
    exact hfresh x hx row hrow heq.symm

end

theorem nodup_tags_rollup (key : α → κ) (xs : List α) (htag : ∀ k g, tag (mk k g) = k) :
    ((rollup key mk xs).map tag).Nodup := by
  rw [tags_rollup htag]
  exact nodup_dedup _

variable {w : ρ → M} {v : α → M}

/-- A column that sums over each group sums over all rows. -/
theorem sum_rollup (hw : ∀ k g, (∀ x ∈ g, key x = k) → w (mk k g) = (g.map v).sum) :
    ((rollup key mk xs).map w).sum = (xs.map v).sum := by
  rw [← sum_group key xs v (nodup_dedup (xs.map key))
    fun x hx => mem_dedup.mpr (mem_map_of_mem hx), rollup, groups, map_map, map_map]
  exact congrArg sum (map_congr_left fun k _ => hw k _ fun x hx => (mem_group.mp hx).2)

/-- What leaves the source arrives in the table, less what the rows replaced there had. -/
theorem sum_compact (key : α → κ) (htag : ∀ k g, tag (mk k g) = k)
    (hw : ∀ k g, (∀ x ∈ g, key x = k) → w (mk k g) = (g.map v).sum) (rows : List ρ) (xs : List α)
    (p : α → Bool) : ((replaceAll tag rows (rollup key mk (xs.filter p))).map w).sum +
        ((xs.filter fun x => !p x).map v).sum +
        ((replaced tag rows (rollup key mk (xs.filter p))).map w).sum =
      (rows.map w).sum + (xs.map v).sum := by
  have hrows := sum_replaceAll rows (nodup_tags_rollup key (xs.filter p) htag) w
  have hxs := ((filter_append_perm p xs).map v).sum_eq
  rw [map_append, sum_append] at hxs
  rw [add_right_comm, hrows, sum_rollup hw, ← hxs, add_assoc]

/-- Rows without a key in common are grouped apart. -/
theorem mem_rollup_append (h : ∀ x ∈ xs, ∀ y ∈ ys, key x ≠ key y) :
    row ∈ rollup key mk (xs ++ ys) ↔ row ∈ rollup key mk xs ∨ row ∈ rollup key mk ys := by
  have hxs : ∀ x ∈ xs, group key (xs ++ ys) (key x) = group key xs (key x) := by
    intro x hx
    rw [group, filter_append, group, append_right_eq_self]
    exact filter_eq_nil_iff.mpr fun y hy => by simpa using (h x hx y hy).symm
  have hys : ∀ y ∈ ys, group key (xs ++ ys) (key y) = group key ys (key y) := by
    intro y hy
    rw [group, filter_append, group, append_left_eq_self]
    exact filter_eq_nil_iff.mpr fun x hx => by simpa using h x hx y hy
  simp only [mem_rollup, mem_append]
  constructor
  · rintro ⟨x, hx | hy, rfl⟩
    · exact .inl ⟨x, hx, by rw [hxs x hx]⟩
    · exact .inr ⟨x, hy, by rw [hys x hy]⟩
  · rintro (⟨x, hx, rfl⟩ | ⟨y, hy, rfl⟩)
    · exact ⟨x, .inl hx, by rw [hxs x hx]⟩
    · exact ⟨y, .inr hy, by rw [hys y hy]⟩

/-- Taking rows by their keys takes their groups. -/
theorem mem_rollup_filter (htag : ∀ k g, tag (mk k g) = k) (p : κ → Bool) :
    row ∈ rollup key mk (xs.filter fun x => p (key x)) ↔ row ∈ rollup key mk xs ∧ p (tag row) := by
  have hgroup : ∀ k, p k → group key (xs.filter fun x => p (key x)) k = group key xs k := by
    intro k hk
    rw [group, filter_filter]
    refine filter_congr fun x _ => ?_
    by_cases hx : key x = k
    · simp [hx, hk]
    · simp [hx]
  simp only [mem_rollup, mem_filter]
  constructor
  · rintro ⟨x, ⟨hx, hp⟩, rfl⟩
    refine ⟨⟨x, hx, ?_⟩, ?_⟩
    · rw [hgroup _ hp]
    · rwa [htag]
  · rintro ⟨⟨x, hx, rfl⟩, hp⟩
    rw [htag] at hp
    exact ⟨x, ⟨hx, hp⟩, by rw [hgroup _ hp]⟩

theorem sum_rollup_filter (htag : ∀ k g, tag (mk k g) = k)
    (hw : ∀ k g, w (mk k g) = (g.map v).sum) (p : κ → Bool) :
    (((rollup key mk xs).filter fun row => p (tag row)).map w).sum =
      ((xs.filter fun x => p (key x)).map v).sum := by
  have hperm : ((rollup key mk xs).filter fun row => p (tag row)).Perm
      (rollup key mk (xs.filter fun x => p (key x))) := by
    refine (perm_ext_iff_of_nodup ?_ ?_).mpr fun row => ?_
    · exact (List.Nodup.of_map tag (nodup_tags_rollup key xs htag)).filter _
    · exact List.Nodup.of_map tag (nodup_tags_rollup key _ htag)
    · rw [mem_filter, mem_rollup_filter htag]
  rw [(hperm.map w).sum_eq, sum_rollup fun k g _ => hw k g]

end Rows

/-! ## Averages and maxima -/

section Statistics
variable {f : α → ℚ} {xs ys : List α}

/-- `AVG` of a group -/
def mean (f : α → ℚ) (xs : List α) : ℚ := (xs.map f).sum / xs.length

/-- `MAX` of a group; groups are not empty. -/
def peak (f : α → ℚ) (xs : List α) : ℚ := (xs.map f).max?.getD 0

theorem mean_perm (h : xs.Perm ys) : mean f xs = mean f ys := by
  rw [mean, mean, (h.map f).sum_eq, h.length_eq]

theorem peak_eq_iff (hne : xs ≠ []) {m : ℚ} :
    peak f xs = m ↔ (∃ x ∈ xs, f x = m) ∧ ∀ x ∈ xs, f x ≤ m := by
  obtain ⟨top, htop⟩ := Option.isSome_iff_exists.mp
    (isSome_max?_iff.mpr (map_eq_nil_iff.not.mpr hne) : ((xs.map f).max?).isSome)
  have hgreatest : ∀ m, (xs.map f).max? = some m ↔ (∃ x ∈ xs, f x = m) ∧ ∀ x ∈ xs, f x ≤ m := by
    intro m
    rw [max?_eq_some_iff]
    simp
  rw [← hgreatest, peak, htop]
  simp

theorem peak_perm (hne : xs ≠ []) (h : xs.Perm ys) : peak f xs = peak f ys := by
  have hys : ys ≠ [] := fun hnil => hne (List.Perm.eq_nil (hnil ▸ h))
  obtain ⟨⟨x, hx, hfx⟩, hle⟩ := (peak_eq_iff hys).mp (Eq.refl (peak f ys))
  exact (peak_eq_iff hne).mpr ⟨⟨x, h.mem_iff.mpr hx, hfx⟩, fun y hy => hle y (h.mem_iff.mp hy)⟩

variable {rs : List ρ} {part : ρ → List α}

/-- The maximum of what is collected from parts. -/
theorem peak_flatMap (hne : rs ≠ []) (hparts : ∀ r ∈ rs, part r ≠ []) :
    peak f (rs.flatMap part) = peak (fun r => peak f (part r)) rs := by
  obtain ⟨⟨r, hr, hfr⟩, hle⟩ :=
    (peak_eq_iff hne).mp (Eq.refl (peak (fun r => peak f (part r)) rs))
  obtain ⟨⟨x, hx, hfx⟩, -⟩ := (peak_eq_iff (hparts r hr)).mp (Eq.refl (peak f (part r)))
  have hall : rs.flatMap part ≠ [] := ne_nil_of_mem (mem_flatMap.mpr ⟨r, hr, hx⟩)
  refine (peak_eq_iff hall).mpr ⟨⟨x, mem_flatMap.mpr ⟨r, hr, hx⟩, hfx.trans hfr⟩, ?_⟩
  intro y hy
  obtain ⟨q, hq, hyq⟩ := mem_flatMap.mp hy
  exact le_trans (((peak_eq_iff (hparts q hq)).mp (Eq.refl _)).2 y hyq) (hle q hq)

/-- The average with a weight for each element. -/
def weightedMean (weight : α → Nat) (f : α → ℚ) (xs : List α) : ℚ :=
  (xs.map fun x => (weight x : ℚ) * f x).sum / (xs.map fun x => (weight x : ℚ)).sum

/-- The average of what is collected from parts is weighted by their sizes. -/
theorem mean_flatMap (hparts : ∀ r ∈ rs, part r ≠ []) : mean f (rs.flatMap part) =
      weightedMean (fun r => (part r).length) (fun r => mean f (part r)) rs := by
  have hsum : ((rs.flatMap part).map f).sum =
      (rs.map fun r => ((part r).length : ℚ) * mean f (part r)).sum := by
    rw [map_flatMap, flatMap_def, sum_flatten, map_map]
    refine congrArg sum (map_congr_left fun r hr => ?_)
    have hlength : ((part r).length : ℚ) ≠ 0 :=
      Nat.cast_ne_zero.mpr (length_pos_of_ne_nil (hparts r hr)).ne'
    rw [mean, mul_div_cancel₀ _ hlength]
    rfl
  have hcount : ((rs.flatMap part).length : ℚ) = (rs.map fun r => ((part r).length : ℚ)).sum := by
    rw [length_flatMap, Nat.cast_list_sum, map_map]
    rfl
  rw [mean, hsum, hcount, weightedMean]

end Statistics

end HeyServer.Lib.Rollup
