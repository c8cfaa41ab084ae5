import Mathlib.Data.List.Nodup
import Mathlib.Data.List.Perm.Subperm
import Mathlib.Data.Prod.Lex

/-!
# The first elements of a sorted list

A sort that is not stable leaves the order of equal elements open. An element is among the first `k`
of every sorted arrangement exactly if fewer than `k` others are not below it.
-/

namespace HeyServer.Lib.Ranking
open List

variable {α κ : Type} [DecidableEq α] [LinearOrder κ] (key : α → κ)

/-- The elements that may stand before `b`. -/
def rivals (b : α) (l : List α) : List α := l.filter fun x => x ≠ b ∧ key b ≤ key x

/-- Greatest keys first. -/
def Sorted (l : List α) : Prop := l.Pairwise fun x y => key y ≤ key x

/-- `b` stands behind all its rivals. -/
def Last (b : α) (l : List α) : Prop := l.Pairwise fun x y => x = b → ¬ (y ≠ b ∧ key b ≤ key y)

variable {key} {b : α} {l : List α}

theorem not_mem_drop_of_few (hnodup : l.Nodup) (hsorted : Sorted key l) {k : Nat}
    (hfew : (rivals key b l).length < k) : b ∉ l.drop k := by
  intro hdrop
  obtain ⟨front, back, hsplit⟩ := append_of_mem hdrop
  have hl : l = l.take k ++ (front ++ b :: back) := by rw [← hsplit, take_append_drop]
  rw [hl, ← append_assoc] at hnodup hsorted
  -- What stands before b is a rival of it, and these are at least k.
  have hbefore : ∀ x ∈ l.take k ++ front, x ∈ rivals key b l := by
    intro x hx
    refine mem_filter.mpr ⟨?_, decide_eq_true ⟨?_, ?_⟩⟩
    · rw [hl, ← append_assoc]
      exact mem_append_left _ hx
    · rintro rfl
      exact (nodup_append.mp hnodup).2.2 x hx x mem_cons_self rfl
    · exact (pairwise_append.mp hsorted).2.2 x hx b mem_cons_self
  have hcount := ((nodup_append.mp hnodup).1.subperm hbefore).length_le
  have hk : k ≤ l.length := by
    by_contra hlt
    rw [drop_of_length_le (Nat.le_of_lt (Nat.lt_of_not_le hlt))] at hdrop
    cases hdrop
  rw [length_append, length_take, Nat.min_eq_left hk] at hcount
  omega

theorem mem_drop_of_many (hnodup : l.Nodup) (hb : b ∈ l) (hlast : Last key b l) {k : Nat}
    (hmany : k ≤ (rivals key b l).length) : b ∈ l.drop k := by
  obtain ⟨front, back, rfl⟩ := append_of_mem hb
  have hbefore : ∀ x ∈ rivals key b (front ++ b :: back), x ∈ front := by
    intro x hx
    obtain ⟨hmem, hrival⟩ := mem_filter.mp hx
    have hx' := of_decide_eq_true hrival
    rcases mem_append.mp hmem with hmem | hmem
    · exact hmem
    · rcases mem_cons.mp hmem with rfl | hmem
      · exact absurd rfl hx'.1
      · have htail := (pairwise_append.mp hlast).2.1
        exact absurd hx' ((pairwise_cons.mp htail).1 x hmem rfl)
  have hcount := ((hnodup.filter _).subperm hbefore).length_le
  rw [drop_append_of_le_length (Nat.le_trans hmany hcount)]
  exact mem_append_right _ mem_cons_self

/-- An arrangement that puts `b` behind its rivals. -/
theorem exists_sorted_last (key : α → κ) (b : α) (l : List α) :
    ∃ l', l'.Perm l ∧ Sorted key l' ∧ Last key b l' := by
  -- among equal keys, `b` comes last
  let rank : α → Lex (κᵒᵈ × Bool) := fun x => toLex (OrderDual.toDual (key x), decide (x = b))
  have hsorted : (l.mergeSort fun x y => rank x ≤ rank y).Pairwise fun x y =>
      decide (rank x ≤ rank y) = true := by
    apply pairwise_mergeSort
    · intro x y z hxy hyz
      exact decide_eq_true ((of_decide_eq_true hxy).trans (of_decide_eq_true hyz))
    · intro x y
      rw [Bool.or_eq_true, decide_eq_true_eq, decide_eq_true_eq]
      exact le_total _ _
  refine ⟨_, mergeSort_perm _ fun x y => rank x ≤ rank y, ?_, ?_⟩
  · apply hsorted.imp
    intro x y hxy
    exact Prod.Lex.monotone_fst _ _ (of_decide_eq_true hxy)
  · apply hsorted.imp
    rintro x y hxy rfl ⟨hne, hle⟩
    rcases Prod.Lex.toLex_le_toLex.mp (of_decide_eq_true hxy) with hlt | ⟨-, hsame⟩
    · exact absurd hle (not_le_of_gt hlt)
    · exact hne (of_decide_eq_true (hsame (decide_eq_true rfl)))

end HeyServer.Lib.Ranking
