import Mathlib.Data.List.Infix

/-!
# Endings and separators of texts

Cutting endings off a text, one after the other and each at most once. If no ending is an ending of
another one, what is left is the text without its longest compound ending. Texts are also cut at a
separator of any length.
-/

namespace HeyServer.Lib.Affixes
open List

variable {α : Type} [DecidableEq α]

/-- The parts of a text between the occurrences of `sep`; `skip` elements of the last occurrence are
still to be passed over. -/
def splitFrom (sep : List α) : Nat → List α → List (List α)
  | _, [] => [[]]
  | skip + 1, _ :: rest => splitFrom sep skip rest
  | 0, a :: rest =>
    if sep.isPrefixOf (a :: rest) then [] :: splitFrom sep (sep.length - 1) rest
    else (splitFrom sep 0 rest).modifyHead (a :: ·)

/-- `strings.Split` for a separator that is not empty. -/
def splitSeq (sep s : List α) : List (List α) := splitFrom sep 0 s

/-- `strings.Cut` for a separator of one element. -/
def cut (sep : α) (s : List α) : Option (List α × List α) :=
  if sep ∈ s then some (s.takeWhile (· ≠ sep), (s.dropWhile (· ≠ sep)).tail) else none

/-- `strings.TrimSuffix`. -/
def trimSuffix (s ending : List α) : List α :=
  if ending <:+ s then s.take (s.length - ending.length) else s

@[simp] theorem trimSuffix_append (s ending : List α) : trimSuffix (s ++ ending) ending = s := by
  rw [trimSuffix, if_pos (suffix_append s ending), length_append, Nat.add_sub_cancel, take_left]

variable {s a b : List α} {endings : List (List α)}

theorem trimSuffix_of_not {ending : List α} (h : ¬ ending <:+ s) : trimSuffix s ending = s :=
    if_neg h

/-- The endings are cut off in their order. -/
def stripEach : List (List α) → List α → List α
  | [], s => s
  | ending :: rest, s => stripEach rest (trimSuffix s ending)

/-- What can be cut off. -/
def compounds : List (List α) → List (List α)
  | [] => [[]]
  | ending :: rest => compounds rest ++ (compounds rest).map (· ++ ending)

/-- `stem` is the text `s` without its longest compound ending. -/
def IsStem (endings : List (List α)) (s stem : List α) : Prop :=
  ∃ e ∈ compounds endings, s = stem ++ e ∧ ∀ e' ∈ compounds endings, e' <:+ s → e'.length ≤ e.length

/-- Neither text ends with the other. -/
def Unrelated (a b : List α) : Prop := ¬ a <:+ b ∧ ¬ b <:+ a

instance (a b : List α) : Decidable (Unrelated a b) := inferInstanceAs (Decidable (_ ∧ _))

omit [DecidableEq α] in
theorem Unrelated.not_both (h : Unrelated a b) (ha : a <:+ s) : ¬ b <:+ s := by
  intro hb
  rcases le_total a.length b.length with hle | hle
  · exact h.1 (suffix_of_suffix_length_le ha hb hle)
  · exact h.2 (suffix_of_suffix_length_le hb ha hle)

omit [DecidableEq α] in
theorem eq_nil_or_suffix_of_mem_compounds {e : List α}
    (he : e ∈ compounds endings) : e = [] ∨ ∃ ending ∈ endings, ending <:+ e := by
  induction endings with
  | nil => exact .inl (mem_singleton.mp he)
  | cons ending rest ih =>
    rcases mem_append.mp he with he | he
    · obtain hnil | ⟨other, hother, hsuffix⟩ := ih he
      · exact .inl hnil
      · exact .inr ⟨other, mem_cons_of_mem _ hother, hsuffix⟩
    · obtain ⟨front, -, rfl⟩ := mem_map.mp he
      exact .inr ⟨ending, mem_cons_self, suffix_append front ending⟩

theorem isStem_stripEach (hapart : endings.Pairwise Unrelated) (s : List α) :
    IsStem endings s (stripEach endings s) := by
  induction endings generalizing s with
  | nil =>
    refine ⟨[], mem_singleton_self _, (append_nil s).symm, ?_⟩
    intro e' he' _
    rw [mem_singleton.mp he']
  | cons ending rest ih =>
    obtain ⟨hending, hrest⟩ := pairwise_cons.mp hapart
    by_cases hcut : ending <:+ s
    · obtain ⟨front, rfl⟩ := hcut
      obtain ⟨e, he, hfront, hlongest⟩ := ih hrest front
      rw [stripEach, trimSuffix_append]
      refine ⟨e ++ ending, mem_append_right _ (mem_map_of_mem he), ?_, ?_⟩
      · rw [← append_assoc, ← hfront]
      · intro e' he' hsuffix
        rcases mem_append.mp he' with he' | he'
        · -- Without this ending, a compound ending of the text can only be the empty one.
          obtain rfl | ⟨other, hother, hend⟩ := eq_nil_or_suffix_of_mem_compounds he'
          · exact Nat.zero_le _
          · exact absurd (hend.trans hsuffix)
              ((hending other hother).not_both (suffix_append front ending))
        · obtain ⟨e'', he'', rfl⟩ := mem_map.mp he'
          have hfit : e'' <:+ front := suffix_append_self_iff.mp hsuffix
          simp only [length_append]
          exact Nat.add_le_add_right (hlongest e'' he'' hfit) _
    · obtain ⟨e, he, hs, hlongest⟩ := ih hrest s
      rw [stripEach, trimSuffix_of_not hcut]
      refine ⟨e, mem_append_left _ he, hs, ?_⟩
      intro e' he' hsuffix
      rcases mem_append.mp he' with he' | he'
      · exact hlongest e' he' hsuffix
      · obtain ⟨e'', -, rfl⟩ := mem_map.mp he'
        exact absurd ((suffix_append e'' ending).trans hsuffix) hcut

omit [DecidableEq α] in
theorem IsStem.unique (ha : IsStem endings s a) (hb : IsStem endings s b) : a = b := by
  obtain ⟨e, he, hs, hlongest⟩ := ha
  obtain ⟨e', he', hs', hlongest'⟩ := hb
  have hle : e.length ≤ e'.length := hlongest' e he ⟨a, hs.symm⟩
  have hge : e'.length ≤ e.length := hlongest e' he' ⟨b, hs'.symm⟩
  exact (append_inj' (hs.symm.trans hs') (Nat.le_antisymm hle hge)).1

/-! ## Parts of texts -/

omit [DecidableEq α] in
/-- A part whose last character does not occur at the end of a text lies before it. -/
theorem infix_append_iff {x : List α} {c : α} (hc : c ∉ b) :
    x ++ [c] <:+: a ++ b ↔ x ++ [c] <:+: a := by
  induction b using reverseRecOn with
  | nil => rw [append_nil]
  | append_singleton b last ih =>
    rw [mem_append, not_or, mem_singleton] at hc
    rw [← append_assoc, infix_concat_iff, ih hc.1, or_iff_right]
    -- an occurrence at the very end would end with the last character
    rintro ⟨front, h⟩
    rw [← append_assoc] at h
    exact hc.2 (singleton_inj.mp (append_inj' h rfl).2)

end HeyServer.Lib.Affixes
