import HeyServer.Lib.Text
import Mathlib.Data.List.DropRight

/-!
# The last lines of a log

`tailN` reads a file backwards in chunks. The first piece of a chunk may be the end of a line, and
is carried to the chunk before it.
-/

namespace HeyServer.Logs
open Lib Text List

def chunkSize : Nat := 4096

/-- The inner loop, which goes through the pieces from the last to the second. -/
def collect (n : Nat) : List Bytes → List Bytes → List Bytes
  | [], lines => lines
  | part :: parts, lines =>
    if part = [] then collect n parts lines
    else if n ≤ lines.length + 1 then part :: lines
    else collect n parts (part :: lines)

/-- The outer loop: the lines, and the piece that is carried. -/
def readBack (content : Bytes) (n remaining : Nat) (lines : List Bytes) (carried : Bytes) :
    List Bytes × Bytes :=
  if lines.length < n ∧ 0 < remaining then
    let readSize := min chunkSize remaining
    let start := remaining - readSize
    let parts := split 0x0A ((content.drop start).take readSize ++ carried)
    readBack content n start (collect n parts.tail.reverse lines) (parts.headD [])
  else (lines, carried)
termination_by remaining
decreasing_by
  have : 0 < chunkSize := by decide
  omega

def tailN (content : Bytes) (n : Nat) : List Bytes :=
  let (lines, carried) := readBack content n content.length [] []
  let lines := if carried ≠ [] ∧ lines.length < n then carried :: lines else lines
  if n < lines.length then lines.drop (lines.length - n) else lines

/-- The pieces of a text that are not empty. -/
def pieces (text : Bytes) : List Bytes := (split 0x0A text).filter (· ≠ [])

/-- Only the first piece depends on what stands before a text. -/
theorem pieces_append (a b : Bytes) :
    pieces (a ++ b) = pieces (a ++ (split 0x0A b).headD []) ++
      (split 0x0A b).tail.filter (· ≠ []) := by
  rw [pieces, pieces, ← filter_append]
  congr 1
  induction a with
  | nil =>
    obtain ⟨part, parts, hparts⟩ := exists_cons_of_ne_nil (split_ne_nil 0x0A b)
    have hpart : 0x0A ∉ part := not_mem_of_mem_split (hparts ▸ mem_cons_self)
    simp [hparts, split_of_not_mem hpart]
  | cons c a ih =>
    rw [cons_append, cons_append, split, split, ih]
    obtain ⟨part, parts, hparts⟩ := exists_cons_of_ne_nil
      (split_ne_nil 0x0A (a ++ (split 0x0A b).headD []))
    split_ifs
    · rfl
    · rw [hparts]
      rfl

section
variable {α : Type} {a b : List α} {n : Nat}

theorem rtake_of_length_le (h : b.length ≤ n) : b.rtake n = b := by
  rw [rtake, Nat.sub_eq_zero_of_le h, drop_zero]

theorem rtake_append_of_le (h : n ≤ b.length) : (a ++ b).rtake n = b.rtake n := by
  rw [rtake, rtake, length_append, Nat.add_sub_assoc h, drop_append]
  simp

theorem rtake_append_rtake : (a ++ b.rtake n).rtake n = (a ++ b).rtake n := by
  rcases le_total b.length n with h | h
  · rw [rtake_of_length_le h]
  · have hlength : (b.rtake n).length = n := by
      rw [rtake, length_drop]
      omega
    rw [rtake_append_of_le h, rtake_append_of_le hlength.ge, rtake_of_length_le hlength.le]

end

theorem collect_eq {n : Nat} (parts : List Bytes) {lines : List Bytes} (h : lines.length < n) :
    collect n parts lines = ((parts.filter (· ≠ [])).reverse ++ lines).rtake n := by
  induction parts generalizing lines with
  | nil => exact (rtake_of_length_le h.le).symm
  | cons part parts ih =>
    rw [collect]
    split_ifs with hempty hfull
    · rw [ih h]
      simp [hempty]
    · have hlength : (part :: lines).length = n := by
        rw [length_cons]
        omega
      rw [filter_cons_of_pos (by simpa using hempty), reverse_cons, append_assoc, singleton_append,
        rtake_append_of_le hlength.ge, rtake_of_length_le hlength.le]
    · rw [ih (by simpa using hfull)]
      simp [hempty]

/-- The unread part with the carried piece, and the lines, end in the last lines of the file. -/
theorem readBack_spec {content : Bytes} {n remaining : Nat} {lines : List Bytes} {carried : Bytes}
    (hlines : lines.length ≤ n) (hcarried : 0x0A ∉ carried)
    (hrest : (pieces (content.take remaining ++ carried) ++ lines).rtake n =
      (pieces content).rtake n) :
    (if (readBack content n remaining lines carried).2 ≠ [] ∧
        (readBack content n remaining lines carried).1.length < n then
      (readBack content n remaining lines carried).2 ::
        (readBack content n remaining lines carried).1
    else (readBack content n remaining lines carried).1) = (pieces content).rtake n := by
  fun_induction readBack content n remaining lines carried with
  | case1 remaining lines carried hmore readSize start parts ih =>
    have hcollect := collect_eq parts.tail.reverse hmore.1
    apply ih
    · rw [hcollect, rtake, length_drop]
      omega
    · obtain ⟨part, rest, hparts⟩ := exists_cons_of_ne_nil (split_ne_nil 0x0A _)
      rw [show parts = part :: rest from hparts]
      exact not_mem_of_mem_split (hparts ▸ mem_cons_self)
    · have htake : content.take remaining =
          content.take start ++ (content.drop start).take readSize := by
        rw [← take_add, Nat.sub_add_cancel (Nat.min_le_right ..)]
      rw [hcollect, rtake_append_rtake, ← hrest, htake, append_assoc, filter_reverse,
        reverse_reverse,
        pieces_append (content.take start) (_ ++ carried), append_assoc]
  | case2 remaining lines carried hend =>
    rw [← hrest]
    by_cases hfull : lines.length < n
    · have hzero : remaining = 0 := by omega
      rw [hzero, take_zero, nil_append, pieces, split_of_not_mem hcarried]
      by_cases hnone : carried = []
      · simp [hnone, rtake_of_length_le hlines]
      · have hle : (carried :: lines).length ≤ n := hfull
        simp [hnone, hfull, rtake_of_length_le hle]
    · rw [if_neg (by simp [hfull]), rtake_append_of_le (by omega), rtake_of_length_le hlines]

/-- The last lines of a file, whatever the chunks. -/
theorem tailN_eq (content : Bytes) (n : Nat) : tailN content n = (pieces content).rtake n := by
  have hspec := @readBack_spec content n content.length [] [] (Nat.zero_le n) not_mem_nil (by simp)
  rw [tailN]
  dsimp only
  rw [hspec]
  apply if_neg
  rw [rtake, length_drop]
  omega

end HeyServer.Logs
