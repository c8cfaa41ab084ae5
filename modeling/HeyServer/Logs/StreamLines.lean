import HeyServer.Lib.Text

/-!
# Streaming the lines appended to a log

`StreamNewLines` positions itself at the end of the file and then drains one `bufio.Scanner` at
every poll. The scanner returns what follows the last line break at its first end of file, and after
that reads nothing more.

## Implementation notes

A poll is given by the bytes that the file gains before the poll meets the end of the file, in
however many pieces they are appended and read. `StreamNewLines` stops its tickers when it returns,
so that its goroutine does not poll a second time; the results allow any number of polls. No line
exceeds the buffer of the scanner.
-/

namespace HeyServer.Logs
open Lib List

/-- The goroutine of a stream: the scanner's bytes after the last line break, whether it has met the
end of the file, and the lines sent on the channel. -/
structure Stream where
  held : Bytes
  eof : Bool
  sent : List Bytes

def opened : Stream := ⟨[], false, []⟩

def dropCR (line : Bytes) : Bytes := if line.getLast? = some 0x0D then line.dropLast else line

variable (s : Stream)

/-- `bufio.ScanLines` on the next byte of the file. -/
def scanByte (b : UInt8) : Stream :=
  if b = 0x0A then { s with held := [], sent := s.sent ++ [dropCR s.held] }
  else { s with held := s.held ++ [b] }

variable (text : Bytes)

def scan : Stream := text.foldl scanByte opened

/-- One pass of the loop in `StreamNewLines`, up to the end of the file. -/
def poll : Stream :=
  -- A scanner that has met the end of the file does not read again.
  if s.eof then s
  else
    let s := text.foldl scanByte s
    { held := [], eof := true, sent := s.sent ++ if s.held = [] then [] else [dropCR s.held] }

/-- The complete lines of a text that continues the line `start`. -/
def completeLines (start : Bytes) : Bytes → List Bytes
  | [] => []
  | b :: text =>
    if b = 0x0A then dropCR start :: completeLines [] text else completeLines (start ++ [b]) text

theorem completeLines_eq_nil_iff (start text : Bytes) :
    completeLines start text = [] ↔ 0x0A ∉ text := by
  fun_induction completeLines start text with
  | case1 => simp
  | case2 => simp
  | case3 start b text hb ih => rw [ih, mem_cons, not_or, and_iff_right (Ne.symm hb)]

theorem sent_scan : (text.foldl scanByte s).sent = s.sent ++ completeLines s.held text := by
  induction text generalizing s with
  | nil => exact (append_nil _).symm
  | cons b text ih =>
    rw [foldl_cons, ih, scanByte, completeLines]
    split_ifs with hb
    · exact append_assoc ..
    · rfl

theorem held_scan_eq_nil_iff : (scan text).held = [] ↔ ∀ b ∈ text.getLast?, b = 0x0A := by
  induction text using reverseRecOn with
  | nil => simp [scan, opened]
  | append_singleton text b =>
    rw [scan, foldl_concat, scanByte]
    split_ifs with hb <;> simp [hb]

/-- After the first poll nothing more is sent. -/
theorem polls_eq (first : Bytes) (later : List Bytes) :
    (first :: later).foldl poll opened = poll opened first := by
  rw [foldl_cons]
  induction later with
  | nil => rfl
  | cons text later ih => exact ih

/-- After every poll the lines sent are the complete lines appended so far exactly if the first poll
finds no part of a line and no line is completed after it. -/
theorem delivers_iff (first : Bytes) (later : List Bytes) :
    (∀ polls, polls <+: first :: later →
        (polls.foldl poll opened).sent = completeLines [] polls.flatten) ↔
      (∀ b ∈ first.getLast?, b = 0x0A) ∧ ∀ text ∈ later, 0x0A ∉ text := by
  have sends (later : List Bytes) : ((first :: later).foldl poll opened).sent =
        completeLines [] (first :: later).flatten ↔
      (if (scan first).held = [] then [] else [dropCR (scan first).held]) =
        completeLines (scan first).held later.flatten := by
    have expected := sent_scan opened (first ++ later.flatten)
    rw [foldl_append, sent_scan] at expected
    rw [polls_eq, flatten_cons]
    exact (Eq.congr_right expected.symm).trans (append_right_inj _)
  rw [← held_scan_eq_nil_iff]
  constructor
  · intro h
    have hheld : (scan first).held = [] := by
      by_contra hne
      have hfirst := (sends []).mp (h [first] (by simp))
      rw [if_neg hne] at hfirst
      cases hfirst
    have hall := (sends later).mp (h _ (prefix_refl _))
    rw [if_pos hheld, eq_comm, completeLines_eq_nil_iff, mem_flatten] at hall
    exact ⟨hheld, fun text htext hb => hall ⟨text, htext, hb⟩⟩
  · rintro ⟨hheld, hlater⟩ polls hpolls
    rcases prefix_cons_iff.mp hpolls with rfl | ⟨seen, rfl, hseen⟩
    · rfl
    · rw [sends, if_pos hheld, eq_comm, completeLines_eq_nil_iff, mem_flatten]
      rintro ⟨text, htext, hb⟩
      exact hlater text (hseen.subset htext) hb

/-- A line appended after the first poll is never sent. -/
theorem second_line_lost :
    ([[], ascii "ab\n"].foldl poll opened).sent = [] ∧
      completeLines [] [[], ascii "ab\n"].flatten = [ascii "ab"] := by
  decide

end HeyServer.Logs
