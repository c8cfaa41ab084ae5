import HeyServer.Backup.Artifacts

/-!
# Scheduled backups

`SetSchedule` rewrites the crontab: the lines of a backup type give way to one line at the end.
Every text it writes ends with a line break, and the empty rest after the break counts as a line
when the text is read again. So each application adds an empty line.

## Implementation notes

What is installed as the crontab is what is listed afterwards. The case mapping of `strings.ToLower`
is a parameter.
-/

namespace HeyServer.Backup
open Lib Lib.Text Lib.Decimal List Service

structure ScheduleOptions where
  cron : Bytes
  type : Bytes
  database : Bytes
  retentionCount : Int

structure ScheduleEntry where
  id : Bytes
  cron : Bytes
  type : Bytes
  database : Bytes
  retentionCount : Int
  isActive : Bool
  rawLine : Bytes

inductive ScheduleError
  | cron | type | retention | database
  deriving DecidableEq

def cronMarker : Bytes := ascii "# hserver-backup"

/-- The class `\s` of regular expressions. -/
def isBlank (b : UInt8) : Bool := b = 0x20 || (0x09 ≤ b && b ≤ 0x0D && b ≠ 0x0B)

def isCronField (field : Bytes) : Bool :=
  field = [0x2A] || (field.splitOnP fun b => b = 0x2C || b = 0x2D || b = 0x2F).all
    fun number => number ≠ [] && number.all Json.isDigit

/-- The expression is trimmed, so that blanks stand between its fields only. -/
def validateCron (expr : Bytes) : Bool :=
  let fields := ((trimSpace expr).splitOnP isBlank).filter (· ≠ [])
  fields.length = 5 && fields.all isCronField

def extractMeta (line label : Bytes) : Bytes :=
  match line.tails.find? label.isPrefixOf with
  | none => []
  | some found => (fields (found.drop label.length)).headD []

/-- `fmt.Sscanf` with `%d`. -/
def scanDecimal : Bytes → Option Int
  | 0x2B :: rest => parseInt (rest.takeWhile Json.isDigit)
  | 0x2D :: rest => parseInt (0x2D :: rest.takeWhile Json.isDigit)
  | text => parseInt (text.takeWhile Json.isDigit)

def parseSchedule (crontab : Bytes) : List ScheduleEntry :=
  (split 0x0A crontab).zipIdx.filterMap fun (line, i) =>
    let parts := fields line
    if !(cronMarker <:+: line) || parts.length < 6 then none
    else
      some {
        id := ascii "cron-" ++ formatNat i
        cron := join 0x20 (parts.take 5)
        type := extractMeta line (ascii "type=")
        database := extractMeta line (ascii "db=")
        retentionCount := (scanDecimal (extractMeta line (ascii "retention="))).getD 10
        isActive := !(ascii "#").isPrefixOf (trimSpace line)
        rawLine := line }

/-- The line that `SetSchedule` adds. -/
def Service.scheduleLine (s : Service) (backupType : Bytes) (opts : ScheduleOptions) : Bytes :=
  let database := if opts.database ≠ [] then ascii " db=" ++ sanitize opts.database else []
  opts.cron ++ ascii " " ++ filepathJoin s.backupDir (ascii "run-backup.sh") ++ ascii " type=" ++
    backupType ++ ascii " retention=" ++ formatInt opts.retentionCount ++ database ++ ascii " " ++
    cronMarker

/-- The lines without those of the type. -/
def otherLines (backupType existing : Bytes) : List Bytes :=
  (split 0x0A existing).filter fun line =>
    !(cronMarker <:+: line && extractMeta line (ascii "type=") = backupType)

def Service.setSchedule (s : Service) (lower : Bytes → Bytes) (opts : ScheduleOptions)
    (existing : Bytes) : Except ScheduleError Bytes :=
  let backupType := lower (trimSpace opts.type)
  if !validateCron opts.cron then .error .cron
  else if backupType ∉ [ascii "full", ascii "database", ascii "files", ascii "snapshot"] then
    .error .type
  else if opts.retentionCount < 1 ∨ 365 < opts.retentionCount then .error .retention
  else if opts.database ≠ [] ∧ sanitize opts.database ≠ opts.database then .error .database
  else
    .ok (join 0x0A (otherLines backupType existing ++ [s.scheduleLine backupType opts]) ++ [0x0A])

/-- What is expected of an accepted request: the other lines stay, one line is new, one entry of the
type is reported as requested, and the same request changes nothing more. -/
structure EditsOneLine (s : Service) (lower : Bytes → Bytes) (opts : ScheduleOptions)
    (existing updated : Bytes) : Prop where
  kept : (otherLines (lower (trimSpace opts.type)) existing).Sublist (split 0x0A updated)
  added : (split 0x0A updated).length = (otherLines
    (lower (trimSpace opts.type)) existing).length + 1
  reported : ∃ entry,
    (parseSchedule updated).filter (·.type = lower (trimSpace opts.type)) = [entry] ∧
      entry.cron = opts.cron ∧ entry.database = opts.database ∧
      entry.retentionCount = opts.retentionCount
  again : s.setSchedule lower opts updated = .ok updated

section
variable {s : Service} {lower : Bytes → Bytes} {opts : ScheduleOptions}
  {backupType existing updated line : Bytes}

theorem setSchedule_eq_ok (h : s.setSchedule lower opts existing = .ok updated) :
    updated = join 0x0A (otherLines (lower (trimSpace opts.type)) existing ++
      [s.scheduleLine (lower (trimSpace opts.type)) opts]) ++ [0x0A] := by
  unfold setSchedule at h
  dsimp only at h
  split_ifs at h
  exact (Except.ok.inj h).symm

/-- The written text has the other lines, the new ones, and an empty rest. -/
theorem split_written :
    split 0x0A (join 0x0A (otherLines backupType existing ++ [line]) ++ [0x0A]) =
      otherLines backupType existing ++ split 0x0A line ++ [[]] := by
  have hwhole : ∀ part ∈ otherLines backupType existing, 0x0A ∉ part :=
    fun part hpart => not_mem_of_mem_split (mem_of_mem_filter hpart)
  rw [split_append, split_join_flatMap (by simp), flatMap_append, flatMap_split hwhole,
    flatMap_singleton]
  rfl

/-- What was kept is kept again, and so is the empty rest. -/
theorem length_otherLines (backupType existing line : Bytes) :
    (otherLines backupType existing).length < (otherLines backupType
      (join 0x0A (otherLines backupType existing ++ [line]) ++ [0x0A])).length := by
  have hkept : ∀ part ∈ otherLines backupType existing,
      (!(cronMarker <:+: part && extractMeta part (ascii "type=") = backupType)) = true :=
    fun part hpart => (mem_filter.mp hpart).2
  have hempty : ¬ cronMarker <:+: [] := by decide
  conv_rhs => rw [otherLines, split_written]
  rw [filter_append, filter_append, filter_eq_self.mpr hkept]
  simp [hempty]

/-- No accepted request edits one line only: the second application adds a line. -/
theorem setSchedule_adds_lines (h : s.setSchedule lower opts existing = .ok updated) :
    ¬ EditsOneLine s lower opts existing updated := by
  rintro ⟨-, -, -, hagain⟩
  have hupdated := setSchedule_eq_ok h
  have hmore := length_otherLines (lower (trimSpace opts.type)) existing
    (s.scheduleLine (lower (trimSpace opts.type)) opts)
  rw [← hupdated] at hmore
  have hlines := congrArg (split 0x0A) (hupdated.symm.trans (setSchedule_eq_ok hagain))
  rw [split_written, split_written] at hlines
  have hlength := congrArg length hlines
  simp only [length_append] at hlength
  omega

end

/-- A full backup at three, of which five are kept. -/
def nightly : ScheduleOptions := ⟨ascii "0 3 * * *", ascii "full", [], 5⟩

/-- The crontab after the first request. -/
def nightlyCrontab : Bytes :=
  ascii "\n0 3 * * * /b/run-backup.sh type=full retention=5 # hserver-backup\n"

theorem nightly_added_twice :
    (newAt (ascii "/b")).setSchedule toLower nightly [] = .ok nightlyCrontab ∧
      (newAt (ascii "/b")).setSchedule toLower nightly nightlyCrontab =
        .ok (0x0A :: nightlyCrontab) ∧
      ¬ EditsOneLine (newAt (ascii "/b")) toLower nightly [] nightlyCrontab := by
  have hagain : (newAt (ascii "/b")).setSchedule toLower nightly nightlyCrontab =
      .ok (0x0A :: nightlyCrontab) := by decide +kernel
  refine ⟨by decide +kernel, hagain, fun h => ?_⟩
  cases hagain.symm.trans h.again

theorem nightly_adds_lines :
    ¬ EditsOneLine (newAt (ascii "/b")) toLower nightly [] nightlyCrontab :=
  setSchedule_adds_lines (by decide +kernel)

end HeyServer.Backup
