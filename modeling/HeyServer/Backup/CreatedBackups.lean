import HeyServer.Backup.ArtifactIds
import HeyServer.Backup.FailedBackups
import HeyServer.Lib.Ranking

/-!
# Finding a created backup again

All that is known of a backup is its file name and, for a dump, the first line of its text. The name
is put together from the options and taken apart again by looking for marks such as `-db-`, which
the options may contain as well. The type of a backup is checked without regard to case, but only
the exact words `database` and `files` start a backup of this kind.
-/

namespace HeyServer.Backup
open Lib Utf8 Lib.Text Lib.Affixes Lib.Base64 List Service Unrelated

/-! ## Reading the target of a dump -/

inductive TargetError
  | unreadable
  | tooLong
  | badMetadata
  | badTarget (database : Bytes)
  | mismatch (target base : Bytes)
  | missing (base : Bytes)
  deriving DecidableEq, Repr

def gzEnding : Bytes := ascii ".gz"

def validateDatabaseTarget (database : Bytes) : Except TargetError Bytes :=
  if database = ascii "all" then .ok database
  else if database = [] ∨ sanitize database ≠ database then .error (.badTarget database)
  else .ok database

/-- The limit of the reader, and of a line the scanner takes. -/
def scanLimit : Nat := 64 * 1024

/-- The first line as `bufio.Scanner` gives it, without its line break. -/
def scanLine (text : Bytes) : Except TargetError (Option Bytes) :=
  let window := text.take scanLimit
  let line := window.takeWhile (· ≠ 0x0A)
  if window = [] then .ok none
  else if line.length = scanLimit then .error .tooLong
  else .ok (some (if line.getLast? = some 0x0D then line.dropLast else line))

/-- The part after the last occurrence of the mark. -/
def afterLast (mark text : Bytes) : Option Bytes :=
  (text.tails.reverse.find? fun tail => mark.isPrefixOf tail).map fun tail => tail.drop mark.length

def metadataTarget (filePath engine line : Bytes) : Except TargetError Bytes :=
  match decodeRawUrl (trimSpace (trimPrefix line databaseTargetHeader)) with
  | none => .error .badMetadata
  | some decoded => do
      let target ← validateDatabaseTarget decoded
      let base := base filePath
      let ending := ascii "-db-" ++ target ++ ascii "-" ++ engine ++ sqlEnding
      if ascii "-db-" <:+: base ∧ ¬ ending <:+
        trimSuffix base gzEnding then .error (.mismatch target base)
      else .ok target

/-- The target of a dump without metadata. -/
def nameTarget (filePath engine : Bytes) : Except TargetError Bytes :=
  let base := stripEach [gzEnding, sqlEnding, ascii "-" ++ engine] (base filePath)
  match afterLast (ascii "-db-") base with
  | none => .error (.missing (Text.base filePath))
  | some target => validateDatabaseTarget target

def databaseTargetFromBackup (gz : Gzip) (filePath data engine : Bytes) :
    Except TargetError Bytes :=
  match if gzEnding <:+ filePath then gz.gunzip data else some data with
  | none => .error .unreadable
  | some text => do
      match ← scanLine text with
      | none => nameTarget filePath engine
      | some line =>
        if databaseTargetHeader.isPrefixOf line then metadataTarget filePath engine line
        else nameTarget filePath engine

theorem scanLine_header (database dump : Bytes) (hshort : database.length ≤ nameMax) :
    scanLine (databaseBackupHeader database ++ dump) =
      .ok (some (databaseTargetHeader ++ encodeRawUrl database)) := by
  have hplain : ∀ b ∈ databaseTargetHeader ++ encodeRawUrl database, b ≠ 0x0A ∧ b ≠ 0x0D := by
    intro b hb
    rcases mem_append.mp hb with hb | hb
    · exact of_decide_eq_true (all_eq_true.mp (show databaseTargetHeader.all
        (fun b => decide (b ≠ 0x0A ∧ b ≠ 0x0D)) = true by decide) b hb)
    · have hlow := (mem_encodeRawUrl hb).1
      constructor
      all_goals
        rintro rfl
        revert hlow
        decide
  have hlength : (databaseTargetHeader ++ encodeRawUrl database).length < 1024 := by
    have hencoded := length_encodeRawUrl_le database
    have hheader : databaseTargetHeader.length = 27 := rfl
    rw [length_append, hheader]
    rw [nameMax] at hshort
    omega
  generalize htext : databaseTargetHeader ++ encodeRawUrl database = line at hplain hlength
  have hwindow : ∃ rest, (line ++ ([0x0A] : Bytes) ++ dump).take scanLimit =
      line ++ 0x0A :: rest := by
    refine ⟨dump.take (scanLimit - (line ++ ([0x0A] : Bytes)).length), ?_⟩
    rw [take_append, take_of_length_le, append_assoc]
    · rfl
    · rw [length_append, length_singleton, scanLimit]
      omega
  obtain ⟨rest, hwindow⟩ := hwindow
  have hline : (line ++ 0x0A :: rest).takeWhile (· ≠ 0x0A) = line := by
    rw [takeWhile_append_of_pos fun b hb => decide_eq_true (hplain b hb).1]
    simp
  have hlast : line.getLast? ≠ some 0x0D := by
    intro hlast
    exact (hplain _ (mem_of_getLast? hlast)).2 rfl
  rw [databaseBackupHeader, htext, scanLine, hwindow]
  have hfits : line.length ≠ scanLimit := by
    rw [scanLimit]
    omega
  rw [hline, if_neg (by simp), if_neg hfits, if_neg hlast]

/-- The first line of a dump tells the target it was made with. -/
theorem metadataTarget_header {filePath engine database : Bytes}
    (hplain : sanitize database = database) :
    metadataTarget filePath engine (databaseTargetHeader ++ encodeRawUrl database) =
      if database = [] then .error (.badTarget []) else if ascii "-db-" <:+: base filePath ∧
          ¬ ascii "-db-" ++ database ++ ascii "-" ++ engine ++ sqlEnding <:+
            trimSuffix (base filePath) gzEnding then
        .error (.mismatch database (base filePath)) else .ok database := by
  have hcut : trimPrefix (databaseTargetHeader ++ encodeRawUrl database) databaseTargetHeader =
      encodeRawUrl database := by
    rw [trimPrefix, if_pos ( isPrefixOf_iff_prefix.mpr (prefix_append _ _)), drop_left]
  have hspace : trimSpace (encodeRawUrl database) = encodeRawUrl database := by
    apply trimSpace_eq_self
    · intro b hb
      exact (mem_encodeRawUrl hb).2
    · intro b hb
      obtain ⟨hlow, hhigh⟩ := mem_encodeRawUrl hb
      simp only [isSpaceRune, Bool.or_eq_false_iff, Bool.and_eq_false_iff, decide_eq_false_iff_not]
      omega
  rw [metadataTarget, hcut, hspace, decodeRawUrl_encodeRawUrl]
  by_cases hnil : database = []
  · rw [if_pos hnil, hnil]
    rfl
  · have hvalid : validateDatabaseTarget database = .ok database := by
      rw [validateDatabaseTarget, if_neg (not_or.mpr ⟨hnil, not_not.mpr hplain⟩), ite_self]
    rw [if_neg hnil]
    dsimp only
    rw [hvalid]
    rfl

/-! ## Taking names apart -/

variable {s : Bytes}

theorem isName_of_long (hslash : (0x2F : UInt8) ∉ s) (hlong : 2 < s.length) : isName s = true := by
  have hshort : ∀ t : Bytes, t.length ≤ 2 → s ≠ t := by
    rintro t ht rfl
    omega
  exact isName_iff.mpr ⟨hshort _ (by decide), hshort _ (by decide), hshort _ (by decide), hslash⟩

theorem isName_of_idBytes (hid : ∀ b ∈ s, isIdByte b = true) (hlong : 2 < s.length) :
    isName s = true :=
  isName_of_long (fun hslash => absurd (hid _ hslash) (by decide)) hlong

theorem isIdByte_of_mem_sanitize {b : UInt8} (hb : b ∈ sanitize s) : isIdByte b = true :=
  (mem_filter.mp hb).2

/-- An ending other than `.part` hides nothing of the name. -/
theorem trimSuffix_part {s ending : Bytes} (h : ending <:+ s)
    (hapart : Unrelated ending partEnding) :
    trimSuffix s partEnding = s :=
  trimSuffix_of_not (hapart.not_both h)

section Names

variable (name : Bytes) (opts : CreateOptions)

theorem suffix_databaseFilename : sqlGzEnding <:+ databaseFilename name opts := suffix_append _ _

theorem suffix_filesFilename : tarEnding <:+ filesFilename name :=
  (show tarEnding <:+ ascii "-files.tar.gz" by decide).trans (suffix_append _ _)

theorem suffix_fullFilename : tarEnding <:+ fullFilename name :=
  (show tarEnding <:+ ascii "-full.tar.gz" by decide).trans (suffix_append _ _)

theorem parseType_database : parseType (databaseFilename name opts) = .database := by
  have hmark : ascii "-db-" <:+: databaseFilename name opts :=
    ⟨name, databaseOf opts ++ ascii "-" ++ engineOf opts ++ sqlGzEnding,
      by simp [databaseFilename]⟩
  rw [parseType, trimSuffix_part (suffix_databaseFilename name opts) (by decide)]
  exact if_pos (.inl hmark)

theorem databaseMark_iff {ending : Bytes}
    (hending : (0x2D : UInt8) ∉ ending ∧ (0x5F : UInt8) ∉ ending) :
    (ascii "-db-" <:+: name ++ 0x2D :: ending ∨ ascii "_db_" <:+: name ++ 0x2D :: ending) ↔
      (ascii "-db-" <:+: name ++ ascii "-" ∨ ascii "_db_" <:+: name) := by
  have hdash := infix_append_iff (x := ascii "-db") (a := name ++ ascii "-") hending.1
  have hunder := infix_append_iff (x := ascii "_db") (a := name) (b := ascii "-" ++ ending)
    (c := 0x5F) (by simpa using ⟨by decide, hending.2⟩)
  rw [append_assoc name (ascii "-") ending] at hdash
  exact or_congr hdash hunder

theorem parseType_files : parseType (filesFilename name) = .files ↔
    ¬ (ascii "-db-" <:+: name ++ ascii "-" ∨ ascii "_db_" <:+: name) := by
  have hfiles : ascii "-files" <:+: filesFilename name :=
    ⟨name, tarEnding, by simp [filesFilename]; rfl⟩
  rw [parseType, trimSuffix_part (suffix_filesFilename name) (by decide),
    ← databaseMark_iff name (show _ ∉ ascii "files.tar.gz" ∧ _ ∉ _ by decide)]
  change _ ↔ ¬ (_ <:+: filesFilename name ∨ _ <:+: filesFilename name)
  split_ifs with hdatabase hother
  · simp [hdatabase]
  · simp [hdatabase]
  · exact absurd (.inl hfiles) hother

theorem parseType_full : parseType (fullFilename name) = .full ↔
    ¬ (ascii "-db-" <:+: name ++ ascii "-" ∨ ascii "_db_" <:+: name) ∧
      ¬ (ascii "-files" <:+: name ∨ ascii "_files" <:+: name) := by
  have hmark : ascii "-db-" <:+: fullFilename name ∨ ascii "_db_" <:+: fullFilename name ↔ _ :=
    databaseMark_iff name (show _ ∉ ascii "full.tar.gz" ∧ _ ∉ _ by decide)
  have hdash : ascii "-files" <:+: fullFilename name ↔ ascii "-files" <:+: name :=
    infix_append_iff (x := ascii "-file") (c := 0x73) (by decide)
  have hunder : ascii "_files" <:+: fullFilename name ↔ ascii "_files" <:+: name :=
    infix_append_iff (x := ascii "_file") (c := 0x73) (by decide)
  rw [parseType, trimSuffix_part (suffix_fullFilename name) (by decide), ← hmark, ← hdash, ← hunder]
  split_ifs with hdatabase hfiles
  · simp [hdatabase]
  · simp [hdatabase, hfiles]
  · simp [hdatabase, hfiles]

theorem isOrphaned_tar {filename : Bytes} (htar : tarEnding <:+ filename) :
    isOrphanedArtifact filename = true ↔ ascii "-partial-files.tar.gz" <:+ filename := by
  have hpart : ¬ partEnding <:+ filename := not_both (by decide) htar
  have hsqlGz : ¬ sqlGzEnding <:+ filename := not_both (by decide) htar
  have hsql : ¬ sqlEnding <:+ filename := not_both (by decide) htar
  simp [isOrphanedArtifact, hpart, hsqlGz, hsql]

theorem isOrphaned_files :
    isOrphanedArtifact (filesFilename name) = true ↔ ascii "-partial" <:+ name := by
  rw [isOrphaned_tar (suffix_filesFilename name)]
  have hsplit : ascii "-partial-files.tar.gz" = ascii "-partial" ++ ascii "-files.tar.gz" := rfl
  rw [hsplit, filesFilename]
  exact suffix_append_self_iff

theorem isOrphaned_full : isOrphanedArtifact (fullFilename name) = false := by
  rw [Bool.eq_false_iff]
  intro h
  have hfull : ascii "-full.tar.gz" <:+ fullFilename name := suffix_append _ _
  exact not_both (by decide) hfull ((isOrphaned_tar (suffix_fullFilename name)).mp h)

theorem isOrphaned_database {engine : Engine} (hengine : engineOf opts = engine.name) :
    isOrphanedArtifact (databaseFilename name opts) = true ↔
      ascii "-partial-db-" <:+: name ++ ascii "-db-" ++ databaseOf opts ++ ascii "-" := by
  have hsuffix := suffix_databaseFilename name opts
  have hpart : ¬ partEnding <:+ databaseFilename name opts := not_both (by decide) hsuffix
  have hfiles : ¬ ascii "-partial-files.tar.gz" <:+ databaseFilename name opts :=
    not_both (by decide) hsuffix
  have hdash : (0x2D : UInt8) ∉ engine.name ++ sqlGzEnding := by cases engine <;> decide
  have hmark : ascii "-partial-db-" <:+: databaseFilename name opts ↔
      ascii "-partial-db-" <:+: name ++ ascii "-db-" ++ databaseOf opts ++ ascii "-" := by
    rw [databaseFilename, hengine, append_assoc _ engine.name]
    exact infix_append_iff (x := ascii "-partial-db") hdash
  simp [isOrphanedArtifact, hpart, hfiles, hsuffix, hmark]

theorem isRecognized_database : isRecognizedBackupArtifact (databaseFilename name opts) = true := by
  have hsuffix := suffix_databaseFilename name opts
  rw [isRecognizedBackupArtifact, trimSuffix_part hsuffix (by decide)]
  simp [hsuffix]

theorem isRecognized_tar {filename : Bytes} (htar : tarEnding <:+ filename) :
    isRecognizedBackupArtifact filename = true := by
  rw [isRecognizedBackupArtifact, trimSuffix_part htar (by decide)]
  simp [htar]

end Names

/-! ## What was created -/

theorem ToolRun.exec_ok {run : ToolRun} {path : Bytes} {content : Bytes → Bytes} {files : Files}
    (h : (run.exec path content files).2 = true) :
    (base path).length ≤ nameMax ∧ ∃ output blocks modTime, run = .finished output blocks modTime ∧
      (run.exec path content files).1 = files.put path ⟨content output, blocks, modTime⟩ := by
  unfold ToolRun.exec at h ⊢
  split_ifs at h ⊢ with hlong
  refine ⟨Nat.le_of_not_lt hlong, ?_⟩
  cases run with
  | notOpened | broken => cases h
  | finished output blocks modTime => exact ⟨output, blocks, modTime, rfl, rfl⟩

variable (s : Service)

theorem Service.statBackup_type (files : Files) (now : Int) (filename : Bytes)
    (type : BackupType) : (s.statBackup files now filename type).type = type := by
  rw [statBackup]
  cases files (filepathJoin s.backupDir filename) with
  | none | some => rfl

section Created

variable {mode : Mode} {gz : Gzip} {host : Host} {s : Service} {opts : CreateOptions}
  {checks : Checks}
  {ts : Bytes} {files files' : Files} {info : BackupInfo}

/-- The part of `Create` after the checks. -/
theorem Service.create_ok (h : s.create mode gz host opts checks ts files = (files', .ok info)) :
    s.backupDir ≠ [] ∧ (if opts.type = ascii "database" then
        s.createDatabase gz host opts (namePart opts ts) (gzipLevel opts) files
      else if opts.type = ascii "files" then s.createFiles mode host (namePart opts ts) files
      else s.createFull mode gz host opts (namePart opts ts) (gzipLevel opts) files) =
        (files', .ok info) := by
  rw [create] at h
  split at h
  · cases h
  · next hprepare =>
    obtain ⟨-, -, hrest⟩ := bind_eq_ok.mp hprepare
    rw [ite_error_eq_ok] at hrest
    exact ⟨fun hnil => hrest.1 (.inl hnil), h⟩

variable {name : Bytes} {level : Int}

theorem createDatabase_ok
    (h : s.createDatabase gz host opts name level files = (files', .ok info)) :
    info.type = .database ∧ info.path = filepathJoin s.backupDir (databaseFilename name opts) ∧
      (base info.path).length ≤ nameMax ∧ ∃ dump blocks modTime, files' info.path =
        some ⟨gz.gzip level (databaseBackupHeader (databaseOf opts) ++ dump), blocks, modTime⟩ := by
  have hpath := s.createDatabase_path gz host opts (congrArg Prod.snd h)
  rw [hpath]
  rw [createDatabase] at h
  split_ifs at h with hfailed hsmall
  · cases h
  · cases h
  · obtain ⟨hfiles, hinfo⟩ := Prod.mk.inj h
    obtain ⟨hshort, dump, blocks, modTime, -, hput⟩ :=
      ToolRun.exec_ok (Bool.eq_true_of_not_eq_false hfailed)
    refine ⟨?_, rfl, hshort, dump, blocks, modTime, ?_⟩
    · rw [← Except.ok.inj hinfo]
      exact s.statBackup_type _ _ _ _
    · rw [← hfiles, hput, Files.put, if_pos rfl]

theorem createFiles_ok (h : s.createFiles .sync host name files = (files', .ok info)) :
    info.type = .files ∧ info.path = filepathJoin s.backupDir (filesFilename name) := by
  refine ⟨?_, s.createFiles_path .sync host (congrArg Prod.snd h)⟩
  rw [createFiles] at h
  split_ifs at h
  · cases h
  · cases h
  · rw [← Except.ok.inj (Prod.mk.inj h).2]
    exact s.statBackup_type _ _ _ _

theorem assembleFull_ok
    (h : s.assembleFull mode gz host opts name level files = (files', .ok info)) :
    info = s.statBackup files' host.now (fullFilename name) .full ∧ info.status = .completed := by
  rw [assembleFull] at h
  dsimp only at h
  split at h
  · split at h
    · cases h
    -- which files are left depends on the mode, the check does not
    generalize ite (mode = .sync) _ _ = left at h
    split at h
    · cases h
    next hstatus =>
    obtain ⟨rfl, hinfo⟩ := Prod.mk.inj h
    cases hinfo
    exact ⟨rfl, not_not.mp hstatus⟩
  all_goals cases h

/-- The archive is looked at before the last files are removed. -/
theorem createFull_stat (h : s.createFull mode gz host opts name level files = (files', .ok info)) :
    ∃ assembled, info = s.statBackup assembled host.now (fullFilename name) .full ∧
      info.status = .completed ∧
      files' = assembled.removeAll host.removes (s.removedByFull opts name host.list) := by
  rw [createFull] at h
  cases hassembled : s.assembleFull mode gz host opts name level files with
  | mk assembled result =>
    rw [hassembled] at h
    cases result with
    | error => cases h
    | ok =>
      cases h
      obtain ⟨hinfo, hstatus⟩ := assembleFull_ok hassembled
      exact ⟨assembled, hinfo, hstatus, rfl⟩

theorem createFull_ok (h : s.createFull .sync gz host opts name level files = (files', .ok info)) :
    info.type = .full ∧ info.path = filepathJoin s.backupDir (fullFilename name) ∧
      backupValidity (fullFilename name) info.size = .completed := by
  obtain ⟨assembled, rfl, hstatus, -⟩ := createFull_stat h
  refine ⟨s.statBackup_type _ _ _ _, s.statBackup_path _ _ _ _, ?_⟩
  revert hstatus
  rw [statBackup]
  split
  · exact fun h => by cases h
  · exact id

end Created

/-! ## What a restore reads -/

section Dump

variable {opts : CreateOptions} {engine : Engine} (hengine : engineOf opts = engine.name)
include hengine

theorem isIdByte_databaseFilename (ts : Bytes) :
    ∀ b ∈ databaseFilename (namePart opts ts) opts, isIdByte b = true := by
  have hfixed : ∀ text : Bytes, text.all isIdByte = true → ∀ b ∈ text, isIdByte b = true :=
    fun text h => all_eq_true.mp h
  intro b hb
  simp only [databaseFilename, hengine, mem_append] at hb
  rcases hb with ((((hb | hb) | hb) | hb) | hb) | hb
  · exact isIdByte_of_mem_sanitize hb
  · exact hfixed (ascii "-db-") (by decide) b hb
  · exact isIdByte_of_mem_sanitize hb
  · exact hfixed (ascii "-") (by decide) b hb
  · exact hfixed engine.name (by cases engine <;> decide) b hb
  · exact hfixed sqlGzEnding (by decide) b hb

theorem isName_databaseFilename (ts : Bytes) :
    isName (databaseFilename (namePart opts ts) opts) = true := by
  apply isName_of_idBytes (isIdByte_databaseFilename hengine ts)
  exact Nat.lt_of_lt_of_le (show 2 < sqlGzEnding.length by decide)
    (suffix_databaseFilename (namePart opts ts) opts).length_le

theorem databaseEngine_eq {name : Bytes} (hname : isName (databaseFilename name opts) = true) :
    databaseEngineFromBackupName (databaseFilename name opts) = .ok engine := by
  have hsuffix : ascii "-" ++ engine.name ++ sqlGzEnding <:+ databaseFilename name opts :=
    ⟨name ++ ascii "-db-" ++ databaseOf opts, by simp [databaseFilename, hengine]⟩
  rw [databaseEngineFromBackupName, base_of_isName hname]
  cases engine with
  | postgresql => exact if_pos (.inl hsuffix)
  | mariadb =>
    have hmaria : ascii "-mariadb.sql.gz" <:+ databaseFilename name opts := hsuffix
    have hpostgres : ¬ (ascii "-postgresql.sql.gz" <:+ databaseFilename name opts ∨
        ascii "-postgresql.sql" <:+ databaseFilename name opts) :=
      not_or.mpr ⟨not_both (by decide) hmaria, not_both (by decide) hmaria⟩
    rw [if_neg hpostgres]
    exact if_pos (.inl hmaria)

theorem databaseTarget_eq (gz : Gzip) {dir name : Bytes} (hdir : dir ≠ [])
    (hname : isName (databaseFilename name opts) = true)
    (hshort : (base (filepathJoin dir (databaseFilename name opts))).length ≤ nameMax) (level : Int)
    (dump : Bytes) : databaseTargetFromBackup gz (filepathJoin dir (databaseFilename name opts))
        (gz.gzip level (databaseBackupHeader (databaseOf opts) ++ dump)) engine.name =
      if databaseOf opts = [] then .error (.badTarget []) else .ok (databaseOf opts) := by
  have hjoin : filepathJoin dir (databaseFilename name opts) =
      pathJoin dir (databaseFilename name opts) :=
    if_neg hdir
  have hbase := base_pathJoin hdir hname
  rw [hjoin] at hshort ⊢
  rw [hbase] at hshort
  have hgz : gzEnding <:+ pathJoin dir (databaseFilename name opts) :=
    ((show gzEnding <:+ sqlGzEnding by decide).trans (suffix_databaseFilename name opts)).trans
      (suffix_pathJoin hdir hname)
  have hdatabase : (databaseOf opts).length ≤ nameMax := by
    refine Nat.le_trans (List.IsInfix.length_le ?_) hshort
    exact ⟨name ++ ascii "-db-", ascii "-" ++ engineOf opts ++ sqlGzEnding,
      by simp [databaseFilename]⟩
  have hending : ascii "-db-" ++ databaseOf opts ++ ascii "-" ++ engine.name ++ sqlEnding <:+
      trimSuffix (databaseFilename name opts) gzEnding := by
    have hsplit : databaseFilename name opts =
        name ++ (ascii "-db-" ++ databaseOf opts ++ ascii "-" ++ engine.name ++ sqlEnding) ++
          gzEnding := by
      have hsql : sqlGzEnding = sqlEnding ++ gzEnding := rfl
      simp [databaseFilename, hengine, hsql]
    rw [hsplit, trimSuffix_append]
    exact suffix_append _ _
  have hplain : sanitize (databaseOf opts) = databaseOf opts := sanitize_sanitize _
  rw [databaseTargetFromBackup, if_pos hgz, gz.gunzip_gzip]
  simp only [scanLine_header _ _ hdatabase, bind, Except.bind]
  rw [if_pos ( isPrefixOf_iff_prefix.mpr (prefix_append _ _)), metadataTarget_header hplain, hbase]
  have hmatch : ¬ (ascii "-db-" <:+: databaseFilename name opts ∧
      ¬ ascii "-db-" ++ databaseOf opts ++ ascii "-" ++ engine.name ++ sqlEnding <:+
        trimSuffix (databaseFilename name opts) gzEnding) := fun h => h.2 hending
  rw [if_neg hmatch]

end Dump

/-! ## Finding a file in a list -/

variable (disk : Disk)

/-- The directories after some files have been removed. -/
def Disk.removing (paths : List Bytes) : Disk where
  readDir dir := (disk.readDir dir).filter fun e => filepathJoin dir e.name ∉ paths
  isName_of_mem dir e he := disk.isName_of_mem dir e (List.mem_filter.mp he).1
  nodup dir := (List.filter_sublist.map _).nodup (disk.nodup dir)
  nowhere := by rw [disk.nowhere, List.filter_nil]

/-- The backup directory shows the file that has been written. -/
def Disk.Has (s : Service) (info : BackupInfo) : Prop :=
  ∀ name, isName name = true → filepathJoin s.backupDir name = info.path →
    ∃ e ∈ disk.readDir s.backupDir,
      e.name = name ∧ e.isDir = false ∧ e.size = info.size ∧ e.modTime = info.createdAt

section Listed

variable {s : Service} {disk : Disk} {list : List BackupInfo}

theorem Service.Listing.of_entry (h : s.Listing disk list) {e : DirEntry}
    (he : e ∈ disk.readDir s.backupDir) (hshown : isShown false e = true) :
    backupInfo s.backupDir [] e ∈ list := by
  refine h.mem_iff.mpr ⟨⟨s.backupDir, [], e⟩, ?_, rfl⟩
  exact mem_append_left _ (mem_map_of_mem (mem_filter.mpr ⟨he, hshown⟩))

theorem Service.Listing.entry_of_path (h : s.Listing disk list) (hdir : s.backupDir ≠ [])
    {name : Bytes}
    (hname : isName name = true) {b : BackupInfo} (hb : b ∈ list)
    (hpath : b.path = filepathJoin s.backupDir name) :
    ∃ e ∈ disk.readDir s.backupDir, e.name = name ∧ b = backupInfo s.backupDir [] e := by
  obtain ⟨a, ha, rfl⟩ := h.mem_iff.mp hb
  obtain ⟨hentry, hplace⟩ := mem_artifacts ha
  have hjoin : pathJoin a.dir a.entry.name = pathJoin s.backupDir name := by
    calc pathJoin a.dir a.entry.name = a.info.path := (if_neg (dir_ne_nil hentry)).symm
      _ = filepathJoin s.backupDir name := hpath
      _ = pathJoin s.backupDir name := if_neg hdir
  obtain ⟨hclean, hsame⟩ := pathJoin_inj (dir_ne_nil hentry) hdir (disk.isName_of_mem _ _ hentry)
    hname hjoin
  rcases hplace with ⟨hmain, hnone, -⟩ | ⟨hother, -⟩
  · rw [hmain] at hentry
    refine ⟨a.entry, hentry, hsame, ?_⟩
    rw [Artifact.info, hmain, hnone]
  · exact absurd hclean hother

/-- A file of the backup directory is listed as its name says, unless it is removed. -/
theorem listed_iff (hdir : s.backupDir ≠ []) {name : Bytes} (hname : isName name = true)
    (hrecognized : isRecognizedBackupArtifact name = true) {paths : List Bytes}
    (hentry : ∃ e ∈ disk.readDir s.backupDir, e.name = name ∧ e.isDir = false)
    (hlist : s.Listing (disk.removing paths) list) (type : BackupType)
    (reads : Bytes → Bytes → Prop) :
    (∃ b ∈ list, b.path = filepathJoin s.backupDir name ∧ b.type = type ∧ b.status ≠ .orphaned ∧
        reads b.name b.path) ↔
      filepathJoin s.backupDir name ∉ paths ∧ parseType name = type ∧
        isOrphanedArtifact name = false ∧
        reads name (filepathJoin s.backupDir name) := by
  constructor
  · rintro ⟨b, hb, hpath, htype, hstatus, hreads⟩
    obtain ⟨e, he, rfl, rfl⟩ := hlist.entry_of_path hdir hname hb hpath
    refine ⟨of_decide_eq_true (mem_filter.mp he).2, htype, ?_, hreads⟩
    rw [Bool.eq_false_iff]
    exact fun horphaned => hstatus (status_orphaned_iff.mpr horphaned)
  · rintro ⟨hkept, htype, horphaned, hreads⟩
    obtain ⟨e, he, rfl, hfile⟩ := hentry
    have hshown : isShown false e = true := by rw [isShown, hfile, hrecognized]; rfl
    refine ⟨backupInfo s.backupDir [] e, ?_, rfl, htype, ?_, hreads⟩
    · exact hlist.of_entry (mem_filter.mpr ⟨he, decide_eq_true hkept⟩) hshown
    · intro hstatus
      rw [status_orphaned_iff, horphaned] at hstatus
      cases hstatus

end Listed

/-! ## Old backups that are removed -/

/-- Backups that count when old full backups are removed. -/
def isKept (b : BackupInfo) : Bool := b.type = .full ∧ b.status = .completed

variable (info : BackupInfo)

/-- The other completed full backups of the backup directory that are not older than `info`. -/
def Service.rivals : List BackupInfo :=
  (listDirectory disk s.backupDir false []).filter fun b =>
    isKept b ∧ b.path ≠ info.path ∧ info.createdAt ≤ b.createdAt

section Retention

variable {s : Service} {disk : Disk} {list : List BackupInfo}

/-- Only backups of the backup directory count. -/
theorem Service.Listing.kept_perm (h : s.Listing disk list) :
    (list.filter isKept).Perm ((listDirectory disk s.backupDir false []).filter isKept) := by
  have hlegacy : ∀ dirs : List Bytes,
      (dirs.flatMap fun dir => listDirectory disk dir true legacyIdPrefix).filter isKept = [] := by
    intro dirs
    rw [filter_eq_nil_iff]
    intro b hb hkept
    obtain ⟨dir, -, hb⟩ := mem_flatMap.mp hb
    obtain ⟨e, he, rfl⟩ := mem_map.mp hb
    have hshown := (mem_filter.mp he).2
    have horphaned : isOrphanedArtifact e.name = true := by
      simp only [isShown, Bool.and_eq_true, Bool.not_true, Bool.false_or] at hshown
      exact hshown.2
    have hstatus := (of_decide_eq_true hkept).2
    rw [status_orphaned_iff.mpr horphaned] at hstatus
    cases hstatus
  have hperm := h.perm.filter isKept
  rw [found, filter_append, hlegacy, append_nil] at hperm
  exact hperm

/-- Different backups of a directory have different paths. -/
theorem eq_of_path_eq {dir mark : Bytes} {orphanedOnly : Bool} {b b' : BackupInfo}
    (hb : b ∈ listDirectory disk dir orphanedOnly mark)
    (hb' : b' ∈ listDirectory disk dir orphanedOnly mark)
    (hpath : b.path = b'.path) : b = b' := by
  obtain ⟨e, he, rfl⟩ := mem_map.mp hb
  obtain ⟨e', he', rfl⟩ := mem_map.mp hb'
  have hmem := (mem_filter.mp he).1
  have hmem' := (mem_filter.mp he').1
  have hname := (path_inj (a := ⟨dir, mark, e⟩) (b := ⟨dir, mark, e'⟩) hmem hmem' hpath).2
  rw [inj_on_of_nodup_map (disk.nodup dir) hmem hmem' hname]

/-- However the backups of one time are ordered, a completed full backup stays exactly if fewer
others than are kept are not older. -/
theorem retained_iff {b : BackupInfo} (hb : b ∈ listDirectory disk s.backupDir false [])
    (hkept : isKept b = true) (keep : Int) :
    (∀ list, s.Listing disk list → b.path ∉ Service.retentionPaths .full keep list) ↔
      (s.rivals disk b).length < keep.toNat := by
  have hmem : b ∈ (listDirectory disk s.backupDir false []).filter isKept :=
    mem_filter.mpr ⟨hb, hkept⟩
  have hlisted : (listDirectory disk s.backupDir false []).Nodup := by
    apply List.Nodup.of_map BackupInfo.name
    rw [listDirectory, map_map]
    exact (filter_sublist.map _).nodup (disk.nodup s.backupDir)
  have hnodup := hlisted.filter isKept
  have hrivals : (s.rivals disk b).length =
      (Ranking.rivals BackupInfo.createdAt b
        ((listDirectory disk s.backupDir false []).filter isKept)).length := by
    rw [rivals, Ranking.rivals, filter_filter]
    congr 1
    apply filter_congr
    intro x hx
    have hother : x.path ≠ b.path ↔ x ≠ b :=
      not_congr ⟨fun hpath => eq_of_path_eq hx hb hpath, fun h => congrArg BackupInfo.path h⟩
    rw [Bool.eq_iff_iff, Bool.and_eq_true, decide_eq_true_eq, decide_eq_true_eq, hother]
    tauto
  have hrivals' : ∀ list, s.Listing disk list →
      (Ranking.rivals BackupInfo.createdAt b (list.filter isKept)).length =
        (s.rivals disk b).length := by
    intro list hlist
    rw [hrivals]
    exact (hlist.kept_perm.filter _).length_eq
  have hpaths : ∀ list, s.Listing disk list → (b.path ∈ retentionPaths .full keep list ↔
      b ∈ (list.filter isKept).drop keep.toNat) := by
    intro list hlist
    constructor
    · intro hpath
      obtain ⟨x, hx, hsame⟩ := mem_map.mp hpath
      have hx' := hlist.kept_perm.mem_iff.mp (mem_of_mem_drop hx)
      rwa [eq_of_path_eq (mem_filter.mp hx').1 hb hsame] at hx
    · exact fun hdrop => mem_map_of_mem hdrop
  constructor
  · intro hall
    by_contra hmany
    obtain ⟨list, hperm, hsorted, hlast⟩ :=
      Ranking.exists_sorted_last BackupInfo.createdAt b (s.found disk)
    have hlist : s.Listing disk list := ⟨hperm, hsorted⟩
    apply hall list hlist
    rw [hpaths list hlist]
    apply Ranking.mem_drop_of_many (hlist.kept_perm.nodup_iff.mpr hnodup)
      (hlist.kept_perm.mem_iff.mpr hmem) (hlast.filter isKept)
    rw [hrivals' list hlist]
    exact Nat.le_of_not_lt hmany
  · intro hfew list hlist
    rw [hpaths list hlist]
    apply Ranking.not_mem_drop_of_few (hlist.kept_perm.nodup_iff.mpr hnodup)
      (hlist.newestFirst.filter isKept)
    rwa [hrivals' list hlist]

end Retention

/-! ## The result -/

/-- The kind of backup that was asked for. -/
def requestedKind (checks : Checks) (opts : CreateOptions) : BackupType :=
  if requestedType checks opts = ascii "database" then .database
  else if requestedType checks opts = ascii "files" then .files
  else .full

/-- What a restore reads off a dump is the engine that was asked for and what its tool was told to
dump. -/
def RestoresDump (gz : Gzip) (opts : CreateOptions) (files : Files) (name path : Bytes) : Prop :=
  ∃ engine f target, databaseEngineFromBackupName name = .ok engine ∧ engine.name = engineOf opts ∧
    files path = some f ∧ databaseTargetFromBackup gz path f.data engine.name = .ok target ∧
    restored target = (pgDumpCommand (databaseOf opts) (engineOf opts)).dumped

/-- The paths that are removed once the backup has been written. `list` is what `List` says then. -/
def Service.removedAfter (opts : CreateOptions) (ts : Bytes) (list : List BackupInfo) :
    List Bytes :=
  if opts.type = ascii "database" ∨ opts.type = ascii "files" then []
  else s.removedByFull opts (namePart opts ts) list

/-- The backup `info` that was created is of the kind that was asked for, and later it is listed as
such, whichever files can be removed and however equally old backups are listed. -/
structure FoundAgain (gz : Gzip) (s : Service) (checks : Checks) (opts : CreateOptions) (ts : Bytes)
    (disk : Disk) (files : Files) (info : BackupInfo) : Prop where
  kind : info.type = requestedKind checks opts
  listed : ∀ removes list, s.Listing disk list →
    ∀ list', s.Listing (disk.removing ((s.removedAfter opts ts list).filter removes)) list' →
      ∃ b ∈ list', b.path = info.path ∧ b.type = requestedKind checks opts ∧ b.status ≠ .orphaned ∧
        (requestedKind checks opts = .database → RestoresDump gz opts files b.name b.path)

/-- The name has no mark of a database backup, also together with the dash that follows it. -/
def NoDatabaseMark (name : Bytes) : Prop :=
  ¬ (ascii "-db-" <:+: name ++ ascii "-" ∨ ascii "_db_" <:+: name)

/-- The options name the backup such that it can be recognised. -/
def Recognisable (checks : Checks) (opts : CreateOptions) (ts : Bytes) (disk : Disk)
    (info : BackupInfo) : Prop :=
  match requestedKind checks opts with
  | .database =>
    opts.type = ascii "database" ∧ (∃ engine : Engine, engineOf opts = engine.name) ∧
      databaseOf opts ≠ [] ∧ ¬ ascii "-" <+: databaseOf opts ∧
      ¬ ascii "-partial-db-" <:+: namePart opts ts ++ ascii "-db-" ++ databaseOf opts ++ ascii "-"
  | .files =>
    opts.type = ascii "files" ∧ NoDatabaseMark (namePart opts ts) ∧
      ¬ ascii "-partial" <:+ namePart opts ts
  | .full =>
    NoDatabaseMark (namePart opts ts) ∧
      ¬ (ascii "-files" <:+: namePart opts ts ∨ ascii "_files" <:+: namePart opts ts) ∧
      (0 < opts.retentionCount → (s.rivals disk info).length < opts.retentionCount.toNat)

section

variable {gz : Gzip} {host : Host} {s : Service} {opts : CreateOptions} {checks : Checks}
  {ts : Bytes}
  {files files' : Files} {info : BackupInfo} {disk : Disk}

theorem requestedType_eq (hne : opts.type ≠ []) (htrim : trimSpace opts.type = opts.type)
    (hlower : toLower opts.type = opts.type)
    (hplain : opts.type.all (fun b => b.toNat < 0x80) = true) :
    requestedType checks opts = opts.type := by
  have hascii : ∀ b ∈ opts.type, b.toNat < 0x80 :=
    fun b hb => of_decide_eq_true (all_eq_true.mp hplain b hb)
  rw [requestedType, htrim, checks.lower_ascii _ hascii, hlower]
  exact if_neg hne

theorem requestedKind_database (h : opts.type = ascii "database") :
    requestedKind checks opts = .database := by
  rw [requestedKind, requestedType_eq, h]
  · decide
  all_goals rw [h]; decide

theorem requestedKind_files (h : opts.type = ascii "files") :
    requestedKind checks opts = .files := by
  rw [requestedKind, requestedType_eq, h]
  · decide
  all_goals rw [h]; decide

theorem isName_tar {ending : Bytes} (hid : ending.all isIdByte = true) (hlong : 2 < ending.length)
    (opts : CreateOptions) (ts : Bytes) : isName (namePart opts ts ++ ending) = true := by
  apply isName_of_idBytes
  · exact forall_mem_append.mpr ⟨fun _ => isIdByte_of_mem_sanitize, all_eq_true.mp hid⟩
  · rw [length_append]
    exact Nat.lt_of_lt_of_le hlong (Nat.le_add_left _ _)

/-- A backup of the right kind is found again if it is not removed and its name is read as this
kind. -/
theorem foundAgain_iff (hkind : info.type = requestedKind checks opts) (hdir : s.backupDir ≠ [])
    {name : Bytes}
    (hname : isName name = true) (hrecognized : isRecognizedBackupArtifact name = true)
    (hpath : info.path = filepathJoin s.backupDir name) (hdisk : disk.Has s info) :
    FoundAgain gz s checks opts ts disk files' info ↔
      (∀ list, s.Listing disk list → info.path ∉ s.removedAfter opts ts list) ∧
        parseType name = requestedKind checks opts ∧ isOrphanedArtifact name = false ∧
        (requestedKind checks opts = .database →
          RestoresDump gz opts files' name (filepathJoin s.backupDir name)) := by
  obtain ⟨e, he, hsame, hfile, -⟩ := hdisk name hname hpath.symm
  have hlisted := fun paths list' (hlist' : s.Listing (disk.removing paths) list') =>
    listed_iff hdir hname hrecognized ⟨e, he, hsame, hfile⟩ hlist' (requestedKind checks opts)
      fun name path => requestedKind checks opts = .database → RestoresDump gz opts files' name path
  rw [hpath]
  constructor
  · intro hfound
    have hread : ∀ list, s.Listing disk list → ∀ list', s.Listing
        (disk.removing ((s.removedAfter opts ts list).filter fun _ => true)) list' → _ :=
      fun list hlist list' hlist' => (hlisted _ list' hlist').mp
        (hpath ▸ hfound.listed (fun _ => true) list hlist list' hlist')
    obtain ⟨list, hlist⟩ := exists_listing s disk
    refine ⟨fun list hlist => ?_, ?_⟩
    · obtain ⟨list', hlist'⟩ := exists_listing s _
      rw [← filter_true (s.removedAfter opts ts list)]
      exact (hread list hlist list' hlist').1
    · obtain ⟨list', hlist'⟩ := exists_listing s _
      exact (hread list hlist list' hlist').2
  · rintro ⟨hkept, hread⟩
    refine ⟨hkind, ?_⟩
    intro removes list hlist list' hlist'
    rw [hpath]
    exact (hlisted _ list' hlist').mpr ⟨fun hmem => hkept list hlist (mem_filter.mp hmem).1, hread⟩

theorem not_mem_removedAfter (h : opts.type = ascii "database" ∨ opts.type = ascii "files")
    (path : Bytes) :
    ∀ list, s.Listing disk list → path ∉ s.removedAfter opts ts list := by
  intro list _
  rw [removedAfter, if_pos h]
  exact not_mem_nil

/-- Whatever precedes a long ending in a joined path, the path ends with it. -/
theorem long_ending_pathJoin {dir ending : Bytes} (hdir : dir ≠ [])
    (hslash : (0x2F : UInt8) ∉ ending)
    (hlong : 2 < ending.length) (x : Bytes) : ending <:+ pathJoin dir (x ++ ending) := by
  apply ending_pathJoin hdir
  intro l hl
  apply isName_of_long
  · rw [mem_append, not_or]
    exact ⟨hl, hslash⟩
  · rw [length_append]
    exact Nat.lt_of_lt_of_le hlong (Nat.le_add_left _ _)

/-- The archive is none of its parts, whatever the engine is called. -/
theorem full_not_part (hdir : s.backupDir ≠ []) (name part : Bytes) (opts : CreateOptions) :
    filepathJoin s.backupDir (fullFilename name) ∉ s.fullPartialPaths part opts := by
  have hjoin : ∀ filename, filepathJoin s.backupDir filename = pathJoin s.backupDir filename :=
    fun filename => if_neg hdir
  have hfull : ascii "-full.tar.gz" <:+ pathJoin s.backupDir (fullFilename name) :=
    long_ending_pathJoin hdir (by decide) (by decide) name
  intro hmem
  rw [fullPartialPaths, hjoin, hjoin, hjoin] at hmem
  rcases mem_cons.mp hmem with heq | hmem
  · have hsql : sqlGzEnding <:+ pathJoin s.backupDir (fullFilename name) := by
      rw [heq]
      exact long_ending_pathJoin hdir (by decide) (by decide) _
    exact not_both (by decide) hfull hsql
  · have hfiles : ascii "-files.tar.gz" <:+ pathJoin s.backupDir (fullFilename name) := by
      rw [mem_singleton.mp hmem]
      exact long_ending_pathJoin hdir (by decide) (by decide) _
    exact not_both (by decide) hfull hfiles

/-- The backup that has just been completed stays if few others are as new. -/
theorem full_retained_iff {name : Bytes}
    (hpath : info.path = filepathJoin s.backupDir (fullFilename name))
    (hvalid : backupValidity (fullFilename name) info.size = .completed)
    (htype : parseType (fullFilename name) = .full)
    (hentry : ∃ e ∈ disk.readDir s.backupDir, e.name = fullFilename name ∧ e.isDir = false ∧
      e.size = info.size ∧ e.modTime = info.createdAt) (keep : Int) :
    (∀ list, s.Listing disk list → info.path ∉ Service.retentionPaths .full keep list) ↔
      (s.rivals disk info).length < keep.toNat := by
  obtain ⟨e, he, hsame, hfile, hsize, htime⟩ := hentry
  have hshown : isShown false e = true := by
    rw [isShown, hfile, hsame, isRecognized_tar (suffix_fullFilename name)]
    rfl
  have hb : backupInfo s.backupDir [] e ∈ listDirectory disk s.backupDir false [] :=
    mem_map_of_mem (mem_filter.mpr ⟨he, hshown⟩)
  have hstatus : (backupInfo s.backupDir [] e).status = .completed := by
    calc (backupInfo s.backupDir [] e).status =
          backupValidity (trimSuffix e.name partEnding) e.size :=
        if_neg (by rw [hsame, isOrphaned_full]; decide)
      _ = backupValidity (fullFilename name) info.size := by
        rw [hsame, hsize, trimSuffix_part (suffix_fullFilename name) (by decide)]
      _ = .completed := hvalid
  have hkept : isKept (backupInfo s.backupDir [] e) = true :=
    decide_eq_true ⟨(congrArg parseType hsame).trans htype, hstatus⟩
  have hbpath : (backupInfo s.backupDir [] e).path = info.path := by
    rw [hpath, ← hsame]
    rfl
  have hretained := retained_iff hb hkept keep
  rw [rivals, hbpath, show (backupInfo s.backupDir [] e).createdAt = info.createdAt from htime]
    at hretained
  exact hretained

variable (h : s.create .sync gz host opts checks ts files = (files', .ok info))
  (hdisk : disk.Has s info)
include h hdisk

omit h hdisk in
theorem database_eq_named_iff (database : Bytes) :
    Dumped.database database = .named ([database].filter
      fun arg => !(ascii "-").isPrefixOf arg) ↔ ¬ ascii "-" <+: database := by
  cases hdash : (ascii "-").isPrefixOf database with
  | true =>
    refine iff_of_false ?_ (not_not.mpr ( isPrefixOf_iff_prefix.mp hdash))
    simp [hdash, Dumped.named]
  | false =>
    refine iff_of_true ?_ fun h => ?_
    · simp [hdash, Dumped.named]
    · rw [ isPrefixOf_iff_prefix.mpr h] at hdash
      cases hdash

omit h hdisk in
/-- A tool dumps the database it is given, unless the name looks like an option. -/
theorem restored_eq_dumped_iff (database engine : Bytes) :
    restored database = (pgDumpCommand database engine).dumped ↔ ¬ ascii "-" <+: database := by
  have hall : ¬ ascii "-" <+: ascii "all" := by decide
  rw [pgDumpCommand]
  split_ifs with hengine hdatabase
  · by_cases hdatabase : database = ascii "all"
    · rw [hdatabase]
      exact iff_of_true (by decide) hall
    by_cases hoption : database = ascii "--all-databases"
    · rw [hoption]
      exact iff_of_false (by decide) (by decide)
    have hone : ¬ (ascii "mysqldump" = ascii "pg_dumpall" ∨
        ascii "mysqldump" = ascii "mysqldump" ∧ ascii "--all-databases" ∈ [database]) := by
      rintro (h | ⟨-, h⟩)
      · exact absurd h (by decide)
      · exact hoption (mem_singleton.mp h).symm
    rw [restored, if_neg hdatabase, mysqlDumpCommand, if_neg hdatabase, Command.dumped, if_neg hone]
    exact database_eq_named_iff database
  · have hone : ¬ (ascii "pg_dump" = ascii "pg_dumpall" ∨ ascii "pg_dump" = ascii "mysqldump" ∧
        ascii "--all-databases" ∈ [ascii "--clean", ascii "--if-exists", ascii "-Fp",
          database]) := by
      rintro (h | ⟨h, -⟩) <;> exact absurd h (by decide)
    rw [restored, if_neg hdatabase, Command.dumped, if_neg hone]
    exact database_eq_named_iff database
  · rw [not_not.mp hdatabase]
    exact iff_of_true (by decide) hall

theorem database_found_iff (htype : opts.type = ascii "database") :
    FoundAgain gz s checks opts ts disk files' info ↔ Recognisable s checks opts ts disk info := by
  have hkind : requestedKind checks opts = .database := requestedKind_database htype
  obtain ⟨hdir, hcreate⟩ := create_ok h
  rw [if_pos htype] at hcreate
  obtain ⟨hinfo, hpath, hshort, dump, blocks, modTime, hfile⟩ := createDatabase_ok hcreate
  rw [Recognisable, hkind]
  by_cases hengine : ∃ engine : Engine, engineOf opts = engine.name
  · obtain ⟨engine, hengine⟩ := hengine
    have hname := isName_databaseFilename hengine ts
    have htarget := databaseTarget_eq hengine gz hdir hname (hpath ▸ hshort) (gzipLevel opts) dump
    rw [foundAgain_iff (hinfo.trans hkind.symm) hdir hname
      (isRecognized_database _ opts) hpath hdisk,
      and_iff_right (not_mem_removedAfter (.inl htype) _), hkind, parseType_database,
        ← Bool.not_eq_true,
      isOrphaned_database _ opts hengine]
    constructor
    · rintro ⟨-, horphaned, hrestores⟩
      obtain ⟨engine', f, target, -, hsame, hfile', hread, hdumped⟩ := hrestores rfl
      cases hfile.symm.trans (hpath ▸ hfile')
      rw [hsame, hengine, htarget] at hread
      split_ifs at hread with hnil
      cases hread
      exact ⟨htype, ⟨engine, hengine⟩, hnil, (restored_eq_dumped_iff _ _).mp hdumped, horphaned⟩
    · rintro ⟨-, -, hdatabase, hdash, horphaned⟩
      refine ⟨rfl, horphaned, fun _ => ⟨engine, _, databaseOf opts, databaseEngine_eq hengine hname,
        hengine.symm, hpath ▸ hfile, ?_, (restored_eq_dumped_iff _ _).mpr hdash⟩⟩
      rw [htarget, if_neg hdatabase]
  · constructor
    · -- The engine a restore recovers is one of the two.
      intro hfound
      obtain ⟨list, hlist⟩ := exists_listing s disk
      obtain ⟨list', hlist'⟩ := exists_listing s
        (disk.removing ((s.removedAfter opts ts list).filter fun _ => true))
      obtain ⟨b, -, -, -, -, hrestores⟩ := hfound.listed (fun _ => true) list hlist list' hlist'
      obtain ⟨engine, f, target, -, hsame, -⟩ := hrestores hkind
      exact absurd ⟨engine, hsame.symm⟩ hengine
    · rintro ⟨-, hsome, -⟩
      exact absurd hsome hengine

theorem files_found_iff (htype : opts.type = ascii "files") :
    FoundAgain gz s checks opts ts disk files' info ↔ Recognisable s checks opts ts disk info := by
  have hkind : requestedKind checks opts = .files := requestedKind_files htype
  obtain ⟨hdir, hcreate⟩ := create_ok h
  have hother : opts.type ≠ ascii "database" := by rw [htype]; decide
  rw [if_neg hother, if_pos htype] at hcreate
  obtain ⟨hinfo, hpath⟩ := createFiles_ok hcreate
  have hname : isName (filesFilename (namePart opts ts)) = true :=
    isName_tar (by decide) (by decide) opts ts
  rw [foundAgain_iff (hinfo.trans hkind.symm) hdir hname
    (isRecognized_tar (suffix_filesFilename _)) hpath
    hdisk, and_iff_right (not_mem_removedAfter (.inr htype) _), Recognisable, hkind,
      parseType_files,
    ← Bool.not_eq_true, isOrphaned_files]
  constructor
  · rintro ⟨hmark, horphaned, -⟩
    exact ⟨htype, hmark, horphaned⟩
  · rintro ⟨-, hmark, horphaned⟩
    exact ⟨hmark, horphaned, fun h => by cases h⟩

theorem full_found_iff (hdatabase : opts.type ≠ ascii "database")
    (hfiles : opts.type ≠ ascii "files") :
    FoundAgain gz s checks opts ts disk files' info ↔ Recognisable s checks opts ts disk info := by
  obtain ⟨hdir, hcreate⟩ := create_ok h
  rw [if_neg hdatabase, if_neg hfiles] at hcreate
  obtain ⟨hinfo, hpath, hvalid⟩ := createFull_ok hcreate
  have hother : ∀ kind, requestedKind checks opts = kind → .full ≠ kind →
      ¬ FoundAgain gz s checks opts ts disk files' info :=
    fun kind hkind hne hfound => hne (hinfo.symm.trans (hfound.kind.trans hkind))
  cases hkind : requestedKind checks opts with
  | database =>
    rw [Recognisable, hkind]
    exact iff_of_false (hother .database hkind (by decide)) fun hnamed => hdatabase hnamed.1
  | files =>
    rw [Recognisable, hkind]
    exact iff_of_false (hother .files hkind (by decide)) fun hnamed => hfiles hnamed.1
  | full =>
    have hname : isName (fullFilename (namePart opts ts)) = true :=
      isName_tar (by decide) (by decide) opts ts
    have hretained := fun htype : parseType (fullFilename (namePart opts ts)) = .full =>
      full_retained_iff hpath hvalid htype (hdisk _ hname hpath.symm) opts.retentionCount
    have hremoved : ∀ list, info.path ∈ s.removedAfter opts ts list ↔
        0 < opts.retentionCount ∧ info.path ∈ retentionPaths .full opts.retentionCount list := by
      intro list
      rw [removedAfter, if_neg (not_or.mpr ⟨hdatabase, hfiles⟩), removedByFull,
        mem_append, or_iff_left (hpath ▸ full_not_part hdir _ _ opts)]
      split_ifs with hcount
      · exact (and_iff_right hcount).symm
      · simp [hcount]
    rw [Recognisable, hkind]
    dsimp only
    rw [NoDatabaseMark, ← and_assoc, ← parseType_full,
      foundAgain_iff (hinfo.trans hkind.symm) hdir hname
      (isRecognized_tar (suffix_fullFilename _)) hpath hdisk, hkind]
    constructor
    · rintro ⟨hkept, htype, -⟩
      refine ⟨htype, fun hcount => (hretained htype).mp ?_⟩
      exact fun list hlist hold => hkept list hlist ((hremoved list).mpr ⟨hcount, hold⟩)
    · rintro ⟨htype, hfew⟩
      refine ⟨?_, htype, isOrphaned_full _, fun h => by cases h⟩
      intro list hlist hmem
      obtain ⟨hcount, hold⟩ := (hremoved list).mp hmem
      exact (hretained htype).mpr (hfew hcount) list hlist hold

end

theorem Disk.has_of_entry {disk : Disk} {s : Service} {info : BackupInfo} {e : DirEntry}
    (hdir : s.backupDir ≠ []) (he : e ∈ disk.readDir s.backupDir)
    (hpath : info.path = filepathJoin s.backupDir e.name) (hfile : e.isDir = false)
    (hsize : e.size = info.size) (htime : e.modTime = info.createdAt) : disk.Has s info := by
  intro name hname hjoin
  have hsame : pathJoin s.backupDir e.name = pathJoin s.backupDir name := by
    calc pathJoin s.backupDir e.name = filepathJoin s.backupDir e.name := (if_neg hdir).symm
      _ = filepathJoin s.backupDir name := hpath.symm.trans hjoin.symm
      _ = pathJoin s.backupDir name := if_neg hdir
  exact ⟨e, he, (pathJoin_inj hdir hdir (disk.isName_of_mem _ _ he) hname hsame).2, hfile, hsize,
    htime⟩

/-- A server with sites. -/
def siteService : Service := .newService (ascii "/srv/backups") (ascii "/var/www") []

/-- Checks on a server where every path is a directory. -/
def Checks.sites : Checks := { Checks.bare with pathKind := fun _ => .directory }

/-- A host on which all tools write something. -/
def Host.working : Host :=
  { Host.barren with
    dump := .finished (List.replicate 200 0x2D) 8 60
    tar := .finished (List.replicate 2000 0) 8 60
    bundle := .finished (List.replicate 2000 0) 8 60 }

variable (hname : isName info.name = true)

/-- The directory with the file that was written under this name. -/
def written : Disk :=
  .single (ascii "/srv/backups") [⟨info.name, false, info.size, 8, info.createdAt⟩] backups_ne_nil
    (fun _ he => List.mem_singleton.mp he ▸ hname) (List.nodup_singleton _)

theorem written_has
    (hpath : info.path = filepathJoin (ascii "/srv/backups") info.name) :
    (written info hname).Has siteService info := by
  apply Disk.has_of_entry (e := ⟨info.name, false, info.size, 8, info.createdAt⟩) (by decide)
  · exact mem_singleton_self _
  · exact hpath
  · rfl
  · rfl
  · rfl

theorem exists_fst {α β : Type} {p : α × β} {b : β} (h : p.2 = b) : ∃ a, p = (a, b) :=
  ⟨p.1, by rw [← h]⟩

def nightlyInfo : BackupInfo :=
  ⟨ascii "nightly-db-all-postgresql", ascii "nightly-db-all-postgresql.sql.gz", .database,
    ascii "/srv/backups/nightly-db-all-postgresql.sql.gz", 232, 4096, .completed, 60⟩

/-- The sites before a database upgrade. -/
def beforeUpgrade : CreateOptions := ⟨ascii "files", ascii "pre-db-upgrade", [], [], 6, 0, []⟩

def beforeUpgradeInfo : BackupInfo :=
  ⟨ascii "pre-db-upgrade-files", ascii "pre-db-upgrade-files.tar.gz", .files,
    ascii "/srv/backups/pre-db-upgrade-files.tar.gz", 2000, 4096, .completed, 60⟩

end HeyServer.Backup
