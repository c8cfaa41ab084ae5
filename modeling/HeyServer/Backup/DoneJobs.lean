import HeyServer.Backup.CreatedBackups

/-!
# Jobs that are done

A job writes its backup with copies of the steps of `Create`. Its copy for files takes the archive
as `tar` left it, and a full backup may itself be among the old ones that are removed at the end.
-/

namespace HeyServer.Backup
open Lib Utf8 Lib.Text Lib.Affixes Service

/-- The file of the backup is there, and of a size at which `BackupValidity` accepts it. -/
def ValidArtifact (files : Files) (info : BackupInfo) : Prop :=
  ∃ f, files info.path = some f ∧ backupValidity info.name f.data.length = .completed

/-- It wrote as much as an archive of files needs. -/
def ToolRun.isAmple : ToolRun → Bool
  | .finished output _ _ => minFilesBackupBytes ≤ output.length
  | .notOpened | .broken _ => false

theorem suffix_toLower {ending filename : Bytes} (hlower : toLower ending = ending)
    (h : ending <:+ filename) : ending <:+ toLower filename := by
  rw [← hlower]
  exact h.map _

theorem backupValidity_files {name : Bytes} {size : Int} :
    backupValidity (filesFilename name) size = .completed ↔ minFilesBackupBytes ≤ size := by
  have htar := suffix_toLower (by decide) (suffix_filesFilename name)
  have hsql : ¬ (sqlGzEnding <:+ toLower (filesFilename name) ∨
      sqlEnding <:+ toLower (filesFilename name)) := by
    rintro (h | h)
    · exact Unrelated.not_both (by decide) htar h
    · exact Unrelated.not_both (by decide) htar h
  rw [backupValidity, if_neg hsql, if_pos htar, minFilesBackupBytes]
  split_ifs <;> simp <;> omega

theorem validArtifact_stat {s : Service} {files : Files} {now : Int} {filename : Bytes}
    {type : BackupType} : ValidArtifact files (s.statBackup files now filename type) ↔
      (s.statBackup files now filename type).status = .completed := by
  rw [ValidArtifact, s.statBackup_path, statBackup]
  cases files (filepathJoin s.backupDir filename) <;> simp

theorem validArtifact_removeAll {files : Files} {info : BackupInfo} (h : ValidArtifact files info)
    (removes : Bytes → Bool) (paths : List Bytes) :
    ValidArtifact (files.removeAll removes paths) info ↔
      ¬ (info.path ∈ paths ∧ removes info.path = true) := by
  rw [ValidArtifact, Files.removeAll]
  split_ifs with hgone
  · simp [hgone]
  · exact iff_of_true h hgone

section Done

variable {mode : Mode} {gz : Gzip} {host : Host} {s : Service} {opts : CreateOptions}
  {checks : Checks}
  {ts name : Bytes} {level : Int} {files files' : Files} {info : BackupInfo}

theorem createDatabase_valid (h : s.createDatabase gz host opts name level files =
    (files', .ok info)) :
    ValidArtifact files' info := by
  rw [createDatabase] at h
  split_ifs at h with hfailed hsmall
  · cases h
  · cases h
  · cases h
    rw [validArtifact_stat]
    rw [statBackup] at hsmall ⊢
    split at hsmall
    · exact absurd (show (0 : Int) < 128 by decide) hsmall
    · dsimp only [minDatabaseBackupBytes] at hsmall ⊢
      have hsql := suffix_toLower (by decide) (suffix_databaseFilename name opts)
      rw [backupValidity, if_neg (by omega), if_pos (.inl hsql), minDatabaseBackupBytes,
        if_neg hsmall]

theorem createFiles_valid_iff (h : s.createFiles .tracked host name files = (files', .ok info)) :
    ValidArtifact files' info ↔ host.tar.isAmple = true := by
  rw [createFiles] at h
  split_ifs at h with hfailed hsync
  · cases h
  · cases hsync.1
  · cases h
    obtain ⟨-, output, blocks, modTime, hrun, hput⟩ :=
      ToolRun.exec_ok (Bool.eq_true_of_not_eq_false hfailed)
    rw [validArtifact_stat, hput, statBackup, Files.put, if_pos rfl]
    rw [backupValidity_files, hrun]
    exact decide_eq_true_iff.symm

theorem createFull_valid_iff (h : s.createFull mode gz host opts name level files =
    (files', .ok info)) :
    ValidArtifact files' info ↔
      ¬ (filepathJoin s.backupDir (fullFilename name) ∈ s.removedByFull opts name host.list ∧
        host.removes (filepathJoin s.backupDir (fullFilename name)) = true) := by
  obtain ⟨assembled, rfl, hstatus, rfl⟩ := createFull_stat h
  rw [validArtifact_removeAll (validArtifact_stat.mpr hstatus), s.statBackup_path]

/-- A job that is done has left a valid backup, unless `tar` wrote a short archive for a files
backup or the full backup was removed with the old ones. -/
theorem done_valid_iff (h : s.create .tracked gz host opts checks ts files = (files', .ok info)) :
    ValidArtifact files' info ↔
      (opts.type = ascii "files" → host.tar.isAmple = true) ∧
      ¬ (filepathJoin s.backupDir (fullFilename (namePart opts ts)) ∈
          s.removedAfter opts ts host.list ∧
        host.removes (filepathJoin s.backupDir (fullFilename (namePart opts ts))) = true) := by
  obtain ⟨-, hcreated⟩ := create_ok h
  rw [removedAfter]
  split_ifs at hcreated with hdatabase hfiles
  · rw [hdatabase, if_pos (.inl rfl)]
    exact iff_of_true (createDatabase_valid hcreated) ⟨fun h => absurd h (by decide), by simp⟩
  · rw [hfiles, if_pos (.inr rfl), createFiles_valid_iff hcreated]
    simp
  · rw [if_neg (not_or.mpr ⟨hdatabase, hfiles⟩), createFull_valid_iff hcreated]
    simp [hfiles]

end Done

/-- The nightly dump as a job. -/
theorem nightly_job_valid : ∃ files info,
    siteService.create .tracked .stored .working nightlyDump .sites (ascii "20260101030000")
        (fun _ => none) = (files, .ok info) ∧ ValidArtifact files info := by
  have hinfo : (siteService.create .tracked .stored .working nightlyDump .sites
      (ascii "20260101030000") (fun _ => none)).2 = .ok nightlyInfo := by
    decide +kernel
  obtain ⟨files, hfiles⟩ := exists_fst hinfo
  refine ⟨files, _, hfiles, (done_valid_iff hfiles).mpr ⟨by decide, ?_⟩⟩
  decide +kernel

/-- An archive without a byte in it is a backup that is done. -/
theorem empty_archive_done : ∃ files info,
    siteService.create .tracked .stored { Host.working with tar := .finished [] 0 60 } beforeUpgrade
        .sites (ascii "20260101030000") (fun _ => none) = (files, .ok info) ∧
      ¬ ValidArtifact files info := by
  have hinfo : (siteService.create .tracked .stored { Host.working with tar := .finished [] 0 60 }
      beforeUpgrade .sites (ascii "20260101030000") (fun _ => none)).2 =
        .ok { beforeUpgradeInfo with size := 0, diskSize := 0, status := .invalid } := by
    decide +kernel
  obtain ⟨files, hfiles⟩ := exists_fst hinfo
  refine ⟨files, _, hfiles, fun hvalid => ?_⟩
  exact absurd (((done_valid_iff hfiles).mp hvalid).1 rfl) (by decide)

end HeyServer.Backup
