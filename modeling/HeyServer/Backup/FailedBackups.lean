import HeyServer.Backup.Creation

/-!
# Backups that fail

A backup is written to its final place, and a failed one is removed from there. Both are done
without looking at what is there already. Hence a backup that fails takes an older backup of the
same name with it, even if nothing was written yet. All other files stay as they are.
-/

namespace HeyServer.Backup
open Lib Utf8 Lib.Text Lib.Affixes List Service

/-! ## What a call writes and removes -/

/-- The files outside of `paths` are the same. -/
def Files.SameOutside (paths : List Bytes) (files files' : Files) : Prop :=
  ∀ p, p ∉ paths → files' p = files p

namespace Files.SameOutside

variable {paths more : List Bytes} {files files' files'' : Files}

theorem refl (paths : List Bytes) (files : Files) : SameOutside paths files files := fun _ _ => rfl

theorem trans (h : SameOutside paths files files') (h' : SameOutside paths files' files'') :
    SameOutside paths files files'' := by
  intro p hp
  rw [h' p hp, h p hp]

theorem mono (h : SameOutside paths files files') (hsubset : paths ⊆ more) :
    SameOutside more files files' :=
  fun p hp => h p fun hmem => hp (hsubset hmem)

theorem put {path : Bytes} (f : File) (h : SameOutside paths files files') (hpath : path ∈ paths) :
    SameOutside paths files (files'.put path f) := by
  intro p hp
  have hne : p ≠ path := by
    rintro rfl
    exact hp hpath
  rw [Files.put, if_neg hne, h p hp]

theorem removeAll (removes : Bytes → Bool) (h : SameOutside paths files files')
    (hsubset : more ⊆ paths) : SameOutside paths files (files'.removeAll removes more) := by
  intro p hp
  have hnot : ¬ (p ∈ more ∧ removes p = true) := fun hmem => hp (hsubset hmem.1)
  rw [Files.removeAll, if_neg hnot, h p hp]

end Files.SameOutside

theorem ToolRun.exec_same (run : ToolRun) (path : Bytes) (content : Bytes → Bytes) (files : Files) :
    Files.SameOutside [path] files (run.exec path content files).1 := by
  have hrefl := Files.SameOutside.refl [path] files
  unfold ToolRun.exec
  split_ifs
  · exact hrefl
  · cases run with
    | notOpened => exact hrefl
    | broken left => exact hrefl.put left (mem_singleton_self path)
    | finished output blocks modTime => exact hrefl.put _ (mem_singleton_self path)

namespace Service

variable (mode : Mode) (gz : Gzip) (host : Host) (s : Service) (opts : CreateOptions)

theorem statBackup_path (files : Files) (now : Int) (filename : Bytes) (type : BackupType) :
    (s.statBackup files now filename type).path = filepathJoin s.backupDir filename := by
  rw [statBackup]
  cases files (filepathJoin s.backupDir filename) with
  | none | some => rfl

variable (name : Bytes)

theorem createDatabase_same (level : Int) (files : Files) :
    Files.SameOutside [filepathJoin s.backupDir (databaseFilename name opts)] files
      (s.createDatabase gz host opts name level files).1 := by
  have hdump := host.dump.exec_same (filepathJoin s.backupDir (databaseFilename name opts))
    (fun dump => gz.gzip level (databaseBackupHeader (databaseOf opts) ++ dump)) files
  rw [createDatabase]
  split_ifs
  · exact hdump.removeAll _ (List.Subset.refl _)
  · exact hdump.removeAll _ (List.Subset.refl _)
  · exact hdump

theorem createDatabase_path {name : Bytes} {level : Int} {files : Files} {info : BackupInfo}
    (h : (s.createDatabase gz host opts name level files).2 = .ok info) :
    info.path = filepathJoin s.backupDir (databaseFilename name opts) := by
  rw [createDatabase] at h
  split_ifs at h
  · cases h
    exact s.statBackup_path _ _ _ _

theorem createFiles_same (files : Files) :
    Files.SameOutside [filepathJoin s.backupDir (filesFilename name)] files
      (s.createFiles mode host name files).1 := by
  have htar := host.tar.exec_same (filepathJoin s.backupDir (filesFilename name)) id files
  rw [createFiles]
  split_ifs
  · exact htar.removeAll _ (List.Subset.refl _)
  · exact htar.removeAll _ (List.Subset.refl _)
  · exact htar

theorem createFiles_path {name : Bytes} {files : Files} {info : BackupInfo}
    (h : (s.createFiles mode host name files).2 = .ok info) :
    info.path = filepathJoin s.backupDir (filesFilename name) := by
  rw [createFiles] at h
  split_ifs at h
  · cases h
    exact s.statBackup_path _ _ _ _

/-- The two parts of a full backup and its archive. -/
def fullOutputs (name : Bytes) : List Bytes :=
  [filepathJoin s.backupDir (databaseFilename (partialName name) opts),
    filepathJoin s.backupDir (filesFilename (partialName name)),
    filepathJoin s.backupDir (fullFilename name)]

theorem assembleFull_same (level : Int) (files : Files) :
    Files.SameOutside (s.fullOutputs opts name) files
      (s.assembleFull mode gz host opts name level files).1 := by
  have hdatabase : Files.SameOutside (s.fullOutputs opts name) files _ :=
    (s.createDatabase_same gz host opts (partialName name) level files).mono (by simp [fullOutputs])
  have hsite := hdatabase.trans ((s.createFiles_same mode host (partialName name)
    (s.createDatabase gz host opts (partialName name) level files).1).mono (by simp [fullOutputs]))
  have hbundle := hsite.trans ((host.bundle.exec_same
    (filepathJoin s.backupDir (fullFilename name)) id
    (s.createFiles mode host (partialName name)
      (s.createDatabase gz host opts (partialName name) level files).1).1).mono
        (by simp [fullOutputs]))
  rw [assembleFull]
  dsimp only
  split
  · next dbInfo filesInfo hdb hfiles =>
    have hparts : [dbInfo.path, filesInfo.path] ⊆ s.fullOutputs opts name := by
      rw [s.createDatabase_path gz host opts hdb, s.createFiles_path mode host hfiles]
      simp [fullOutputs]
    split_ifs
    · exact hbundle
    · exact hbundle.removeAll _ hparts
    · exact hbundle.removeAll _ hparts
    · exact hbundle
    · exact hbundle
  all_goals exact hsite

theorem sanitize_sanitize (text : Bytes) : sanitize (sanitize text) = sanitize text := by
  rw [sanitize, sanitize, filter_filter]
  simp only [Bool.and_self]

theorem fullPartialPaths_eq (ts : Bytes) : s.fullPartialPaths (namePart opts ts) opts ++
        [filepathJoin s.backupDir (fullFilename (namePart opts ts))] =
      s.fullOutputs opts (namePart opts ts) := by
  have hname : sanitize (namePart opts ts) = namePart opts ts := sanitize_sanitize _
  rw [fullPartialPaths, hname]
  rfl

/-- The paths a call writes to. -/
def outputs (ts : Bytes) : List Bytes :=
  if opts.type = ascii "database" then
    [filepathJoin s.backupDir (databaseFilename (namePart opts ts) opts)]
  else if opts.type = ascii "files" then [filepathJoin s.backupDir
    (filesFilename (namePart opts ts))]
  else s.fullOutputs opts (namePart opts ts)

/-- A call that fails leaves all files alone that are not at its output paths. -/
theorem create_same {checks : Checks} {ts : Bytes} {files : Files} {e : CreateError}
    (h : (s.create mode gz host opts checks ts files).2 = .error e) :
    Files.SameOutside (s.outputs opts ts) files (s.create mode gz host opts checks ts files).1 := by
  rw [create] at h ⊢
  rw [outputs]
  cases hprepare : s.prepare host opts checks with
  | error e' => exact Files.SameOutside.refl _ files
  | ok u =>
    rw [hprepare] at h
    split_ifs at h ⊢
    · exact s.createDatabase_same gz host opts _ _ files
    · exact s.createFiles_same mode host _ files
    · rw [createFull] at h ⊢
      have hassembled := s.assembleFull_same mode gz host opts (namePart opts ts)
        (gzipLevel opts) files
      cases hresult : (s.assembleFull mode gz host opts (namePart opts ts)
        (gzipLevel opts) files).2 with
      | error e' =>
        rw [fullPartialPaths_eq]
        exact hassembled.removeAll _ (List.Subset.refl _)
      | ok info =>
        rw [hresult] at h
        cases h

end Service

/-! ## A failure that removes -/

/-- A host on which no tool opens its output and every file can be removed. -/
def Host.barren : Host where
  directory := true
  capacity := true
  dump := .notOpened
  tar := .notOpened
  bundle := .notOpened
  removes _ := true
  list := []
  now := 0

/-- `gzip` without compression. -/
def Gzip.stored : Gzip := ⟨fun _ text => text, some, fun _ _ => rfl⟩

theorem ToolRun.notOpened_exec (path : Bytes) (content : Bytes → Bytes) (files : Files) :
    ToolRun.notOpened.exec path content files = (files, false) := ite_self _

namespace Service

variable (mode : Mode) (gz : Gzip) (s : Service) (opts : CreateOptions)

theorem createDatabase_barren (name : Bytes) (level : Int) (files : Files) :
    s.createDatabase gz .barren opts name level files =
      (files.removeAll (fun _ => true) [filepathJoin s.backupDir (databaseFilename name opts)],
        .error .dumpFailed) := by
  simp only [createDatabase, Host.barren, ToolRun.notOpened_exec, if_true]

theorem createFiles_barren (name : Bytes) (files : Files) : s.createFiles mode .barren name files =
      (files.removeAll (fun _ => true) [filepathJoin s.backupDir (filesFilename name)],
        .error .filesFailed) := by
  simp only [createFiles, Host.barren, ToolRun.notOpened_exec, if_true]

/-- Where the tools do not work, a call fails and removes all that is at its output paths. -/
theorem create_barren {checks : Checks} (haccepted : s.validateCreateOptions checks opts = .ok ())
    (hdir : s.backupDir ≠ []) (ts : Bytes) (files : Files) :
    (∃ e, (s.create mode gz .barren opts checks ts files).2 = .error e) ∧
      ∀ path ∈ s.outputs opts ts, (s.create mode gz .barren opts checks ts files).1 path =
        none := by
  have hprepare : s.prepare .barren opts checks = .ok () := by
    rw [prepare, haccepted]
    show (if s.backupDir = [] ∨ true = false then _ else _) = _
    rw [if_neg (by simp [hdir])]
    rfl
  rw [create, hprepare, outputs]
  split_ifs
  · rw [createDatabase_barren]
    refine ⟨⟨_, rfl⟩, ?_⟩
    intro path hpath
    exact if_pos ⟨hpath, rfl⟩
  · rw [createFiles_barren]
    refine ⟨⟨_, rfl⟩, ?_⟩
    intro path hpath
    exact if_pos ⟨hpath, rfl⟩
  · rw [createFull]
    simp only [assembleFull, createDatabase_barren, createFiles_barren, fullPartialPaths_eq]
    refine ⟨⟨_, rfl⟩, ?_⟩
    intro path hpath
    exact if_pos ⟨hpath, rfl⟩

end Service

/-! ## The result -/

/-- However a call fails, the files that counted as complete before are there with their content.
The call is made with options the service accepts. -/
def FailureKeeps (mode : Mode) (s : Service) (checks : Checks) (opts : CreateOptions) (ts : Bytes)
    (files : Files) (complete : Bytes → File → Prop) : Prop :=
  ∀ gz host e, (s.create mode gz host opts checks ts files).2 = .error e →
    ∀ path f, complete path f → files path = some f →
      (s.create mode gz host opts checks ts files).1 path = some f

/-- Complete backups survive the failure of a call exactly if none of them is at a path the call
writes to, whichever backups count as complete. -/
theorem failure_keeps_iff (mode : Mode) (s : Service) (checks : Checks) (opts : CreateOptions)
    (ts : Bytes)
    (files : Files) (complete : Bytes → File → Prop)
    (haccepted : s.validateCreateOptions checks opts = .ok ()) :
    FailureKeeps mode s checks opts ts files complete ↔
      (s.backupDir ≠ [] → ∀ path f, complete path f → files path = some f →
        path ∉ s.outputs opts ts) := by
  constructor
  · intro hkeeps hdir path f hcomplete hfile hmem
    obtain ⟨⟨e, herror⟩, hgone⟩ := s.create_barren mode .stored opts haccepted hdir ts files
    have hkept := hkeeps .stored .barren e herror path f hcomplete hfile
    rw [hgone path hmem] at hkept
    cases hkept
  · intro hapart gz host e herror path f hcomplete hfile
    by_cases hdir : s.backupDir = []
    · -- Without a directory nothing is written.
      have hsame : (s.create mode gz host opts checks ts files).1 = files := by
        rw [create, prepare, haccepted]
        simp only [hdir, true_or, if_true]
        rfl
      rw [hsame, hfile]
    · rw [s.create_same mode gz host opts herror path (hapart hdir path f hcomplete hfile), hfile]

/-! ## Two nights -/

/-- The service shows the file as a completed backup. -/
def ShownCompleted (s : Service) (path : Bytes) (f : File) : Prop :=
  ∃ name, isName name = true ∧ path = filepathJoin s.backupDir name ∧
    isRecognizedBackupArtifact name = true ∧
    (backupInfo s.backupDir [] ⟨name, false, f.data.length, f.blocks, f.modTime⟩).status =
      .completed

/-- Checks on a server without sites. -/
def Checks.bare : Checks := ⟨toLower, fun _ _ => rfl, fun _ => .missing⟩

/-- A nightly dump of all databases, always under the same name. -/
def nightlyDump : CreateOptions := ⟨ascii "database", ascii "nightly", [], [], 6, 0, []⟩

def lastNight : File := ⟨List.replicate 200 0, 8, 0⟩

/-- The backup directory with one file. -/
def onlyFile (name : Bytes) : Files := fun path =>
  if path = filepathJoin (ascii "/srv/backups") name then some lastNight else none

/-- A dump of the night before last night under another name survives. -/
theorem failure_keeps_other_name :
    FailureKeeps .tracked (.newAt (ascii "/srv/backups")) .bare nightlyDump (ascii "20260101030000")
      (onlyFile (ascii "weekly-db-all-postgresql.sql.gz")) fun _ _ => True := by
  rw [failure_keeps_iff _ _ _ _ _ _ _ (by decide)]
  intro _ path f _ hfile
  have hpath : path = filepathJoin (ascii "/srv/backups")
      (ascii "weekly-db-all-postgresql.sql.gz") := by
    by_contra hne
    rw [onlyFile, if_neg hne] at hfile
    cases hfile
  rw [hpath]
  decide +kernel

/-- If the dump fails tonight, last night's completed backup is gone, in the call and in the job. -/
theorem failed_dump_removes_last :
    (¬ FailureKeeps .sync (.newAt (ascii "/srv/backups")) .bare nightlyDump (ascii "20260101030000")
        (onlyFile (ascii "nightly-db-all-postgresql.sql.gz"))
          (ShownCompleted (.newAt (ascii "/srv/backups")))) ∧
      ¬ FailureKeeps .tracked (.newAt (ascii "/srv/backups")) .bare nightlyDump
        (ascii "20260101030000")
        (onlyFile (ascii "nightly-db-all-postgresql.sql.gz"))
        (ShownCompleted (.newAt (ascii "/srv/backups"))) := by
  have hcompleted : ShownCompleted (.newAt (ascii "/srv/backups"))
      (filepathJoin (ascii "/srv/backups") (ascii "nightly-db-all-postgresql.sql.gz")) lastNight :=
    ⟨ascii "nightly-db-all-postgresql.sql.gz", by decide +kernel⟩
  have hlost : ∀ mode, ¬ FailureKeeps mode (.newAt (ascii "/srv/backups")) .bare nightlyDump
      (ascii "20260101030000") (onlyFile (ascii "nightly-db-all-postgresql.sql.gz"))
      (ShownCompleted (.newAt (ascii "/srv/backups"))) := by
    intro mode hkeeps
    have haccepted : (newAt (ascii "/srv/backups")).validateCreateOptions .bare nightlyDump =
        .ok () := by decide
    obtain ⟨⟨e, herror⟩, hgone⟩ := create_barren mode .stored (.newAt (ascii "/srv/backups"))
      nightlyDump haccepted (by decide) (ascii "20260101030000")
      (onlyFile (ascii "nightly-db-all-postgresql.sql.gz"))
    have hkept := hkeeps _ _ e herror _ _ hcompleted (if_pos rfl)
    cases hkept
  exact ⟨hlost .sync, hlost .tracked⟩

end HeyServer.Backup
