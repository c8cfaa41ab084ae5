import HeyServer.Snapshot.Manifest

/-!
# Selected and excluded

restic applies the patterns to the absolute paths of the targets as well. Only the data directory
brings patterns: its backups and a staging directory of its own. The default place of the local
backups is below the first of them, and the staging directory of the dumps is below the local
backups.
-/

namespace HeyServer.Snapshot
open Lib Text PathPattern List Service

variable (g : Glob) (cwd : List Bytes)

/-- A target is excluded by one of the patterns. -/
def excludedBy (patterns : List Bytes) (path : Bytes) : Bool :=
  patterns.any fun p => (Pattern.parse p).excludes g (absComponents cwd path)

/-- Nothing that is handed to restic is excluded by the patterns handed to it. -/
def Complete (s : Service) (exist : Bytes → Bool) (settings : Settings) : Prop :=
  ∀ path ∈ manifestBackupPaths (s.resolvedManifest exist settings) s.stagingDir,
    excludedBy g cwd (collectExcludes (s.resolvedManifest exist settings)) path = false

/-! ## What is selected -/

variable (s : Service)

/-- The data directory is part of the snapshot. -/
def DataSelected (exist : Bytes → Bool) (settings : Settings) : Prop :=
  s.dataDir ≠ [] ∧ exist s.dataDir = true ∧
    ∀ ids ∈ settings.enabledPaths, ascii "hserver-data" ∈ ids

/-- The virtual hosts are part of the snapshot; they cannot be switched off. -/
def VhostsSelected (exist : Bytes → Bool) : Prop :=
  s.vhostsRoot ≠ [] ∧ exist s.vhostsRoot = true

/-- The subdirectories that are not part of the data. -/
def dataExcludes : List Bytes := [ascii "backups", ascii "snapshot-staging"]

/-- The data directory as a pattern. -/
def dataPattern : Pattern :=
  ⟨isAbs s.dataDir && decide (trimRight 0x2F s.dataDir ≠ []), components s.dataDir⟩

/-- The path is in one of the excluded subdirectories. -/
def InExcluded (path : List Bytes) : Prop :=
  ∃ sub ∈ dataExcludes,
    (⟨(dataPattern s).rooted, (dataPattern s).parts ++ [sub]⟩ : Pattern).Covers g path

/-- The data directory is not part of the snapshot, or nothing else that is selected is in its
excluded subdirectories. -/
def Separate (s : Service) (exist : Bytes → Bool) (settings : Settings) : Prop :=
  DataSelected s exist settings →
    -- the local backups: not in an excluded subdirectory, and not the data directory itself
    (¬ InExcluded g s (absComponents cwd s.localDir) ∧
      ¬ (dataPattern s).Names g (absComponents cwd s.localDir)) ∧
    (VhostsSelected s exist → ¬ InExcluded g s (absComponents cwd s.vhostsRoot)) ∧
    -- a relative pattern is compared from any component on
    (isAbs s.dataDir = false → ¬ InExcluded g s (absComponents cwd s.dataDir))

section Selection
variable {s : Service} {exist : Bytes → Bool} {settings : Settings}

/-- An entry of the default manifest that goes into the snapshot. -/
def Selected (s : Service) (exist : Bytes → Bool) (settings : Settings) (b : ManifestEntry) :
    Prop :=
  (b.id ∈ allowed settings (defaultManifest s.dataDir s.vhostsRoot) ∨ b.required = true) ∧
    pathAvailable exist b = true

theorem mem_resolvedManifest {e : ManifestEntry} :
    e ∈ s.resolvedManifest exist settings ↔ ∃ b ∈ defaultManifest s.dataDir s.vhostsRoot,
      Selected s exist settings b ∧ e = { b with enabled := true, available := true } := by
  rw [resolvedManifest, mem_filter, manifestForUI, mem_map]
  constructor
  · rintro ⟨⟨b, hb, rfl⟩, hselected⟩
    obtain ⟨henabled, havailable⟩ := Bool.and_eq_true_iff.mp hselected
    refine ⟨b, hb, ⟨?_, havailable⟩, ?_⟩
    · simpa using henabled
    · exact congrArg₂ (fun x y => { b with enabled := x, available := y }) henabled havailable
  · rintro ⟨b, hb, ⟨henabled, havailable⟩, rfl⟩
    have henabled : (decide (b.id ∈ allowed settings (defaultManifest s.dataDir s.vhostsRoot)) ||
        b.required) = true := by simpa using henabled
    refine ⟨⟨b, hb, ?_⟩, rfl⟩
    rw [henabled, havailable]

def dataEntry (s : Service) : ManifestEntry :=
  { id := ascii "hserver-data", path := s.dataDir, exclude := dataExcludes }

/-- The paths of the manifest that are the same everywhere. -/
def fixedPaths : List Bytes :=
  [ascii "/etc/nginx", ascii "/etc/letsencrypt", ascii "/etc/postgresql", ascii "/etc/mysql",
    ascii "/etc/php", ascii "/etc/cron.d", ascii "/etc/systemd/system"]

/-- The only entry that brings patterns is the data directory, and the crontab has no path. -/
theorem entry_cases {b : ManifestEntry} (hb : b ∈ defaultManifest s.dataDir s.vhostsRoot) :
    (b.exclude ≠ [] → b = dataEntry s) ∧ (b.path ≠ [] → b.id ≠ ascii "root-crontab" ∧
        (b.path = s.vhostsRoot ∨ b.path = s.dataDir ∨ b.path ∈ fixedPaths)) := by
  simp only [defaultManifest, mem_cons, not_mem_nil, or_false] at hb
  rcases hb with rfl | rfl | rfl | rfl | rfl | rfl | rfl | rfl | rfl | rfl
  all_goals
    refine ⟨fun hexclude => ?_, fun hpath => ?_⟩
    · first | exact absurd rfl hexclude | rfl
    · first | exact absurd rfl hpath | exact ⟨by dsimp only; decide, by simp [fixedPaths]⟩

theorem dataEntry_mem : dataEntry s ∈ defaultManifest s.dataDir s.vhostsRoot := by
  simp [defaultManifest, dataEntry, dataExcludes]

theorem selected_dataEntry (hpath : s.dataDir ≠ []) :
    Selected s exist settings (dataEntry s) ↔ DataSelected s exist settings := by
  have hid : ascii "hserver-data" ≠ ascii "root-crontab" := by decide
  have havailable : pathAvailable exist (dataEntry s) = exist s.dataDir :=
    if_neg (not_or.mpr ⟨hpath, hid⟩)
  have hall : ascii "hserver-data" ∈ (defaultManifest s.dataDir s.vhostsRoot).map (·.id) :=
    mem_map_of_mem dataEntry_mem
  have hrequired : (dataEntry s).required = false := rfl
  have hid' : (dataEntry s).id = ascii "hserver-data" := rfl
  rw [Selected, DataSelected, havailable, allowed, hrequired, hid']
  cases settings.enabledPaths with
  | none =>
    rw [Option.getD_none]
    simp only [hall, true_or, true_and, ne_eq, hpath, not_false_eq_true, Option.mem_def,
      reduceCtorEq, false_implies, implies_true, and_true]
  | some ids => simp [hpath, and_comm]

theorem mem_collectExcludes {pattern : Bytes} :
    pattern ∈ collectExcludes (s.resolvedManifest exist settings) ↔
      DataSelected s exist settings ∧ ∃ sub ∈ dataExcludes,
        pattern = filepathJoin (trimRight 0x2F s.dataDir) sub ∨
          pattern = filepathJoin (trimRight 0x2F s.dataDir) sub ++ ascii "/**" := by
  rw [collectExcludes, mem_flatMap]
  constructor
  · rintro ⟨e, he, hpattern⟩
    obtain ⟨b, hb, hselected, rfl⟩ := mem_resolvedManifest.mp he
    split at hpattern
    · cases hpattern
    · next hskip =>
      obtain ⟨hpath, hexclude⟩ := not_or.mp (not_or.mp hskip).2
      obtain rfl := (entry_cases hb).1 hexclude
      obtain ⟨sub, hsub, hpattern⟩ := mem_flatMap.mp hpattern
      refine ⟨(selected_dataEntry hpath).mp hselected, sub, hsub, ?_⟩
      rcases mem_cons.mp hpattern with rfl | hpattern
      · exact .inl rfl
      · exact .inr (mem_singleton.mp hpattern)
  · rintro ⟨hselected, sub, hsub, hpattern⟩
    have hpath : s.dataDir ≠ [] := hselected.1
    refine ⟨{ dataEntry s with enabled := true, available := true }, ?_, ?_⟩
    · exact mem_resolvedManifest.mpr
        ⟨dataEntry s, dataEntry_mem, (selected_dataEntry hpath).mpr hselected, rfl⟩
    · rw [if_neg (by simp [dataEntry, dataExcludes, hpath])]
      refine mem_flatMap.mpr ⟨sub, hsub, ?_⟩
      rcases hpattern with rfl | rfl
      · exact mem_cons_self
      · exact mem_cons_of_mem _ (mem_singleton_self _)

theorem mem_manifestBackupPaths {path : Bytes} :
    path ∈ manifestBackupPaths (s.resolvedManifest exist settings) s.stagingDir ↔
      path = s.stagingDir ∨ ∃ b ∈ defaultManifest s.dataDir s.vhostsRoot,
        Selected s exist settings b ∧ b.path ≠ [] ∧ path = b.path := by
  rw [manifestBackupPaths, mem_cons, mem_map]
  refine or_congr_right ?_
  constructor
  · rintro ⟨e, he, rfl⟩
    obtain ⟨he, hpath⟩ := mem_filter.mp he
    obtain ⟨b, hb, hselected, rfl⟩ := mem_resolvedManifest.mp he
    refine ⟨b, hb, hselected, ?_, rfl⟩
    simpa using hpath
  · rintro ⟨b, hb, hselected, hpath, rfl⟩
    refine ⟨{ b with enabled := true, available := true }, ?_, rfl⟩
    refine mem_filter.mpr ⟨mem_resolvedManifest.mpr ⟨b, hb, hselected, rfl⟩, ?_⟩
    simpa using hpath

end Selection

/-! ## What is excluded -/

section Excluded
variable {g : Glob} {cwd : List Bytes} {s : Service}

theorem dataExcludes_plain {sub : Bytes} (h : sub ∈ dataExcludes) :
    sub.all plainByte = true ∧ isName sub = true := by
  revert sub
  decide

/-- Both patterns of a subdirectory cover the same paths. -/
theorem covers_exclude {sub : Bytes} (hsub : sub ∈ dataExcludes) (hdata : s.dataDir ≠ [])
    {path : List Bytes} {pattern : Bytes}
    (hpattern : pattern = filepathJoin (trimRight 0x2F s.dataDir) sub ∨
      pattern = filepathJoin (trimRight 0x2F s.dataDir) sub ++ ascii "/**") :
    (Pattern.parse pattern).Covers g path ↔
      (⟨(dataPattern s).rooted, (dataPattern s).parts ++ [sub]⟩ : Pattern).Covers g path := by
  have hname := (dataExcludes_plain hsub).2
  by_cases htrim : trimRight 0x2F s.dataDir = []
  · -- the data directory is the root: the pattern is a bare name
    obtain ⟨-, hroot⟩ := components_of_trimRight_nil htrim hdata
    have hbare : ∀ sub ∈ dataExcludes, Pattern.parse (clean sub) = ⟨false, [] ++ [sub]⟩ ∧
        Pattern.parse (clean sub ++ ascii "/**") = ⟨false, [] ++ [sub] ++ [doubleStar]⟩ := by
      decide
    have hjoin : filepathJoin (trimRight 0x2F s.dataDir) sub = clean sub := if_pos htrim
    have hdataPattern : dataPattern s = ⟨false, []⟩ := by
      rw [dataPattern, hroot, htrim]
      exact congrArg (Pattern.mk · []) (Bool.and_false _)
    rw [hdataPattern]
    rw [hjoin] at hpattern
    rcases hpattern with rfl | rfl
    · rw [(hbare sub hsub).1]
    · rw [(hbare sub hsub).2]
      exact Pattern.covers_doubleStar
  · obtain ⟨hparts, habs⟩ := components_trimRight htrim
    have hjoin : filepathJoin (trimRight 0x2F s.dataDir) sub =
        pathJoin (trimRight 0x2F s.dataDir) sub :=
      if_neg htrim
    have hdataPattern : dataPattern s = ⟨isAbs s.dataDir, components s.dataDir⟩ := by
      rw [dataPattern, decide_eq_true htrim, Bool.and_true]
    rw [hdataPattern]
    rw [hjoin] at hpattern
    rcases hpattern with rfl | rfl
    · rw [parse_pathJoin htrim hname, hparts, habs]
    · rw [show ascii "/**" = 0x2F :: doubleStar from rfl, parse_pathJoin_below htrim hname, hparts,
        habs]
      exact Pattern.covers_doubleStar

theorem excludedBy_iff {exist : Bytes → Bool} {settings : Settings} {path : Bytes} :
    excludedBy g cwd (collectExcludes (s.resolvedManifest exist settings)) path = true ↔
      DataSelected s exist settings ∧ InExcluded g s (absComponents cwd path) := by
  rw [excludedBy, any_eq_true]
  constructor
  · rintro ⟨pattern, hmem, hexcludes⟩
    obtain ⟨hselected, sub, hsub, hpattern⟩ := mem_collectExcludes.mp hmem
    refine ⟨hselected, sub, hsub, ?_⟩
    exact (covers_exclude hsub hselected.1 hpattern).mp (Pattern.excludes_iff.mp hexcludes)
  · rintro ⟨hselected, sub, hsub, hcovers⟩
    refine ⟨_, mem_collectExcludes.mpr ⟨hselected, sub, hsub, .inl rfl⟩, ?_⟩
    exact Pattern.excludes_iff.mpr ((covers_exclude hsub hselected.1 (.inl rfl)).mpr hcovers)

/-- A path that has no more components with the names of the subdirectories than the data directory
has is not in them. -/
theorem not_inExcluded {path : List Bytes}
    (hcount : ∀ sub ∈ dataExcludes, path.count sub ≤ (components s.dataDir).count sub) :
    ¬ InExcluded g s path := by
  rintro ⟨sub, hsub, hcovers⟩
  have hle := hcovers.count_le (dataExcludes_plain hsub).1
  have hparts : (components s.dataDir ++ [sub]).count sub =
      (components s.dataDir).count sub + 1 := by
    rw [count_append, count_singleton_self]
  have hfew := hcount sub hsub
  have hmany : (components s.dataDir).count sub + 1 ≤ path.count sub := hparts ▸ hle
  omega

/-- The staging directory is in an excluded one if the local backups are, or if they are kept in the
data directory itself. -/
theorem inExcluded_staging (hlocal : s.localDir ≠ []) :
    InExcluded g s (absComponents cwd s.stagingDir) ↔
      InExcluded g s (absComponents cwd s.localDir) ∨
        (dataPattern s).Names g (absComponents cwd s.localDir) := by
  have hstaging : absComponents cwd s.stagingDir =
      absComponents cwd s.localDir ++ [ascii "snapshot-staging"] := by
    rw [stagingDir, filepathJoin, if_neg hlocal]
    exact absComponents_pathJoin cwd hlocal (by decide)
  rw [hstaging]
  constructor
  · rintro ⟨sub, hsub, hcovers⟩
    rcases (Pattern.covers_concat (ne_doubleStar (dataExcludes_plain hsub).1)).mp hcovers with
      hcovers | ⟨hnames, -⟩
    · exact .inl ⟨sub, hsub, hcovers⟩
    · exact .inr hnames
  · rintro (⟨sub, hsub, hcovers⟩ | hnames)
    · refine ⟨sub, hsub, ?_⟩
      exact (Pattern.covers_concat (ne_doubleStar (dataExcludes_plain hsub).1)).mpr (.inl hcovers)
    · have hsub : ascii "snapshot-staging" ∈ dataExcludes := mem_cons_of_mem _ mem_cons_self
      have hplain := (dataExcludes_plain hsub).1
      refine ⟨ascii "snapshot-staging", hsub, ?_⟩
      exact (Pattern.covers_concat (ne_doubleStar hplain)).mpr
        (.inr ⟨hnames, (g.plain _ hplain _).mpr rfl⟩)

theorem not_inExcluded_fixed {path : Bytes} (h : path ∈ fixedPaths) :
    ¬ InExcluded g s (absComponents cwd path) := by
  have hfixed : ∀ p ∈ fixedPaths, isAbs p = true ∧ ∀ sub ∈ dataExcludes,
      (components p).count sub = 0 := by
    decide +kernel
  obtain ⟨habs, hcount⟩ := hfixed path h
  refine not_inExcluded fun sub hsub => ?_
  rw [absComponents, if_pos habs, hcount sub hsub]
  exact Nat.zero_le _

end Excluded

section Complete
variable {g : Glob} {cwd : List Bytes} {s : Service} {exist : Bytes → Bool} {settings : Settings}

theorem complete_iff : Complete g cwd s exist settings ↔ (DataSelected s exist settings →
      ∀ path ∈ manifestBackupPaths (s.resolvedManifest exist settings) s.stagingDir,
        ¬ InExcluded g s (absComponents cwd path)) := by
  constructor
  · intro h hselected path hpath hin
    have hfalse := h path hpath
    rw [excludedBy_iff.mpr ⟨hselected, hin⟩] at hfalse
    cases hfalse
  · intro h path hpath
    rw [Bool.eq_false_iff, ne_eq, excludedBy_iff]
    rintro ⟨hselected, hin⟩
    exact h hselected path hpath hin

theorem vhosts_mem (h : VhostsSelected s exist) :
    s.vhostsRoot ∈ manifestBackupPaths (s.resolvedManifest exist settings) s.stagingDir := by
  refine mem_manifestBackupPaths.mpr (.inr ⟨_, mem_cons_self, ⟨.inr rfl, ?_⟩, h.1, rfl⟩)
  have hid : ascii "vhosts" ≠ ascii "root-crontab" := by decide
  exact (if_neg (not_or.mpr ⟨h.1, hid⟩)).trans h.2

theorem data_mem (h : DataSelected s exist settings) :
    s.dataDir ∈ manifestBackupPaths (s.resolvedManifest exist settings) s.stagingDir :=
  mem_manifestBackupPaths.mpr
    (.inr ⟨dataEntry s, dataEntry_mem, (selected_dataEntry h.1).mpr h, h.1, rfl⟩)

end Complete

theorem localDir_ne (dataDir vhostsRoot localDir : Bytes) :
    (Service.new dataDir vhostsRoot localDir).localDir ≠ [] := by
  have hdefault : filepathJoin dataDir (ascii "backups") ≠ [] := by
    rw [filepathJoin]
    split_ifs
    · exact clean_ne_nil _
    · exact clean_ne_nil _
  show (if localDir = [] then filepathJoin dataDir (ascii "backups") else localDir) ≠ []
  split_ifs with hlocal
  · exact hdefault
  · exact hlocal

/-- Nothing that is selected is excluded exactly if what is selected beside the data directory is
not in its excluded subdirectories, or the data directory is not selected. -/
theorem nothing_excluded_iff (g : Glob) (cwd : List Bytes) (dataDir vhostsRoot localDir : Bytes)
    (exist : Bytes → Bool) (settings : Settings) :
    Complete g cwd (Service.new dataDir vhostsRoot localDir) exist settings ↔
      Separate g cwd (Service.new dataDir vhostsRoot localDir) exist settings := by
  have hlocal := localDir_ne dataDir vhostsRoot localDir
  generalize new dataDir vhostsRoot localDir = s at hlocal ⊢
  rw [complete_iff]
  constructor
  · intro h hselected
    have hstaging := h hselected s.stagingDir (mem_manifestBackupPaths.mpr (.inl rfl))
    rw [inExcluded_staging hlocal, not_or] at hstaging
    refine ⟨hstaging, ?_, ?_⟩
    · exact fun hvhosts => h hselected s.vhostsRoot (vhosts_mem hvhosts)
    · exact fun _ => h hselected s.dataDir (data_mem hselected)
  · intro h hselected path hpath
    obtain ⟨hstaging, hvhosts, hdata⟩ := h hselected
    rcases mem_manifestBackupPaths.mp hpath with rfl | ⟨b, hb, hb', hne, rfl⟩
    · rw [inExcluded_staging hlocal, not_or]
      exact hstaging
    · obtain ⟨hid, hroots⟩ := (entry_cases hb).2 hne
      have hexist := hb'.2
      rw [pathAvailable, if_neg (not_or.mpr ⟨hne, hid⟩)] at hexist
      rcases hroots with hroot | hroot | hfixed
      · rw [hroot] at hne hexist ⊢
        exact hvhosts ⟨hne, hexist⟩
      · rw [hroot]
        by_cases habs : isAbs s.dataDir = true
        · refine not_inExcluded fun sub _ => ?_
          rw [absComponents, if_pos habs]
        · exact hdata (Bool.eq_false_iff.mpr habs)
      · exact not_inExcluded_fixed hfixed

/-- The default directories: the staging directory is excluded. -/
theorem default_staging_excluded :
    ¬ Complete Glob.literal [] (Service.new (ascii "/var/lib/hserver") (ascii "/srv/sites") [])
      (fun _ => true) ⟨⟨ascii "gdrive", ascii "hserver-snapshots", none, 14, 8, 6, true⟩, [], [],
        []⟩ := by
  intro h
  have hstaging := h _ mem_cons_self
  exact absurd hstaging (by decide +kernel)

end HeyServer.Snapshot
