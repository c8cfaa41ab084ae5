import HeyServer.Backup.Artifacts

/-!
# Ids of backup artifacts

The id of a backup is its file name without the archive endings, and a call by id goes through
`sanitize` before it is looked up. Hence an id tells its file if the names of the listed files
differ in more than archive endings and have no byte outside of the ids' alphabet. Files such as
`x.sql` and `x.sql.gz` share their id, and a call that is meant for one may hit the other.
-/

namespace HeyServer.Backup
open Lib Utf8 Lib.Text Lib.Affixes List Service

/-! ## What the ids are for -/

/-- The ids of the listed backups are different, and a call by the id of a backup is about the file
of this backup. The list that a call looks at is made anew. -/
structure IdsIdentify (s : Service) (disk : Disk) : Prop where
  distinct : ∀ list, s.Listing disk list → (list.map BackupInfo.id).Nodup
  delete : ∀ list, s.Listing disk list → ∀ b ∈ list, ∀ fails,
    delete fails list b.id = remove fails b.path
  restore : ∀ list, s.Listing disk list → ∀ b ∈ list,
    restore list b.id =
      if b.status = .completed then restoreFound b else .error (.notRestorable b.id b.status)
  /-- A purge removes only files of chosen backups that are orphaned. -/
  purge_only : ∀ list, s.Listing disk list → ∀ chosen ⊆ list, ∀ active fails,
    ∀ path ∈ (purgeOrphaned active fails list (chosen.map BackupInfo.id)).removed,
      ∃ b ∈ chosen, b.status = .orphaned ∧ b.path = path
  /-- It removes all of them if it is allowed to run. -/
  purge_all : ∀ list, s.Listing disk list → ∀ chosen ⊆ list, chosen ≠ [] → chosen.length ≤ 200 →
    (∀ b ∈ chosen, b.status = .orphaned) →
    (purgeOrphaned [] (fun _ => false) list (chosen.map BackupInfo.id)).error = none ∧
      ∀ b ∈ chosen,
        b.path ∈ (purgeOrphaned [] (fun _ => false) list (chosen.map BackupInfo.id)).removed

/-! ## The listed files -/

def archiveEndings : List Bytes := [partEnding, tarEnding, sqlGzEnding, sqlEnding]

/-- A listed file: its directory, what precedes its id and its entry. -/
structure Artifact where
  dir : Bytes
  idPrefix : Bytes
  entry : DirEntry

namespace Artifact

variable (a : Artifact)

def info : BackupInfo := backupInfo a.dir a.idPrefix a.entry

/-- The file name without its longest archive ending. -/
def Stem (stem : Bytes) : Prop := IsStem archiveEndings a.entry.name stem

theorem stem_iff {stem : Bytes} : a.Stem stem ↔ stem = buildID a.entry.name :=
  have hstem := isStem_stripEach (by decide) a.entry.name
  ⟨fun h => h.unique hstem, fun h => h ▸ hstem⟩

end Artifact

def Service.artifacts (s : Service) (disk : Disk) : List Artifact :=
  ((disk.readDir s.backupDir).filter (isShown false)).map (Artifact.mk s.backupDir []) ++
    (s.legacyDirs.filter fun legacyDir =>
      clean legacyDir ≠ clean s.backupDir).flatMap fun legacyDir =>
      ((disk.readDir legacyDir).filter (isShown true)).map (Artifact.mk legacyDir legacyIdPrefix)

/-- The listed files can be told apart by their names. -/
structure Distinguishable (s : Service) (disk : Disk) : Prop where
  /-- No two of them differ in archive endings only. -/
  apart : (s.artifacts disk).Pairwise fun a b => ∀ x y, a.Stem x → b.Stem y →
    a.idPrefix ++ x ≠ b.idPrefix ++ y
  /-- Before the ending they consist of letters, digits, dashes, underscores and dots. -/
  plain : ∀ a ∈ s.artifacts disk, ∀ x, a.Stem x → ∀ b ∈ x, isIdByte b = true
  /-- No orphaned file of the backup directory is nothing but an ending. -/
  named : ∀ a ∈ s.artifacts disk, a.idPrefix = [] → isOrphanedArtifact a.entry.name = true →
    ¬ a.Stem []

section Listing

variable {s : Service} {disk : Disk} {list : List BackupInfo}

theorem found_eq (s : Service) (disk : Disk) :
    s.found disk = (s.artifacts disk).map Artifact.info := by
  simp only [found, artifacts, listDirectory, map_append, map_flatMap, map_map]
  rfl

theorem mem_artifacts {a : Artifact} (ha : a ∈ s.artifacts disk) : a.entry ∈ disk.readDir a.dir ∧
      ((a.dir = s.backupDir ∧ a.idPrefix = [] ∧ isShown false a.entry = true) ∨
        (clean a.dir ≠ clean s.backupDir ∧ a.idPrefix = legacyIdPrefix ∧
          isShown true a.entry = true)) := by
  rcases mem_append.mp ha with ha | ha
  · obtain ⟨e, he, rfl⟩ := mem_map.mp ha
    obtain ⟨hmem, hshown⟩ := mem_filter.mp he
    exact ⟨hmem, .inl ⟨rfl, rfl, hshown⟩⟩
  · obtain ⟨legacyDir, hdir, ha⟩ := mem_flatMap.mp ha
    obtain ⟨e, he, rfl⟩ := mem_map.mp ha
    obtain ⟨hmem, hshown⟩ := mem_filter.mp he
    exact ⟨hmem, .inr ⟨of_decide_eq_true (mem_filter.mp hdir).2, rfl, hshown⟩⟩

theorem dir_ne_nil {a : Artifact} (ha : a.entry ∈ disk.readDir a.dir) : a.dir ≠ [] := by
  intro hnil
  rw [hnil, disk.nowhere] at ha
  cases ha

theorem exists_listing (s : Service) (disk : Disk) : ∃ list, s.Listing disk list := by
  refine ⟨(s.found disk).mergeSort fun a b => b.createdAt ≤ a.createdAt, mergeSort_perm _ _, ?_⟩
  apply List.Pairwise.imp (fun {_ _} hle => of_decide_eq_true hle)
  apply pairwise_mergeSort
  · intro a b c hab hbc
    exact decide_eq_true ((of_decide_eq_true hbc).trans (of_decide_eq_true hab))
  · intro a b
    simp only [Bool.or_eq_true, decide_eq_true_eq]
    exact le_total _ _

/-- A backup is shown as orphaned because of its name only. -/
theorem status_orphaned_iff {dir mark : Bytes} {e : DirEntry} :
    (backupInfo dir mark e).status = .orphaned ↔ isOrphanedArtifact e.name = true := by
  constructor
  · intro hstatus
    by_contra hnot
    have hvalidity : backupValidity (trimSuffix e.name partEnding) e.size = .orphaned := by
      rw [← hstatus]
      exact (if_neg hnot).symm
    rw [backupValidity] at hvalidity
    split_ifs at hvalidity
  · intro horphaned
    exact if_pos horphaned

theorem Service.Listing.mem_iff (h : s.Listing disk list) {b : BackupInfo} :
    b ∈ list ↔ ∃ a ∈ s.artifacts disk, a.info = b := by
  rw [h.perm.mem_iff, found_eq, mem_map]

/-- The path of a file tells its directory and its name. -/
theorem path_inj {a b : Artifact} (ha : a.entry ∈ disk.readDir a.dir)
    (hb : b.entry ∈ disk.readDir b.dir)
    (h : a.info.path = b.info.path) : clean a.dir = clean b.dir ∧ a.entry.name = b.entry.name := by
  have hjoin : pathJoin a.dir a.entry.name = pathJoin b.dir b.entry.name := by
    calc pathJoin a.dir a.entry.name = a.info.path := (if_neg (dir_ne_nil ha)).symm
      _ = b.info.path := h
      _ = pathJoin b.dir b.entry.name := if_neg (dir_ne_nil hb)
  exact pathJoin_inj (dir_ne_nil ha) (dir_ne_nil hb) (disk.isName_of_mem _ _ ha)
    (disk.isName_of_mem _ _ hb) hjoin

/-- Only files with the same id have the same path. -/
theorem id_eq_of_path_eq {a b : Artifact} (ha : a ∈ s.artifacts disk) (hb : b ∈ s.artifacts disk)
    (h : a.info.path = b.info.path) : a.info.id = b.info.id := by
  obtain ⟨hentry, hplace⟩ := mem_artifacts ha
  obtain ⟨hentry', hplace'⟩ := mem_artifacts hb
  obtain ⟨hclean, hname⟩ := path_inj hentry hentry' h
  have hmark : a.idPrefix = b.idPrefix := by
    rcases hplace with ⟨hmain, hnone, -⟩ | ⟨hother, hlegacy, -⟩
    · rcases hplace' with ⟨-, hnone', -⟩ | ⟨hother', -⟩
      · rw [hnone, hnone']
      · exact absurd (hclean.symm.trans (congrArg clean hmain)) hother'
    · rcases hplace' with ⟨hmain', -⟩ | ⟨-, hlegacy', -⟩
      · exact absurd (hclean.trans (congrArg clean hmain')) hother
      · rw [hlegacy, hlegacy']
  show a.idPrefix ++ buildID a.entry.name = b.idPrefix ++ buildID b.entry.name
  rw [hmark, hname]

theorem nodup_ids_iff (h : s.Listing disk list) : (list.map BackupInfo.id).Nodup ↔
      (s.artifacts disk).Pairwise fun a b => ∀ x y, a.Stem x → b.Stem y →
        a.idPrefix ++ x ≠ b.idPrefix ++ y := by
  rw [(h.perm.map BackupInfo.id).nodup_iff, found_eq, map_map, List.Nodup, pairwise_map]
  have hids : ∀ a b : Artifact, (∀ x y, a.Stem x → b.Stem y → a.idPrefix ++ x ≠ b.idPrefix ++ y) ↔
      (BackupInfo.id ∘ Artifact.info) a ≠ (BackupInfo.id ∘ Artifact.info) b := by
    intro a b
    constructor
    · intro hstems
      exact hstems _ _ (a.stem_iff.mpr rfl) (b.stem_iff.mpr rfl)
    · intro hne x y hx hy
      rw [a.stem_iff.mp hx, b.stem_iff.mp hy]
      exact hne
  exact List.Pairwise.iff fun a b => (hids a b).symm

end Listing

/-! ## Looking up ids -/

theorem sanitize_eq_self_iff {s : Bytes} : sanitize s = s ↔ ∀ b ∈ s, isIdByte b = true :=
  filter_eq_self

variable {list : List BackupInfo} {b : BackupInfo}

theorem find?_id (hnodup : (list.map BackupInfo.id).Nodup)
    (hb : b ∈ list) : list.find? (fun x => x.id = b.id) = some b := by
  cases hfind : list.find? (fun x => x.id = b.id) with
  | none => exact absurd (decide_eq_true rfl) (find?_eq_none.mp hfind b hb)
  | some x =>
    have hid : x.id = b.id := by simpa using find?_some hfind
    rw [inj_on_of_nodup_map hnodup (mem_of_find?_eq_some hfind) hb hid]

theorem orphanedById_of_mem (hnodup : (list.map BackupInfo.id).Nodup)
    (hb : b ∈ list) (horphaned : b.status = .orphaned) : orphanedById list b.id = some b := by
  apply find?_id
  · rw [map_reverse, nodup_reverse]
    exact (List.Sublist.map _ filter_sublist).nodup hnodup
  · exact mem_reverse.mpr (mem_filter.mpr ⟨hb, decide_eq_true horphaned⟩)

/-! ## Purging -/

section Purge

variable {orphaned : Bytes → Option BackupInfo} {selected : List BackupInfo}

theorem mem_selectOrphaned {ids seen : List Bytes}
    (h : selectOrphaned orphaned seen ids = .ok selected) :
    ∀ item ∈ selected, ∃ id ∈ ids, orphaned (sanitize id) = some item := by
  fun_induction selectOrphaned orphaned seen ids generalizing selected
  case case1 =>
    cases h
    intro item hitem
    cases hitem
  case case2 ih =>
    intro item hitem
    obtain ⟨id, hid, hfound⟩ := ih h item hitem
    exact ⟨id, mem_cons_of_mem _ hid, hfound⟩
  case case3 => cases h
  case case4 rawID _ _ _ _ hlookup ih =>
    obtain ⟨others, hothers, rfl⟩ := map_eq_ok.mp h
    intro item hitem
    rcases mem_cons.mp hitem with rfl | hitem
    · exact ⟨rawID, mem_cons_self, hlookup⟩
    · obtain ⟨id, hid, hfound⟩ := ih hothers item hitem
      exact ⟨id, mem_cons_of_mem _ hid, hfound⟩

/-- Backups that are found under their own ids are all selected. -/
theorem selectOrphaned_chosen {chosen : List BackupInfo} (seen : List Bytes)
    (hplain : ∀ b ∈ chosen, sanitize b.id = b.id) (hnamed : ∀ b ∈ chosen, b.id ≠ [])
    (hfound : ∀ b ∈ chosen, orphaned b.id = some b) :
    ∃ selected, selectOrphaned orphaned seen (chosen.map BackupInfo.id) = .ok selected ∧
      ∀ b ∈ chosen, b.id ∈ seen ∨ b ∈ selected := by
  induction chosen generalizing seen with
  | nil => exact ⟨[], rfl, fun b hb => absurd hb not_mem_nil⟩
  | cons first rest ih =>
    have hih := fun seen => ih seen (fun b hb => hplain b (mem_cons_of_mem _ hb))
      (fun b hb => hnamed b (mem_cons_of_mem _ hb))
      (fun b hb => hfound b (mem_cons_of_mem _ hb))
    have hid := hplain first mem_cons_self
    rw [map_cons, selectOrphaned, hid]
    by_cases hseen : first.id ∈ seen
    · obtain ⟨selected, hselected, hall⟩ := hih seen
      rw [if_pos (.inr hseen)]
      refine ⟨selected, hselected, ?_⟩
      intro b hb
      rcases mem_cons.mp hb with rfl | hb
      · exact .inl hseen
      · exact hall b hb
    · obtain ⟨selected, hselected, hall⟩ := hih (first.id :: seen)
      have hgo : ¬ (first.id = [] ∨ first.id ∈ seen) :=
        not_or.mpr ⟨hnamed first mem_cons_self, hseen⟩
      rw [if_neg hgo, hfound first mem_cons_self, hselected]
      refine ⟨first :: selected, rfl, ?_⟩
      intro b hb
      rcases mem_cons.mp hb with rfl | hb
      · exact .inr mem_cons_self
      · -- A backup whose id was first's is first itself, as both are what the map holds under it.
        rcases hall b hb with hb' | hb'
        · rcases mem_cons.mp hb' with hsame | hb'
          · have heq := (hfound b (mem_cons_of_mem _ hb)).symm.trans
              ((congrArg orphaned hsame).trans (hfound first mem_cons_self))
            rw [Option.some.inj heq]
            exact .inr mem_cons_self
          · exact .inl hb'
        · exact .inr (mem_cons_of_mem _ hb')

theorem mem_removeSelected {fails : Bytes → Bool} :
    ∀ path ∈ (removeSelected fails selected).removed, ∃ b ∈ selected, b.path = path := by
  fun_induction removeSelected fails selected
  case case3 item _ _ _ ih =>
    intro path hpath
    rcases mem_cons.mp hpath with rfl | hpath
    · exact ⟨item, mem_cons_self, rfl⟩
    · obtain ⟨b, hb, hpath⟩ := ih path hpath
      exact ⟨b, mem_cons_of_mem _ hb, hpath⟩
  all_goals
    intro path hpath
    cases hpath

theorem removeSelected_all (selected : List BackupInfo) :
    (removeSelected (fun _ => false) selected).toRemoval =
      ⟨selected.map BackupInfo.path, none⟩ := by
  induction selected with
  | nil => rfl
  | cons item rest ih =>
    rw [removeSelected, if_neg Bool.false_ne_true, map_cons]
    simp only [ih]

theorem purgeOrphaned_removed {active : List Job} {fails : Bytes → Bool} {list : List BackupInfo}
    {ids : List Bytes} {path : Bytes} (h : path ∈ (purgeOrphaned active fails list ids).removed) :
    ∃ b ∈ list, b.status = .orphaned ∧ b.path = path ∧ ∃ id ∈ ids, sanitize id = b.id := by
  rw [purgeOrphaned] at h
  split_ifs at h with hids hmany hactive
  · cases h
  · cases h
  · cases h
  · split at h
    · cases h
    · next selected hselect =>
      obtain ⟨b, hb, hpath⟩ := mem_removeSelected path h
      obtain ⟨id, hid, hfound⟩ := mem_selectOrphaned hselect b hb
      have hmem := mem_filter.mp (mem_reverse.mp (mem_of_find?_eq_some hfound))
      have hsame : b.id = sanitize id := by simpa using find?_some hfound
      exact ⟨b, hmem.1, of_decide_eq_true hmem.2, hpath, id, hid, hsame.symm⟩

end Purge

/-! ## The result -/

section

variable {s : Service} {disk : Disk}

section
variable (h : Distinguishable s disk)
include h

theorem Distinguishable.sanitize_id {a : Artifact}
    (ha : a ∈ s.artifacts disk) : sanitize a.info.id = a.info.id := by
  rw [sanitize_eq_self_iff]
  intro b hb
  rcases mem_append.mp hb with hb | hb
  · rcases (mem_artifacts ha).2 with ⟨-, hnone, -⟩ | ⟨-, hlegacy, -⟩
    · rw [hnone] at hb
      cases hb
    · rw [hlegacy] at hb
      exact all_eq_true.mp (show legacyIdPrefix.all isIdByte = true by decide) b hb
  · exact h.plain a ha _ (a.stem_iff.mpr rfl) b hb

theorem Distinguishable.idsIdentify : IdsIdentify s disk := by
  have hnodup : ∀ {list}, s.Listing disk list → (list.map BackupInfo.id).Nodup :=
    fun hlist => (nodup_ids_iff hlist).mpr h.apart
  have hplain : ∀ {list}, s.Listing disk list → ∀ b ∈ list, sanitize b.id = b.id := by
    intro list hlist b hb
    obtain ⟨a, ha, rfl⟩ := hlist.mem_iff.mp hb
    exact h.sanitize_id ha
  refine ⟨fun list hlist => hnodup hlist, ?_, ?_, ?_, ?_⟩
  · intro list hlist b hb fails
    rw [delete, hplain hlist b hb, find?_id (hnodup hlist) hb]
  · intro list hlist b hb
    rw [restore, restoreCandidate, hplain hlist b hb, find?_id (hnodup hlist) hb]
    by_cases hcompleted : b.status = .completed
    · simp only [hcompleted, ne_eq, not_true_eq_false, if_false, if_true]
      rfl
    · simp only [hcompleted, ne_eq, not_false_eq_true, if_true, if_false]
      rfl
  · intro list hlist chosen hchosen active fails path hpath
    obtain ⟨b, hb, horphaned, hpath, id, hid, hsame⟩ := purgeOrphaned_removed hpath
    obtain ⟨c, hc, rfl⟩ := mem_map.mp hid
    rw [hplain hlist c (hchosen hc)] at hsame
    obtain rfl := inj_on_of_nodup_map (hnodup hlist) (hchosen hc) hb hsame
    exact ⟨c, hc, horphaned, hpath⟩
  · intro list hlist chosen hchosen hne hmany horphaned
    have hnamed : ∀ b ∈ chosen, b.id ≠ [] := by
      intro b hb
      obtain ⟨a, ha, rfl⟩ := hlist.mem_iff.mp (hchosen hb)
      intro hnil
      obtain ⟨hmark, hstem⟩ := append_eq_nil_iff.mp hnil
      exact h.named a ha hmark (status_orphaned_iff.mp (horphaned _ hb)) (a.stem_iff.mpr hstem.symm)
    obtain ⟨selected, hselected, hall⟩ := selectOrphaned_chosen []
      (fun b hb => hplain hlist b (hchosen hb)) hnamed
      fun b hb => orphanedById_of_mem (hnodup hlist) (hchosen hb) (horphaned b hb)
    have hids : chosen.map BackupInfo.id ≠ [] := fun hnil => hne (map_eq_nil_iff.mp hnil)
    have hcount : ¬ 200 < (chosen.map BackupInfo.id).length := by
      rw [length_map]
      exact Nat.not_lt.mpr hmany
    rw [purgeOrphaned, if_neg hids, if_neg hcount, if_neg (not_not.mpr rfl), hselected]
    have hremoval := removeSelected_all selected
    refine ⟨congrArg Removal.error hremoval, ?_⟩
    intro b hb
    have hselected : b ∈ selected := (hall b hb).resolve_left not_mem_nil
    rw [hremoval]
    exact mem_map_of_mem hselected

end

theorem IdsIdentify.distinguishable (h : IdsIdentify s disk) : Distinguishable s disk := by
  obtain ⟨list, hlist⟩ := exists_listing s disk
  refine ⟨(nodup_ids_iff hlist).mp (h.distinct list hlist), ?_, ?_⟩
  · intro a ha x hx b hb
    have hdelete := h.delete list hlist a.info (hlist.mem_iff.mpr ⟨a, ha, rfl⟩) fun _ => false
    rw [Backup.delete] at hdelete
    -- The backup that is found has the path of this one, hence its id, which is the sanitized one.
    split at hdelete
    · next hfind =>
      obtain ⟨c, hc, rfl⟩ := hlist.mem_iff.mp (mem_of_find?_eq_some hfind)
      have hpath : c.info.path = a.info.path :=
        singleton_inj.mp (congrArg Removal.removed hdelete)
      have hid : sanitize a.info.id = a.info.id := by
        calc sanitize a.info.id = c.info.id := by simpa [eq_comm] using find?_some hfind
          _ = a.info.id := id_eq_of_path_eq hc ha hpath
      apply sanitize_eq_self_iff.mp hid
      rw [a.stem_iff.mp hx] at hb
      exact mem_append_right _ hb
    · cases hdelete
  · intro a ha hmark horphaned hstem
    have hid : a.info.id = [] := append_eq_nil_iff.mpr ⟨hmark, (a.stem_iff.mp hstem).symm⟩
    have hstatus : a.info.status = .orphaned := status_orphaned_iff.mpr horphaned
    have hpurge := (h.purge_all list hlist [a.info]
      (cons_subset.mpr ⟨hlist.mem_iff.mpr ⟨a, ha, rfl⟩, nil_subset _⟩) (cons_ne_nil _ _)
      (show 1 ≤ 200 by decide) (fun b hb => mem_singleton.mp hb ▸ hstatus)).2 a.info
      (mem_singleton_self _)
    rw [map_singleton, hid] at hpurge
    cases hpurge

end

/-- Ids tell the files of the listed backups exactly if the file names can be told apart. -/
theorem ids_identify_iff (s : Service) (disk : Disk) :
    IdsIdentify s disk ↔ Distinguishable s disk :=
  ⟨IdsIdentify.distinguishable, Distinguishable.idsIdentify⟩

/-- A disk with one directory. -/
def Disk.single (dir : Bytes) (entries : List DirEntry) (hdir : dir ≠ [])
    (hnames : ∀ e ∈ entries, isName e.name = true) (hnodup : (entries.map DirEntry.name).Nodup) :
    Disk where
  readDir path := if path = dir then entries else []
  isName_of_mem path e he := by
    split_ifs at he
    · exact hnames e he
    · cases he
  nodup path := by
    split_ifs
    · exact hnodup
    · exact List.nodup_nil
  nowhere := if_neg hdir.symm

theorem backups_ne_nil : ascii "/srv/backups" ≠ [] := by decide

/-- A dump and the same dump compressed a minute later. -/
def twoDumps : Disk :=
  .single (ascii "/srv/backups")
    [⟨ascii "shop.sql", false, 4096, 8, 0⟩, ⟨ascii "shop.sql.gz", false, 1024, 8, 60⟩]
    backups_ne_nil (by decide) (by decide)

/-- Both dumps are listed under the id `shop`, and the call that is meant to delete the older one
deletes the newer one. -/
theorem shared_id_deletes_other :
    ¬ IdsIdentify (.newAt (ascii "/srv/backups")) twoDumps ∧
      ∃ list, (Service.newAt (ascii "/srv/backups")).Listing twoDumps list ∧ ∃ b ∈ list,
        b.path = ascii "/srv/backups/shop.sql" ∧
          delete (fun _ => false) list b.id = ⟨[ascii "/srv/backups/shop.sql.gz"], none⟩ := by
  have hlisting : (newAt (ascii "/srv/backups")).Listing twoDumps
      ((newAt (ascii "/srv/backups")).found twoDumps).reverse :=
    ⟨reverse_perm _, by decide +kernel⟩
  constructor
  · intro h
    have hdistinct := h.distinct _ hlisting
    revert hdistinct
    decide +kernel
  · exact ⟨_, hlisting, by decide +kernel⟩

end HeyServer.Backup
