import HeyServer.Gdrive.Settings

/-!
# Retention of the remote backups

`deleteOlderThan` looks at the newest backup of every name in the tree of the folder, and deletes
the file of the folder itself that has the filtered name.

## Implementation notes

Paths are relative to the folder. Times are counted from the zero time, which stands for a time that
cannot be read. `removes` says which files `deletefile` removes.
-/

namespace HeyServer.Gdrive
open Lib Text List

def isBackupFile (name : Bytes) : Bool := ascii ".tar.gz" <:+ name || ascii ".sql.gz" <:+ name

/-- An entry that `lsjson --recursive` lists. -/
structure RemoteEntry where
  path : Bytes
  size : Int
  modTime : Option Int
  isDir : Bool
  path_ne : path ≠ []
deriving DecidableEq

namespace RemoteEntry
variable (e : RemoteEntry)

def name : Bytes := base e.path

def time : Int := e.modTime.getD 0

def isBackup : Bool := !e.isDir && isBackupFile e.name

end RemoteEntry

def keepNewest (byName : Bytes → Option RemoteEntry) (e : RemoteEntry) :
    Bytes → Option RemoteEntry :=
  if e.isBackup && (byName e.name).all fun b => b.time < e.time ||
    b.time = e.time && b.size < e.size then
    Function.update byName e.name (some e)
  else byName

variable (raw : List RemoteEntry)

/-- The map that `listJSON` fills. -/
def newest : Bytes → Option RemoteEntry := raw.foldl keepNewest fun _ => none

def listJSON : List RemoteEntry :=
  (raw.map RemoteEntry.name).dedup.filterMap (newest raw)

def deletefile (removes : RemoteEntry → Bool) (remote : Bytes) (tree : List RemoteEntry) :
    List RemoteEntry :=
  tree.filter fun e => e.isDir || e.path ≠ remote || !removes e

/-- What is left of the tree, and the number of deletions. -/
def deleteOlderThan (removes : RemoteEntry → Bool) (cutoff : Int) :
    List RemoteEntry → List RemoteEntry × Nat → List RemoteEntry × Nat
  | [], s => s
  | b :: backups, (tree, deleted) =>
    let remote := sanitizePath b.name
    let left := deletefile removes remote tree
    deleteOlderThan removes cutoff backups <|
      if b.time = 0 ∨ cutoff < b.time ∨ remote = [] then (tree, deleted)
      else (left, if left.length < tree.length then deleted + 1 else deleted)

/-! ## What is deleted -/

section
variable (cutoff : Int) (tree : List RemoteEntry)

/-- A backup whose own time is known and not after the cutoff. -/
def RemoteEntry.Expired (e : RemoteEntry) : Prop := e.isBackup ∧ ∃ t ∈ e.modTime, t ≤ cutoff

/-- The newest backup of the name in the tree has a known time that is not after the cutoff. -/
def Outdated (name : Bytes) : Prop :=
  ∃ b ∈ tree, b.isBackup ∧ b.name = name ∧ b.time ≠ 0 ∧ b.time ≤ cutoff ∧
    ∀ e ∈ tree, e.isBackup → e.name = name → e.time ≤ b.time

structure Spared : Prop where
  /-- No outdated name is that of a file of the folder whose time is unknown. -/
  known : ∀ e ∈ tree, e.isDir = false → e.modTime = none → sanitizePath e.path = e.path →
    ¬ Outdated cutoff tree e.path
  /-- The filter makes no outdated name the path of another file, unless that is expired. -/
  distinct : ∀ e ∈ tree, e.isDir = false → ∀ name ≠ e.path, sanitizePath name = e.path →
    Outdated cutoff tree name → e.Expired cutoff

end

variable {cutoff : Int} {tree : List RemoteEntry}

theorem base_base (path : Bytes) : base (base path) = base path := by
  rw [base.eq_1 path]
  cases h : ((split 0x2F path).filter (· ≠ [])).getLast? with
  | none => rfl
  | some part =>
    obtain ⟨hpart, hne⟩ := mem_filter.mp (mem_of_getLast? h)
    rw [Option.getD_some, base, split_of_not_mem (not_mem_of_mem_split hpart)]
    simp [of_decide_eq_true hne]

/-- The map has a newest backup of each name. -/
theorem newest_spec : (∀ name b, newest raw name = some b → b ∈ raw ∧ b.isBackup ∧ b.name = name) ∧
      ∀ e ∈ raw, e.isBackup → ∃ b, newest raw e.name = some b ∧ e.time ≤ b.time := by
  induction raw using reverseRecOn with
  | nil => exact ⟨by simp [newest], by simp⟩
  | append_singleton raw e ih =>
    obtain ⟨hmem, hmax⟩ := ih
    rw [newest, foldl_concat, ← newest, keepNewest]
    simp only [Bool.and_eq_true, Option.all_eq_true, mem_append, mem_singleton]
    split_ifs with hkeep
    · simp only [Function.update_apply]
      grind
    · grind

/-- A name is outdated if its newest backup is. -/
theorem outdated_iff {name : Bytes} : Outdated cutoff tree name ↔
    ∃ b ∈ listJSON tree, b.name = name ∧ b.time ≠ 0 ∧ b.time ≤ cutoff := by
  obtain ⟨hmem, hmax⟩ := newest_spec tree
  simp only [listJSON, mem_filterMap, mem_dedup, mem_map]
  constructor
  · rintro ⟨b, hb, hbackup, rfl, hknown, hold, hnewest⟩
    obtain ⟨c, hc, hle⟩ := hmax b hb hbackup
    obtain ⟨hctree, hcbackup, hname⟩ := hmem b.name c hc
    have htime : c.time = b.time := le_antisymm (hnewest c hctree hcbackup hname) hle
    exact ⟨c, ⟨b.name, ⟨b, hb, rfl⟩, hc⟩, hname, htime ▸ hknown, htime ▸ hold⟩
  · rintro ⟨b, ⟨name', -, hb⟩, rfl, hknown, hold⟩
    obtain ⟨hbtree, hbackup, rfl⟩ := hmem name' b hb
    refine ⟨b, hbtree, hbackup, rfl, hknown, hold, fun e he hebackup hname => ?_⟩
    obtain ⟨c, hc, hle⟩ := hmax e he hebackup
    rw [hname, hb] at hc
    cases hc
    exact hle

theorem mem_deleteOlderThan {removes : RemoteEntry → Bool} {backups : List RemoteEntry}
    {deleted : Nat}
    {e : RemoteEntry} : e ∈ (deleteOlderThan removes cutoff backups (tree, deleted)).1 ↔ e ∈ tree ∧
      ∀ b ∈ backups, b.time ≠ 0 → b.time ≤ cutoff → sanitizePath b.name = e.path → e.isDir = false →
        removes e = false := by
  have hne := e.path_ne
  induction backups generalizing tree deleted with
  | nil => simp [deleteOlderThan]
  | cons b backups ih =>
    simp only [deleteOlderThan]
    split_ifs <;> refine ih.trans ?_ <;> grind [deletefile]

/-- Only expired files are deleted exactly if the tree spares the others. -/
theorem deletes_expired_iff (cutoff : Int) (tree : List RemoteEntry) :
    (∀ removes backups, backups.Perm (listJSON tree) → ∀ e ∈ tree,
        e ∉ (deleteOlderThan removes cutoff backups (tree, 0)).1 → e.Expired cutoff) ↔
      Spared cutoff tree := by
  constructor
  · intro h
    have hexpired (e) (he : e ∈ tree) (hfile : e.isDir = false) {name : Bytes}
        (hpath : sanitizePath name = e.path) (hname : Outdated cutoff tree name) :
          e.Expired cutoff := by
      obtain ⟨b, hb, rfl, hknown, hold⟩ := outdated_iff.mp hname
      refine h (fun _ => true) _ (.refl _) e he fun hleft => ?_
      have hkept := (mem_deleteOlderThan.mp hleft).2 b hb hknown hold hpath hfile
      cases hkept
    refine ⟨fun e he hfile hnone hpath hname => ?_, fun e he hfile name _ => hexpired e he hfile⟩
    obtain ⟨-, t, ht, -⟩ := hexpired e he hfile hpath hname
    rw [hnone] at ht
    cases ht
  · intro h removes backups hperm e he hgone
    simp only [mem_deleteOlderThan, he, true_and, not_forall] at hgone
    obtain ⟨b, hb, hknown, hold, hpath, hfile, -⟩ := hgone
    have hname : Outdated cutoff tree b.name :=
      outdated_iff.mpr ⟨b, hperm.mem_iff.mp hb, rfl, hknown, hold⟩
    by_cases hsame : b.name = e.path
    · -- The file is one of those of its name, so the newest of them is not older.
      rw [hsame] at hpath hname
      obtain ⟨c, -, hcbackup, hcname, -, hcold, hnewest⟩ := id hname
      have hown : e.name = e.path := by
        rw [RemoteEntry.name, ← hcname]
        exact base_base _
      have hbackup : e.isBackup = true := by grind [RemoteEntry.isBackup]
      cases htime : e.modTime with
      | none => exact absurd hname (h.known e he hfile htime hpath)
      | some t =>
        have hle := hnewest e he hbackup hown
        rw [RemoteEntry.time, htime] at hle
        exact ⟨hbackup, t, htime, hle.trans hcold⟩
    · exact h.distinct e he hfile b.name hsame hpath hname

/-- An old backup and a new one, whose names differ by a blank. -/
def blankAndPlain : List RemoteEntry := [⟨ascii "a b.tar.gz", 1, some 1, false, by decide⟩,
  ⟨ascii "ab.tar.gz", 1, some 9, false, by decide⟩]

/-- The new backup is deleted for the old one. -/
theorem new_backup_deleted :
    (deleteOlderThan (fun _ => true) 5 (listJSON blankAndPlain) (blankAndPlain, 0)).1 =
      [⟨ascii "a b.tar.gz", 1, some 1, false, by decide⟩] := by
  decide +kernel

end HeyServer.Gdrive
