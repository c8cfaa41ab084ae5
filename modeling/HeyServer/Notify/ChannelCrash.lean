import HeyServer.Notify.ChannelHealth

/-!
# Crashes inside a channel operation

A crash inside `Create` or `Update` leaves a store that the next start-up opens. `Delete`
moves the file away before it commits: a crash in between leaves a row without a file, and
start-up fails.
-/

namespace HeyServer.Notify
open Lib List Option Function RowTable Prog ChannelStore

variable {isObject : Bytes → Bool}

/-! ## Start-up -/

/-- Every row has a file that can be read. -/
def Recoverable (isObject : Bytes → Bool) (s : ChannelStore) : Prop :=
  ∀ id row, s.db.rows.get? id = some row → ∃ config, s.files id = some config ∧
    validConfig isObject config = true

/-- A channel with the configuration in its file, as start-up leaves it. -/
def ChannelStore.restored (s : ChannelStore) (id : Nat) : Option Channel :=
  match s.db.rows.get? id, s.files id with
  | some row, some config => some ⟨id, { row with config := reference id }, config⟩
  | _, _ => none

/-- `readChannelConfig` of a reference, running alone. -/
theorem run_readChannelConfig (s : ChannelStore) (id : Nat) (next : Bytes → ChannelProg) :
    (readChannelConfig isObject id (reference id) next).run channelSemantics s =
      match s.files id with
      | none => (s, .error .secretStoreUnavailable)
      | some config => if validConfig isObject config then (next config).run channelSemantics s
        else (s, .error .secretStoreUnavailable) := by
  have hread : channelSemantics.exec s (.readFile id) = (s, s.files id) := rfl
  unfold readChannelConfig
  rw [if_pos rfl, run_call, hread]
  cases s.files id with
  | none => rfl
  | some config =>
    dsimp only
    split_ifs <;> rfl

variable {s : ChannelStore}

/-- The publication of a reference that is in the row, running alone. -/
theorem run_promoteReference {id : Nat} {row : ChannelRow}
    (hrow : s.db.rows.get? id = some row) (next : ChannelProg) :
    (promoteReference id row.config next).run channelSemantics s =
      next.run channelSemantics (s.exec (.promote id row.config)).1 := by
  have hpromoted : ((s.db.rows.get? id).any fun r => decide (r.config = row.config)) = true := by
    simp [hrow]
  show run channelSemantics
    (if ((s.db.rows.get? id).any fun r => decide (r.config = row.config)) = true then _ else _) _ = _
  rw [if_pos hpromoted]
  rfl

/-- The rows start-up has still to look at are those of the store, each with its reference. -/
structure Ahead (s : ChannelStore) (rows : List (Nat × ChannelRow)) : Prop where
  nodup : (rows.map Prod.fst).Nodup
  stored : ∀ row ∈ rows, s.db.rows.get? row.1 = some row.2
  named : ∀ row ∈ rows, row.2.config = reference row.1 ∨ row.2.config = pendingReference row.1

/-- The store after the references of some rows were published. -/
structure Promoted (s : ChannelStore) (ids : List Nat) (s' : ChannelStore) : Prop where
  files : s'.files = s.files
  row : ∀ id, s'.db.rows.get? id =
    if id ∈ ids then (s.db.rows.get? id).map fun row => { row with config := reference id }
    else s.db.rows.get? id

theorem not_isPrefixOf_pending (id : Nat) :
    (ascii "pending:").isPrefixOf (reference id) = false := by
  have hpending : ascii "pending:" = 0x70 :: ascii "ending:" := by decide
  have hfile : ascii "file:" = 0x66 :: ascii "ile:" := by decide
  rw [reference, hpending, hfile, cons_append, isPrefixOf_cons_cons]
  rfl

variable {row : Nat × ChannelRow}

section
variable (isObject : Bytes → Bool)

/-- Start-up at a row whose reference is named. -/
theorem run_migrateConfigs_cons
    (rest : List (Nat × ChannelRow)) (hstored : s.db.rows.get? row.1 = some row.2)
    (hnamed : row.2.config = reference row.1 ∨ row.2.config = pendingReference row.1) :
    ∃ s', Promoted s [row.1] s' ∧ (migrateConfigs isObject (row :: rest)).run channelSemantics s =
      match s.files row.1 with
      | none => (s, .error .secretStoreUnavailable)
      | some config =>
        if validConfig isObject config then (migrateConfigs isObject rest).run channelSemantics s'
        else (s, .error .secretStoreUnavailable) := by
  obtain ⟨id, row⟩ := row
  rw [migrateConfigs]
  rcases hnamed with hreference | hpending
  · refine ⟨s, ⟨rfl, fun key => ?_⟩, ?_⟩
    · by_cases hkey : key = id
      · subst hkey
        rw [if_pos (by simp), hstored, map_some, ← hreference]
      · rw [if_neg (by simpa using hkey)]
    · rw [hreference, not_isPrefixOf_pending, if_neg Bool.false_ne_true, isPrefixOf_reference,
        if_pos rfl]
      exact run_readChannelConfig s id _
  · refine ⟨(s.exec (.promote id row.config)).1, ⟨rfl, fun key => ?_⟩, ?_⟩
    · show (s.db.rows.update _ _).get? key = _
      rw [get?_update]
      by_cases hkey : key = id
      · subst hkey
        rw [if_pos (by simp), hstored]
        simp
      · rw [if_neg (by simpa using hkey)]
        simp [hkey]
    · rw [show (ascii "pending:").isPrefixOf row.config = true from
        hpending ▸ isPrefixOf_pendingReference id, if_pos rfl, if_pos hpending,
        run_readChannelConfig, run_promoteReference hstored]

/-- What is ahead stays so when the row before it is published. -/
theorem Ahead.tail {rest : List (Nat × ChannelRow)} {s s' : ChannelStore}
    (h : Ahead s (row :: rest)) (hstep : Promoted s [row.1] s') : Ahead s' rest where
  nodup := (nodup_cons.mp h.nodup).2
  stored r hr := by
    have hother : r.1 ≠ row.1 := by
      intro heq
      exact (nodup_cons.mp h.nodup).1 (heq ▸ mem_map_of_mem hr)
    rw [hstep.row, if_neg (by simpa using hother)]
    exact h.stored r (mem_cons_of_mem _ hr)
  named r hr := h.named r (mem_cons_of_mem _ hr)

/-- Start-up goes through exactly when the file of every row can be read, and publishes
every reference. -/
theorem run_migrateConfigs {rows : List (Nat × ChannelRow)} (h : Ahead s rows) :
    (((migrateConfigs isObject rows).run channelSemantics s).2 = .ok () ↔
      ∀ row ∈ rows, ∃ config, s.files row.1 = some config ∧ validConfig isObject config = true) ∧
    (((migrateConfigs isObject rows).run channelSemantics s).2 = .ok () →
      Promoted s (rows.map Prod.fst) ((migrateConfigs isObject rows).run channelSemantics s).1) := by
  induction rows generalizing s with
  | nil =>
    refine ⟨iff_of_true rfl (by simp), fun _ => ⟨rfl, fun id => ?_⟩⟩
    rw [map_nil, if_neg not_mem_nil]
    rfl
  | cons row rest ih =>
    obtain ⟨s', hstep, hrun⟩ := run_migrateConfigs_cons isObject rest
      (h.stored row mem_cons_self) (h.named row mem_cons_self)
    obtain ⟨hok, hpromoted⟩ := ih (h.tail hstep)
    rw [hstep.files] at hok
    rw [hrun]
    cases hfile : s.files row.1 with
    | none =>
      refine ⟨iff_of_false (by simp) fun hall => ?_, fun herror => by cases herror⟩
      obtain ⟨config, hconfig, -⟩ := hall row mem_cons_self
      rw [hfile] at hconfig
      cases hconfig
    | some config =>
      dsimp only
      split_ifs with hvalid
      · constructor
        · rw [hok, forall_mem_cons]
          exact (and_iff_right ⟨config, hfile, hvalid⟩).symm
        · intro hdone
          obtain ⟨hfiles, hrows⟩ := hpromoted hdone
          refine ⟨hfiles.trans hstep.files, fun id => ?_⟩
          rw [hrows, hstep.row, map_cons]
          by_cases hid : id = row.1
          · have hnot : row.1 ∉ rest.map Prod.fst := (nodup_cons.mp h.nodup).1
            rw [hid, if_neg hnot, if_pos mem_cons_self, if_pos mem_cons_self]
          · have hnot : id ∉ [row.1] := by simpa using hid
            rw [if_neg hnot]
            simp only [mem_cons, hid, false_or]
      · refine ⟨iff_of_false (by simp) fun hall => ?_, fun herror => by cases herror⟩
        obtain ⟨config', hconfig, hvalid'⟩ := hall row mem_cons_self
        cases hfile.symm.trans hconfig
        exact hvalid hvalid'

/-- The next start-up succeeds exactly when the file of every row can be read. -/
theorem run_newRepository (hnamed : ∀ id, (s.view id).Named id) :
    (((newRepository isObject).run channelSemantics s).2 = .ok () ↔ Recoverable isObject s) ∧
    (((newRepository isObject).run channelSemantics s).2 = .ok () →
      ∀ id, (((newRepository isObject).run channelSemantics s).1.db.rows.get? id).isSome =
          (s.db.rows.get? id).isSome ∧
        ((newRepository isObject).run channelSemantics s).1.channel? isObject id =
          s.restored id) := by
  have hahead : Ahead s s.db.rows.rows :=
    ⟨pairwise_map.mpr (s.db.rows.sorted.imp Nat.ne_of_lt),
      fun row hrow => mem_rows.mp hrow,
      fun row hrow => hnamed row.1 row.2 (mem_rows.mp hrow)⟩
  obtain ⟨hok, hpromoted⟩ := run_migrateConfigs isObject hahead
  have hiff : ((newRepository isObject).run channelSemantics s).2 = .ok () ↔
      Recoverable isObject s := by
    refine hok.trans ⟨fun h id row hrow => h (id, row) (mem_rows.mpr hrow), ?_⟩
    exact fun h row hrow => h row.1 row.2 (mem_rows.mp hrow)
  refine ⟨hiff, fun hdone id => ?_⟩
  have hrecoverable := hiff.mp hdone
  obtain ⟨hfiles, hrows⟩ := hpromoted hdone
  have hrow : ((newRepository isObject).run channelSemantics s).1.db.rows.get? id =
      (s.db.rows.get? id).map fun row => { row with config := reference id } := by
    refine (hrows id).trans ?_
    split_ifs with hid
    · rfl
    · cases hget : s.db.rows.get? id with
      | none => rfl
      | some row => exact absurd (mem_map.mpr ⟨_, mem_rows.mpr hget, rfl⟩) hid
  have hfile : ((newRepository isObject).run channelSemantics s).1.files id = s.files id :=
    congrFun hfiles id
  refine ⟨by rw [hrow, isSome_map], ?_⟩
  unfold channel? restored
  rw [hrow, hfile]
  cases hget : s.db.rows.get? id with
  | none => rfl
  | some row =>
    obtain ⟨config, hconfig, hvalid⟩ := hrecoverable id row hget
    rw [hconfig]
    simp [hvalid]

end

/-! ## Operations and what survives them -/

inductive ChannelEdit
  | create (name type config : Bytes) (enabled writeFails : Bool)
  | update (u : ChannelUpdate)
  | delete (id : Nat)

namespace ChannelEdit

def program (isObject : Bytes → Bool) : ChannelEdit → ChannelProg
  | create name type config enabled writeFails =>
    Notify.create isObject name type config enabled writeFails
  | update u => updateWithConfigWriter isObject u
  | delete id => deleteChannel id

/-- The channel an operation is about; a new one gets the next key. -/
def target (s : ChannelStore) : ChannelEdit → Nat
  | create .. => s.db.rows.seq + 1
  | update u => u.id
  | delete id => id

/-- The configuration an operation writes. -/
def writes : ChannelEdit → Option Bytes
  | create _ _ config _ _ => some config
  | update u => some u.config
  | delete _ => none

/-- The crash comes after the file of a channel was moved away and before its row is gone. -/
def Staged (s : ChannelStore) (k : Nat) : ChannelEdit → Prop
  | delete id => (s.db.rows.get? id).map ChannelRow.config = some (reference id) ∧ (k = 3 ∨ k = 4)
  | _ => False

end ChannelEdit

/-- A store in use: every row has a reference and a file that can be read. The reference is
pending where an update could not restore the file. -/
structure Served (isObject : Bytes → Bool) (s : ChannelStore) : Prop where
  idle : s.tx = none
  named : ∀ id, (s.view id).Named id
  readable : Recoverable isObject s

/-- What a crash inside an operation has to leave: the next start-up succeeds, the channel of
the operation has the configuration from before or the one that was being written, and the
others are unchanged. -/
def SurvivesCrash (isObject : Bytes → Bool) (s : ChannelStore) (e : ChannelEdit)
    (t : ChannelStore) : Prop :=
  let reopened := (newRepository isObject).run channelSemantics t.crashed
  reopened.2 = .ok () ∧
    ((reopened.1.db.rows.get? (e.target s)).isSome →
      ∃ config, (reopened.1.channel? isObject (e.target s)).map Channel.config = some config ∧
        ((s.restored (e.target s)).map Channel.config = some config ∨ e.writes = some config)) ∧
    ∀ id, id ≠ e.target s → reopened.1.channel? isObject id = s.restored id

/-- A store in which only the channel of the operation was touched, and its file has one of
the two configurations. -/
structure Intact (isObject : Bytes → Bool) (s : ChannelStore) (e : ChannelEdit)
    (t : ChannelStore) : Prop where
  named : (t.view (e.target s)).Named (e.target s)
  file : ∀ row, t.db.rows.get? (e.target s) = some row →
    ∃ config, t.files (e.target s) = some config ∧ validConfig isObject config = true ∧
      ((s.db.rows.get? (e.target s)).isSome ∧ s.files (e.target s) = some config ∨
        e.writes = some config)
  others : ∀ id, id ≠ e.target s →
    t.db.rows.get? id = s.db.rows.get? id ∧
      ((s.db.rows.get? id).isSome → t.files id = s.files id)

theorem Intact.survives {s t : ChannelStore} {e : ChannelEdit} (hs : Served isObject s)
    (h : Intact isObject s e t.crashed) : SurvivesCrash isObject s e t := by
  have hnamed : ∀ id, (t.crashed.view id).Named id := by
    intro id
    by_cases hid : id = e.target s
    · exact hid ▸ h.named
    · intro row hrow
      rw [view, (h.others id hid).1] at hrow
      exact hs.named id row hrow
  have hrecoverable : Recoverable isObject t.crashed := by
    intro id row hrow
    by_cases hid : id = e.target s
    · subst hid
      obtain ⟨config, hfile, hvalid, -⟩ := h.file row hrow
      exact ⟨config, hfile, hvalid⟩
    · rw [(h.others id hid).1] at hrow
      rw [(h.others id hid).2 (by rw [hrow]; rfl)]
      exact hs.readable id row hrow
  obtain ⟨hiff, hresult⟩ := run_newRepository isObject hnamed
  have hdone := hiff.mpr hrecoverable
  refine ⟨hdone, fun hsurvives => ?_, fun id hid => ?_⟩
  · obtain ⟨hsome, hchannel⟩ := hresult hdone (e.target s)
    rw [hsome] at hsurvives
    obtain ⟨row, hrow⟩ := isSome_iff_exists.mp hsurvives
    obtain ⟨config, hfile, -, horigin⟩ := h.file row hrow
    refine ⟨config, ?_, ?_⟩
    · rw [hchannel, restored, hrow, hfile]
      rfl
    · rcases horigin with ⟨hbefore, hold⟩ | hnew
      · obtain ⟨row', hrow'⟩ := isSome_iff_exists.mp hbefore
        left
        rw [restored, hrow', hold]
        rfl
      · exact .inr hnew
  · rw [(hresult hdone id).2]
    unfold restored
    rw [(h.others id hid).1]
    cases hrow : s.db.rows.get? id with
    | none => rfl
    | some row => rw [(h.others id hid).2 (by rw [hrow]; rfl)]

/-- Nothing has happened yet. -/
theorem Served.intact {s t : ChannelStore} (hs : Served isObject s) (e : ChannelEdit)
    (hdb : t.db.rows = s.db.rows)
    (hfiles : ∀ id, (s.db.rows.get? id).isSome → t.files id = s.files id) :
      Intact isObject s e t := by
  refine ⟨?_, ?_, fun id _ => ⟨by rw [hdb], hfiles id⟩⟩
  · intro row hrow
    rw [view, hdb] at hrow
    exact hs.named _ row hrow
  · intro row hrow
    rw [hdb] at hrow
    have hsome : (s.db.rows.get? (e.target s)).isSome := by rw [hrow]; rfl
    obtain ⟨config, hfile, hvalid⟩ := hs.readable _ row hrow
    exact ⟨config, (hfiles _ hsome).trans hfile, hvalid, .inl ⟨hsome, hfile⟩⟩

/-! ### Create -/

section Create
variable {s : ChannelStore} (hs : Served isObject s)

/-- The key of a new channel has no row yet. -/
theorem get?_next_key (t : RowTable ChannelRow) : t.get? (t.seq + 1) = none := by
  cases hget : t.get? (t.seq + 1) with
  | none => rfl
  | some row => exact absurd (get?_le_seq hget) (Nat.not_succ_le_self _)

include hs in
/-- A crash before the commit leaves at most a file without a row. -/
theorem intact_uncommitted {t : ChannelStore} (e : ChannelEdit) (hdb : t.db = s.db)
    (hfiles : ∀ id, id ≠ s.db.rows.seq + 1 → t.files id = s.files id) :
    Intact isObject s e t.crashed := by
  refine hs.intact e (congrArg ChannelDb.rows hdb) fun id hid => hfiles id ?_
  rintro rfl
  rw [get?_next_key] at hid
  cases hid

/-- The rows with a new channel. -/
def withChannel (s : ChannelStore) (name type : Bytes) (enabled : Bool) : RowTable ChannelRow :=
  (s.db.rows.insert ⟨name, type, ascii "\x7b\x7d", enabled, 1⟩).update
    (fun key _ => key = s.db.rows.seq + 1)
    fun row => { row with config := reference (s.db.rows.seq + 1) }

theorem get?_withChannel (name type : Bytes) (enabled : Bool) (id : Nat) :
    (withChannel s name type enabled).get? id = if id = s.db.rows.seq + 1 then
        some ⟨name, type, reference (s.db.rows.seq + 1), enabled, 1⟩ else s.db.rows.get? id := by
  rw [withChannel, get?_update, get?_insert]
  by_cases hid : id = s.db.rows.seq + 1
  · simp [hid]
  · simp [hid]

variable {name type config : Bytes}

/-- After the commit the new channel has its row and its file. -/
theorem intact_committed {enabled : Bool}
    (hvalid : validConfig isObject config = true) {t : ChannelStore}
    (hrows : t.db.rows = withChannel s name type enabled)
    (hfiles : t.files = Function.update s.files (s.db.rows.seq + 1) (some config)) :
    Intact isObject s (.create name type config enabled false) t.crashed := by
  refine ⟨fun row hrow => ?_, fun row hrow => ?_, fun id hid => ⟨?_, fun _ => ?_⟩⟩
  · have hget : t.db.rows.get? (s.db.rows.seq + 1) = some row := hrow
    rw [hrows, get?_withChannel, if_pos rfl] at hget
    cases hget
    exact .inl rfl
  · refine ⟨config, ?_, hvalid, .inr rfl⟩
    show t.files (s.db.rows.seq + 1) = some config
    rw [hfiles, update_self]
  · have hother : id ≠ s.db.rows.seq + 1 := hid
    show t.db.rows.get? id = _
    rw [hrows, get?_withChannel, if_neg hother]
  · have hother : id ≠ s.db.rows.seq + 1 := hid
    show t.files id = s.files id
    rw [hfiles, update_of_ne hother]

include hs in
theorem create_survives {enabled writeFails : Bool} {t : ChannelStore}
    (ht : t ∈ (create isObject name type config enabled writeFails).crashStates channelSemantics s) :
    SurvivesCrash isObject s (.create name type config enabled writeFails) t := by
  apply Intact.survives hs
  unfold create at ht
  split_ifs at ht with hvalid
  swap
  · cases mem_singleton.mp ht
    exact intact_uncommitted hs _ rfl fun _ _ => rfl
  have hkept : ∀ id, id ≠ s.db.rows.seq + 1 →
      update s.files (s.db.rows.seq + 1) (some config) id = s.files id :=
    fun id hid => update_of_ne hid _ _
  -- begin, insert, write, then the reference and the commit
  rcases ht with _ | ⟨_, _ | ⟨_, _ | ⟨_, ht⟩⟩⟩
  iterate 3 exact intact_uncommitted hs _ rfl fun _ _ => rfl
  cases writeFails with
  | true =>
    rcases ht with _ | ⟨_, _ | ⟨_, ⟨⟩⟩⟩
    all_goals exact intact_uncommitted hs _ rfl fun _ _ => rfl
  | false =>
    rcases ht with _ | ⟨_, _ | ⟨_, _ | ⟨_, ⟨⟩⟩⟩⟩
    iterate 2 exact intact_uncommitted hs _ rfl hkept
    exact intact_committed hvalid rfl rfl

end Create

/-! ### Update -/

section Update
variable {s : ChannelStore} {u : ChannelUpdate}

/-- The configuration an update has read. -/
abbrev OldConfig := Option Bytes

namespace OldConfig

/-- Before the old configuration is read nothing is written, and then only the old or the
new one. -/
def Permits (isObject : Bytes → Bool) (u : ChannelUpdate) (g : OldConfig) : ChannelOp → Prop
  | .readRow _ => True
  | .readFile id => id = u.id ∧ g = none
  | .fence id _ _ _ => id = u.id
  | .replaceFile .change id content _ =>
    id = u.id ∧ content = u.config ∧ validConfig isObject content = true ∧ g.isSome
  | .replaceFile .restore id content _ => id = u.id ∧ g = some content
  | .rollback id previous _ => id = u.id ∧ previous.config = reference id
  | .publish id _ => id = u.id
  | _ => False

def next (g : OldConfig) : (op : ChannelOp) → op.Reply → OldConfig
  | .readFile _, (reply : Option Bytes) => reply
  | _, _ => g

/-- A store an update has touched in no other way. -/
structure Holds (isObject : Bytes → Bool) (s : ChannelStore) (u : ChannelUpdate) (g : OldConfig)
    (t : ChannelStore) : Prop where
  idle : t.tx = none
  row : ∀ row, (t.view u.id).row = some row → (s.db.rows.get? u.id).isSome ∧
    (row.config = reference u.id ∨ row.config = pendingReference u.id)
  file : (t.view u.id).file = s.files u.id ∨
    g.isSome ∧ (t.view u.id).file = some u.config ∧ validConfig isObject u.config = true
  old : ∀ config, g = some config → s.files u.id = some config
  others : ∀ id, id ≠ u.id → t.view id = s.view id

variable {g : OldConfig} {t t' : ChannelStore}

/-- Before the update nothing is known. -/
theorem holds_none (hs : Served isObject s) : Holds isObject s u none s where
  idle := hs.idle
  row row hrow := ⟨isSome_iff_exists.mpr ⟨row, hrow⟩, hs.named u.id row hrow⟩
  file := .inl rfl
  old _ h := by cases h
  others _ _ := rfl

section
variable (h : Holds isObject s u g t)
include h

variable {f : ChannelRow → ChannelRow}

/-- A step that changes only the row of the channel, and leaves it with a reference. -/
theorem Holds.changeRow (hf : ∀ row, (f row).config = row.config ∨ (f row).config = reference u.id ∨
      (f row).config = pendingReference u.id) (htx : t'.tx = t.tx)
    (hrow : (t'.view u.id).row = (t.view u.id).row.map f)
    (hfile : (t'.view u.id).file = (t.view u.id).file)
    (hothers : ∀ id, id ≠ u.id → t'.view id = t.view id) : Holds isObject s u g t' := by
  refine ⟨htx.trans h.idle, fun row hnew => ?_, hfile ▸ h.file, h.old,
    fun id hid => (hothers id hid).trans (h.others id hid)⟩
  rw [hrow] at hnew
  obtain ⟨before, hbefore, rfl⟩ := map_eq_some_iff.mp hnew
  obtain ⟨hsome, hnamed⟩ := h.row before hbefore
  refine ⟨hsome, ?_⟩
  rcases hf before with hsame | hnamed'
  · rwa [hsame]
  · exact hnamed'

/-- An update of the row that leaves it with a reference. -/
theorem Holds.updateRow (p : ChannelRow → Bool)
    (hf : ∀ row, (f row).config = reference u.id ∨ (f row).config = pendingReference u.id) :
    Holds isObject s u g (t.updateRow u.id p f).1 := by
  have hself := view_updateRow (s := t) u.id p f u.id
  rw [if_pos rfl] at hself
  refine h.changeRow (f := fun row => if p row then f row else row) ?_ rfl
    (congrArg View.row hself) ((congrArg View.file hself).trans rfl) fun id hid => ?_
  · intro row
    split_ifs
    · exact .inr (hf row)
    · exact .inl rfl
  · rw [view_updateRow, if_neg hid]

/-- The fence, whether it goes up or not. -/
theorem Holds.fence (name : Bytes) (enabled : Bool) (previous : ChannelRow) :
    Holds isObject s u g (t.exec (.fence u.id name enabled previous)).1 := by
  have htx : (t.exec (.fence u.id name enabled previous)).1.tx = t.tx := by
    unfold exec
    dsimp only
    split_ifs <;> rfl
  rcases exec_fence t u.id name enabled previous with ⟨row, hrow, -, -, -, hview⟩ | ⟨-, hview⟩
  · have hself := hview u.id
    rw [if_pos rfl] at hself
    refine h.changeRow (f := fun row => { row with
      name, enabled, config := pendingReference u.id, configRevision := row.configRevision + 1 })
      (fun _ => .inr (.inr rfl)) htx ?_ ((congrArg View.file hself).trans rfl) fun id hid => ?_
    · rw [hself]
      show _ = (t.db.rows.get? u.id).map _
      rw [hrow]
      rfl
    · rw [hview, if_neg hid]
  · refine h.changeRow (f := id) (fun _ => .inl rfl) htx ?_ (congrArg View.file (hview u.id))
      fun id _ => hview id
    rw [hview, Option.map_id_fun]
    rfl

/-- A write of the old or the new configuration. -/
theorem Holds.replaceFile (kind : WriteKind) {content : Bytes}
    (hcontent : s.files u.id = some content ∨
      g.isSome ∧ content = u.config ∧ validConfig isObject u.config = true) :
    Holds isObject s u g (t.replaceFile kind u.id content) := by
  have hself := view_replaceFile (s := t) kind u.id content u.id
  rw [if_pos rfl] at hself
  refine ⟨h.idle, fun row hrow => h.row row ?_, ?_, h.old, fun id hid => ?_⟩
  · rw [hself] at hrow
    exact hrow
  · rw [hself]
    rcases hcontent with hold | ⟨hread, rfl, hvalid⟩
    · exact .inl hold.symm
    · exact .inr ⟨hread, rfl, hvalid⟩
  · rw [view_replaceFile, if_neg hid]
    exact h.others id hid

theorem Holds.exec {op : ChannelOp} (hop : g.Permits isObject u op) :
    Holds isObject s u (g.next op (t.exec op).2) (t.exec op).1 := by
  cases op with
  | readRow id => exact h
  | readFile id =>
    obtain ⟨rfl, rfl⟩ := hop
    have hsame : t.files u.id = s.files u.id := by
      rcases h.file with hsame | ⟨hsome, -⟩
      · exact hsame
      · cases hsome
    exact ⟨h.idle, h.row, .inl hsame, fun config hconfig => hsame.symm.trans hconfig, h.others⟩
  | fence id name enabled previous =>
    cases hop
    exact h.fence name enabled previous
  | rollback id previous fencedRevision =>
    obtain ⟨rfl, hreference⟩ := hop
    exact h.updateRow _ fun _ => .inl hreference
  | publish id configRevision =>
    cases hop
    exact h.updateRow _ fun _ => .inl rfl
  | replaceFile kind id content fails =>
    cases kind with
    | create | legacy => exact hop.elim
    | change =>
      cases fails with
      | true => exact h
      | false =>
        obtain ⟨rfl, rfl, hvalid, hread⟩ := hop
        exact h.replaceFile .change (.inr ⟨hread, rfl, hvalid⟩)
    | restore =>
      cases fails with
      | true => exact h
      | false =>
        obtain ⟨rfl, hold⟩ := hop
        exact h.replaceFile .restore (.inl (h.old content hold))
  | _ => exact hop.elim

end

/-- An update asks for nothing else. -/
theorem obeys_update : (updateWithConfigWriter isObject u).Obeys
    (Permits isObject u) next none := by
  refine Prog.Obeys.ite (fun hvalid => ⟨trivial, ?_⟩) fun _ => trivial
  rintro (_ | previous)
  · trivial
  refine obeys_readChannelConfig ⟨rfl, rfl⟩ fun hreference oldConfig => ⟨rfl, ?_⟩
  rintro (_ | _)
  · trivial
  refine ⟨⟨rfl, rfl, hvalid, rfl⟩, ?_⟩
  rintro (_ | _)
  · -- the write failed: the old file, then the old row
    refine ⟨⟨rfl, rfl⟩, ?_⟩
    rintro (_ | _)
    · trivial
    · refine ⟨⟨rfl, hreference⟩, ?_⟩
      rintro (_ | _) <;> trivial
  · refine ⟨rfl, ?_⟩
    rintro (_ | _) <;> trivial

theorem Holds.intact (hs : Served isObject s) (h : Holds isObject s u g t) :
    Intact isObject s (.update u) t.crashed := by
  refine ⟨fun row hrow => (h.row row hrow).2, fun row hrow => ?_, fun id hid => ?_⟩
  · have hsome := (h.row row hrow).1
    rcases h.file with hsame | ⟨-, hnew, hvalid⟩
    · obtain ⟨before, hbefore⟩ := isSome_iff_exists.mp hsome
      obtain ⟨config, hconfig, hvalid⟩ := hs.readable u.id before hbefore
      exact ⟨config, hsame.trans hconfig, hvalid, .inl ⟨hsome, hconfig⟩⟩
    · exact ⟨u.config, hnew, hvalid, .inr rfl⟩
  · have hview := h.others id hid
    exact ⟨congrArg View.row hview, fun _ => congrArg View.file hview⟩

end OldConfig

end Update

/-! ### Delete -/

section Delete
variable {s t : ChannelStore} {id : Nat} {row : ChannelRow}

/-- A row without a file stops start-up. -/
theorem not_survives_of_lost (hs : Served isObject s) (e : ChannelEdit) (hdb : t.db = s.db)
    (hrow : s.db.rows.get? id = some row) (hlost : t.files id = none) :
    ¬ SurvivesCrash isObject s e t := by
  rintro ⟨hdone, -⟩
  have hnamed : ∀ key, (t.crashed.view key).Named key := by
    intro key row hrow
    rw [view, crashed, hdb] at hrow
    exact hs.named key row hrow
  have hrecoverable := (run_newRepository isObject hnamed).1.mp hdone
  obtain ⟨config, hfile, -⟩ := hrecoverable id row (by rw [crashed, hdb, hrow])
  have hfile : t.files id = some config := hfile
  rw [hlost] at hfile
  cases hfile

/-- The store with its transaction open. -/
def ChannelStore.begun (s : ChannelStore) : ChannelStore := { s with tx := some s.db }

theorem crashStates_deleteChannel (s : ChannelStore) (id : Nat) :
    (deleteChannel id).crashStates channelSemantics s =
      s :: s.begun :: (deleteFound id (s.db.rows.get? id)).crashStates channelSemantics s.begun :=
  rfl

/-- A delete that gives up has changed nothing. -/
theorem delete_kept (hnot : (s.db.rows.get? id).map ChannelRow.config ≠ some (reference id))
    (ht : t ∈ (deleteChannel id).crashStates channelSemantics s) :
      t.db = s.db ∧ t.files = s.files := by
  have habort : ∀ result, ∀ t ∈ (abortWith result).crashStates channelSemantics s.begun,
      t.db = s.db ∧ t.files = s.files := by
    intro result t ht
    rcases mem_cons.mp ht with rfl | ht
    · exact ⟨rfl, rfl⟩
    · cases mem_singleton.mp ht
      exact ⟨rfl, rfl⟩
  rw [crashStates_deleteChannel, mem_cons, mem_cons] at ht
  rcases ht with rfl | rfl | ht
  · exact ⟨rfl, rfl⟩
  · exact ⟨rfl, rfl⟩
  cases hrow : s.db.rows.get? id with
  | none =>
    rw [hrow] at ht
    exact habort _ t ht
  | some row =>
    rw [hrow] at ht hnot
    rw [deleteFound, if_neg fun hreference => hnot (congrArg some hreference)] at ht
    exact habort _ t ht

/-- The store after the file of a channel was moved away. -/
def ChannelStore.moved (s : ChannelStore) (id : Nat) (content : Bytes) : ChannelStore :=
  s.begun.entomb id content

/-- The store after a delete has committed. -/
def ChannelStore.deleted (s : ChannelStore) (id : Nat) (content : Bytes) : ChannelStore :=
  (((s.moved id content).exec (.deleteRow id)).1.exec .commit).1

/-- The stores a delete goes through. -/
theorem crashStates_delete {content : Bytes} (hrow : s.db.rows.get? id = some row)
    (hreference : row.config = reference id) (hfile : s.files id = some content) :
    (deleteChannel id).crashStates channelSemantics s =
      [s, s.begun, s.begun, s.moved id content, ((s.moved id content).exec (.deleteRow id)).1,
        s.deleted id content, ((s.deleted id content).exec (.removeTombstone id)).1] := by
  have hentomb : channelSemantics.exec s.begun (.entomb id) = (s.moved id content, true) := by
    show (match s.files id with
      | none => (s.begun, false)
      | some content => (s.begun.entomb id content, true)) = _
    rw [hfile]
    rfl
  rw [crashStates_deleteChannel, hrow, deleteFound, if_pos hreference]
  refine congrArg (fun states => s :: s.begun :: states) ((crashStates_call _ _ _ _).trans ?_)
  rw [hentomb]
  rfl

/-- After the commit the channel is gone and the others are as they were. -/
theorem intact_deleted (hrows : t.db.rows = s.db.rows.delete fun key _ => key = id)
    (hfiles : t.files = Function.update s.files id none) :
      Intact isObject s (.delete id) t.crashed := by
  have hgone : t.crashed.db.rows.get? id = none := by
    show t.db.rows.get? id = none
    rw [hrows, get?_delete]
    simp
  refine ⟨fun row hrow => ?_, fun row hrow => ?_, fun key hkey => ⟨?_, fun _ => ?_⟩⟩
  · cases hgone.symm.trans hrow
  · cases hgone.symm.trans hrow
  · show t.db.rows.get? key = _
    rw [hrows, get?_delete]
    have hkept : decide (key = id) = false := decide_eq_false hkey
    cases s.db.rows.get? key <;> simp [hkept]
  · have hother : key ≠ id := hkey
    show t.files key = s.files key
    rw [hfiles, update_of_ne hother]

theorem delete_survives_iff (hs : Served isObject s) {k : Nat}
    (hk : ((deleteChannel id).crashStates channelSemantics s)[k]? = some t) :
    SurvivesCrash isObject s (.delete id) t ↔ ¬ (ChannelEdit.delete id).Staged s k := by
  have hkept : ∀ t : ChannelStore, t.db = s.db → t.files = s.files →
      SurvivesCrash isObject s (.delete id) t := fun t hdb hfiles =>
    (hs.intact (t := t.crashed) _ (congrArg ChannelDb.rows hdb)
      fun key _ => congrFun hfiles key).survives hs
  by_cases hnamed : (s.db.rows.get? id).map ChannelRow.config = some (reference id)
  swap
  · obtain ⟨hdb, hfiles⟩ := delete_kept hnamed (mem_of_getElem? hk)
    exact iff_of_true (hkept t hdb hfiles) fun hstaged => hnamed hstaged.1
  obtain ⟨row, hrow, hreference⟩ := map_eq_some_iff.mp hnamed
  obtain ⟨content, hfile, -⟩ := hs.readable id row hrow
  have hlost : ∀ t : ChannelStore, t.db = s.db → t.files = update s.files id none →
      ¬ SurvivesCrash isObject s (.delete id) t := fun t hdb hfiles =>
    not_survives_of_lost hs _ hdb hrow (by rw [hfiles, update_self])
  have hearly : ∀ k, k ≠ 3 → k ≠ 4 → ¬ (ChannelEdit.delete id).Staged s k :=
    fun k h3 h4 hstaged => hstaged.2.elim h3 h4
  rw [crashStates_delete hrow hreference hfile] at hk
  rcases k with _ | _ | _ | _ | _ | _ | _ | k
  · cases hk
    exact iff_of_true (hkept _ rfl rfl) (hearly 0 (by decide) (by decide))
  · cases hk
    exact iff_of_true (hkept _ rfl rfl) (hearly 1 (by decide) (by decide))
  · cases hk
    exact iff_of_true (hkept _ rfl rfl) (hearly 2 (by decide) (by decide))
  · cases hk
    exact iff_of_false (hlost _ rfl rfl) (not_not_intro ⟨hnamed, .inl rfl⟩)
  · cases hk
    exact iff_of_false (hlost _ rfl rfl) (not_not_intro ⟨hnamed, .inr rfl⟩)
  · cases hk
    exact iff_of_true ((intact_deleted rfl rfl).survives hs) (hearly 5 (by decide) (by decide))
  · cases hk
    exact iff_of_true ((intact_deleted rfl rfl).survives hs) (hearly 6 (by decide) (by decide))
  · cases hk

end Delete

/-! ## Every crash point -/

/-- A crash before step `k` of an operation on a store in use is survived, unless it comes
after a delete has moved the file away and before it has committed. -/
theorem crash_survived_iff {s t : ChannelStore} (hs : Served isObject s) (e : ChannelEdit) {k : Nat}
    (hk : ((e.program isObject).crashStates channelSemantics s)[k]? = some t) :
    SurvivesCrash isObject s e t ↔ ¬ e.Staged s k := by
  cases e with
  | create name type config enabled writeFails =>
    exact iff_of_true (create_survives hs (mem_of_getElem? hk)) id
  | update u =>
    obtain ⟨g, hg⟩ := (Prog.Obeys.alone (K := OldConfig.Holds isObject s u)
      (fun _ _ _ h hop => h.exec hop)
      OldConfig.obeys_update (OldConfig.holds_none hs)).1 t (mem_of_getElem? hk)
    exact iff_of_true ((hg.intact hs).survives hs) id
  | delete id => exact delete_survives_iff hs hk

theorem oneChannel_served : Served braced oneChannel where
  idle := rfl
  named id row hrow := .inl (oneChannel_fresh.referenced id row hrow)
  readable id row hrow := by
    have hid : id = 1 := by
      rw [oneChannel, get?_insert] at hrow
      by_contra hother
      exact absurd ((if_neg hother).symm.trans hrow) (by simp [get?_empty])
    subst hid
    exact ⟨oldConfig, rfl, by decide +kernel⟩

/-- The stores an update of the one channel goes through. -/
def newConfigStates : List ChannelStore :=
  (updateWithConfigWriter braced
    ⟨1, ascii "ops", newConfig, true, false, false⟩).crashStates channelSemantics oneChannel

/-- A crash between the new file and the publication of its reference. -/
theorem crash_survived_newConfig :
    ∃ t, newConfigStates[4]? = some t ∧ t.files 1 = some newConfig ∧
      SurvivesCrash braced oneChannel
        (.update ⟨1, ascii "ops", newConfig, true, false, false⟩) t := by
  have hfile : newConfigStates[4]?.map (fun t => t.files 1) = some (some newConfig) := by
    decide +kernel
  obtain ⟨t, ht, hnew⟩ := map_eq_some_iff.mp hfile
  exact ⟨t, ht, hnew, (crash_survived_iff oneChannel_served (.update _) ht).mpr id⟩

/-- Before a delete has committed, a crash leaves a row whose file is gone, and start-up
fails. -/
theorem crash_stops_startup :
    ∃ t, ((deleteChannel 1).crashStates channelSemantics oneChannel)[3]? = some t ∧
      ((newRepository braced).run channelSemantics t.crashed).2 =
        .error .secretStoreUnavailable ∧
      ¬ SurvivesCrash braced oneChannel (.delete 1) t := by
  have hfails : ((deleteChannel 1).crashStates channelSemantics oneChannel)[3]?.map
      (fun t => ((newRepository braced).run channelSemantics t.crashed).2) =
        some (.error .secretStoreUnavailable) := by
    decide +kernel
  obtain ⟨t, ht, herror⟩ := map_eq_some_iff.mp hfails
  refine ⟨t, ht, herror, fun hsurvives => ?_⟩
  cases herror.symm.trans hsurvives.1

end HeyServer.Notify
