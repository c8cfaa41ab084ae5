import HeyServer.Lib.Typestate
import HeyServer.Notify.Channels

/-!
# Health of a channel

A revision stands for one configuration as long as its row can still be read or come back:
a row is only given back its old revision when the file was not replaced. So a receipt
whose revision is the one in the row was left by a delivery that used the configuration now
in the file.
-/

namespace HeyServer.Notify
open Lib List Option RowTable ChannelStore Prog.Obeys

/-! ## What can be said about one channel -/

/-- The part of the store that belongs to one channel. -/
structure View where
  row : Option ChannelRow
  file : Option Bytes
  replaced : Bool

def ChannelStore.view (s : ChannelStore) (id : Nat) : View :=
  ⟨s.db.rows.get? id, s.files id, s.replaced id⟩

namespace View
variable (id : Nat) (v v' : View)

/-- Rows of an opened store refer to their file, some while it is replaced. -/
def Named : Prop := ∀ row, v.row = some row →
    row.config = reference id ∨ row.config = pendingReference id

variable (revision : Nat)

/-- The revision was readable at some time. -/
def Reached : Prop :=
  ∀ row, v.row = some row →
    revision < row.configRevision ∨ revision = row.configRevision ∧ row.config = reference id

/-- The revision is readable, or comes back if the update under way fails. -/
def Live : Prop :=
  ∃ row, v.row = some row ∧
    (row.configRevision = revision ∧ row.config = reference id ∨
      row.configRevision = revision + 1 ∧ row.config = pendingReference id ∧ v.replaced = false)

/-- The revision was readable, and as long as it lives it stands for the configuration. -/
def StandsFor (config : Bytes) : Prop :=
  v.Reached id revision ∧ (v.Live id revision → v.file = some config)

/-- An update from the revision is under way. -/
def Fenced (written : Bool) : Prop :=
  ∃ row, v.row = some row ∧ row.configRevision = revision + 1 ∧ row.config = pendingReference id ∧
    (written = false → v.replaced = false)

/-- A step that takes nothing away from what is known about revisions. -/
structure Evolves : Prop where
  named : v.Named id → v'.Named id
  reached : ∀ revision, v.Reached id revision → v'.Reached id revision
  live : ∀ revision, v.Reached id revision → v'.Live id revision →
    v.Live id revision ∧ v'.file = v.file

variable {id v v'}

theorem not_reference {row : ChannelRow} (hpending : row.config = pendingReference id) :
    row.config ≠ reference id :=
  fun hread => pendingReference_ne_reference id id (hpending.symm.trans hread)

theorem Evolves.refl : Evolves id v v :=
  ⟨fun h => h, fun _ h => h, fun _ _ h => ⟨h, rfl⟩⟩

variable {revision : Nat}

theorem StandsFor.evolves {config : Bytes} (h : v.StandsFor id revision config)
    (hstep : Evolves id v v') : v'.StandsFor id revision config := by
  refine ⟨hstep.reached _ h.1, fun hlive => ?_⟩
  obtain ⟨hbefore, hfile⟩ := hstep.live _ h.1 hlive
  exact hfile.trans (h.2 hbefore)

variable {row row' : ChannelRow}

/-- The fence takes a readable revision to the next. -/
theorem evolves_fence (hrow : v.row = some row)
    (hreference : row.config = reference id) (hrow' : v'.row = some row')
    (hrevision : row'.configRevision = row.configRevision + 1)
    (hpending : row'.config = pendingReference id) (hfile : v'.file = v.file) :
      Evolves id v v' := by
  refine ⟨fun _ r hr => ?_, fun revision h r hr => ?_, fun revision _ hlive => ⟨?_, hfile⟩⟩
  · cases hrow'.symm.trans hr
    exact .inr hpending
  · cases hrow'.symm.trans hr
    have hle := h row hrow
    omega
  · obtain ⟨r, hr, hlive⟩ := hlive
    cases hrow'.symm.trans hr
    rcases hlive with ⟨-, hread⟩ | ⟨hnext, -⟩
    · exact absurd hread (not_reference hpending)
    · exact ⟨row, hrow, .inl ⟨by omega, hreference⟩⟩

/-- A file that is replaced under a fence. -/
theorem evolves_change {written : Bool} (hfenced : v.Fenced id revision written)
    (hrow : v'.row = v.row) (hreplaced : v'.replaced = true) : Evolves id v v' := by
  obtain ⟨row, hget, -, hpending, -⟩ := hfenced
  refine ⟨fun h => by rwa [Named, hrow], fun _ h => by rwa [Reached, hrow], fun _ _ hlive => ?_⟩
  obtain ⟨r, hr, hlive⟩ := hlive
  cases (hrow.trans hget).symm.trans hr
  rcases hlive with ⟨-, hread⟩ | ⟨-, -, hkept⟩
  · exact absurd hread (not_reference hpending)
  · rw [hreplaced] at hkept
    cases hkept

/-- A row that gets back the revision and the reference it had. -/
theorem evolves_rollback {row' : ChannelRow} (hfenced : v.Fenced id revision false)
    (hrow' : v'.row = some row') (hrevision : row'.configRevision = revision)
    (hreference : row'.config = reference id) (hfile : v'.file = v.file) : Evolves id v v' := by
  obtain ⟨row, hget, hnext, hpending, hkept⟩ := hfenced
  refine ⟨fun _ r hr => ?_, fun known h r hr => ?_, fun known _ hlive => ⟨?_, hfile⟩⟩
  · cases hrow'.symm.trans hr
    exact .inl hreference
  · cases hrow'.symm.trans hr
    rcases h row hget with hlt | ⟨-, hread⟩
    · rcases Nat.lt_or_ge known revision with hlt' | hge
      · exact .inl (by omega)
      · exact .inr ⟨by omega, hreference⟩
    · exact absurd hread (not_reference hpending)
  · obtain ⟨r, hr, hlive⟩ := hlive
    cases hrow'.symm.trans hr
    rcases hlive with ⟨hsame, -⟩ | ⟨-, hread, -⟩
    · exact ⟨row, hget, .inr ⟨by omega, hpending, hkept rfl⟩⟩
    · exact absurd hreference (not_reference hread)

/-- A pending row whose reference is published: nobody has read its revision yet. -/
theorem evolves_publish (hrow : v.row = some row)
    (hpending : row.config = pendingReference id) (hrow' : v'.row = some row')
    (hrevision : row'.configRevision = row.configRevision)
    (hreference : row'.config = reference id) : Evolves id v v' := by
  have hlt : ∀ revision, v.Reached id revision → revision < row.configRevision := by
    intro revision h
    rcases h row hrow with hlt | ⟨-, hread⟩
    · exact hlt
    · exact absurd hread (not_reference hpending)
  refine ⟨fun _ r hr => ?_, fun revision h r hr => ?_, fun revision h hlive => ?_⟩
  · cases hrow'.symm.trans hr
    exact .inl hreference
  · cases hrow'.symm.trans hr
    exact .inl (hrevision ▸ hlt revision h)
  · obtain ⟨r, hr, hlive⟩ := hlive
    cases hrow'.symm.trans hr
    have hknown := hlt revision h
    rcases hlive with ⟨hsame, -⟩ | ⟨-, hread, -⟩
    · omega
    · exact absurd hreference (not_reference hread)

end View

/-! ## What a call knows -/

/-- A fence a call has put up, and whether it has replaced the file since. -/
structure Fence where
  id : Nat
  revision : Nat
  written : Bool

/-- The readable revisions a call has seen, the configurations it has read for them, and the
fence it has put up. -/
structure Knowledge where
  seen : List (Nat × Nat)
  used : List (Nat × Nat × Bytes)
  fence : Option Fence

namespace Knowledge

def nothing : Knowledge := ⟨[], [], none⟩

variable (g : Knowledge)

/-- The channel a call has fenced. -/
def lock : Option Nat := g.fence.map Fence.id

theorem lock_eq {g : Knowledge} {f : Fence} (hf : g.fence = some f) : g.lock = some f.id := by
  rw [lock, hf, map_some]

def Permits : ChannelOp → Prop
  | .readRow _ | .listRows | .readFile _ => True
  | .fence id _ _ previous => g.fence = none ∧ previous.config = reference id
  | .replaceFile .change id _ _ => ∃ revision, g.fence = some ⟨id, revision, false⟩
  | .replaceFile .restore id content _ =>
    ∃ revision, g.fence = some ⟨id, revision, false⟩ ∧ (id, revision, content) ∈ g.used
  | .rollback id previous fencedRevision =>
    g.fence = some ⟨id, previous.configRevision, false⟩ ∧
      fencedRevision = previous.configRevision + 1 ∧ previous.config = reference id
  | .publish id configRevision =>
    ∃ revision, g.fence = some ⟨id, revision, true⟩ ∧ configRevision = revision + 1
  | .upsert id receipt => (id, receipt.configRevision, receipt.used) ∈ g.used
  | _ => False

/-- Rows that are read; only those that refer to their file can be used. -/
def see (rows : List (Nat × ChannelRow)) : Knowledge :=
  { g with
    seen := (rows.filter fun row => row.2.config = reference row.1).map
      (fun row => (row.1, row.2.configRevision)) ++ g.seen }

/-- The content of a file, read for every revision seen of the channel. -/
def read (id : Nat) (content : Bytes) : Knowledge :=
  { g with used := (g.seen.filter fun p => p.1 = id).map (fun p => (p.1, p.2, content)) ++ g.used }

def next : (op : ChannelOp) → op.Reply → Knowledge
  | .readRow id, (reply : Option ChannelRow) => g.see (reply.toList.map fun row => (id, row))
  | .listRows, (rows : List (Nat × ChannelRow)) => g.see rows
  | .readFile id, (reply : Option Bytes) => reply.elim g (g.read id)
  | .fence id _ _ previous, (fenced : Bool) =>
    if fenced then { g with fence := some ⟨id, previous.configRevision, false⟩ } else g
  | .replaceFile .change _ _ _, (written : Bool) =>
    if written then { g with fence := g.fence.map fun f => { f with written := true } } else g
  | .rollback _ _ _, _ | .publish _ _, _ => { g with fence := none }
  | _, _ => g

/-- What a call knows is so. -/
structure Holds (g : Knowledge) (s : ChannelStore) : Prop where
  seen : ∀ id revision, (id, revision) ∈ g.seen → (s.view id).Reached id revision
  used : ∀ id revision config, (id, revision, config) ∈ g.used →
    (s.view id).StandsFor id revision config
  fence : ∀ f, g.fence = some f → (s.view f.id).Fenced f.id f.revision f.written

variable {g : Knowledge} {s : ChannelStore}

theorem holds_nothing (s : ChannelStore) : nothing.Holds s := by
  constructor <;> simp [nothing]

/-- What is known survives a step, up to the fence. -/
theorem Holds.evolves {s' : ChannelStore} (h : g.Holds s)
    (hstep : ∀ id, View.Evolves id (s.view id) (s'.view id)) (fence : Option Fence)
    (hfence : ∀ f, fence = some f → (s'.view f.id).Fenced f.id f.revision f.written) :
    ({ g with fence } : Knowledge).Holds s' where
  seen id revision hmem := (hstep id).reached revision (h.seen id revision hmem)
  used id revision config hmem := (h.used id revision config hmem).evolves (hstep id)
  fence := hfence

theorem Holds.see (h : g.Holds s) {rows : List (Nat × ChannelRow)}
    (hrows : ∀ row ∈ rows, s.db.rows.get? row.1 = some row.2) : (g.see rows).Holds s := by
  refine ⟨?_, h.used, h.fence⟩
  intro id revision hmem
  rcases mem_append.mp hmem with hnew | hold
  · obtain ⟨⟨key, row⟩, hrow, heq⟩ := mem_map.mp hnew
    obtain ⟨hread, hreference⟩ := mem_filter.mp hrow
    cases heq
    intro row' hrow'
    cases (hrows _ hread).symm.trans hrow'
    exact .inr ⟨rfl, of_decide_eq_true hreference⟩
  · exact h.seen id revision hold

theorem Holds.read (h : g.Holds s) {id : Nat} {content : Bytes}
    (hfile : s.files id = some content) :
    (g.read id content).Holds s := by
  refine ⟨h.seen, ?_, h.fence⟩
  intro key revision config hmem
  rcases mem_append.mp hmem with hnew | hold
  · obtain ⟨⟨key', revision'⟩, hfound, heq⟩ := mem_map.mp hnew
    obtain ⟨hseen, hkey⟩ := mem_filter.mp hfound
    cases heq
    cases of_decide_eq_true hkey
    exact ⟨h.seen _ _ hseen, fun _ => hfile⟩
  · exact h.used key revision config hold

theorem mem_read {id revision : Nat} (h : (id, revision) ∈ g.seen) (content : Bytes) :
    (id, revision, content) ∈ (g.read id content).used :=
  mem_append_left _ (mem_map.mpr ⟨_, mem_filter.mpr ⟨h, by simp⟩, rfl⟩)

end Knowledge

/-! ## Steps -/

section Steps
variable {g : Knowledge} {s : ChannelStore}

/-- The store is open: no transaction is under way, every row refers to its file, and every
receipt belongs to a configuration its revision stands for. -/
structure Opened (s : ChannelStore) : Prop where
  idle : s.tx = none
  named : ∀ id, (s.view id).Named id
  receipts : ∀ id receipt, s.db.receipts id = some receipt →
    (s.view id).StandsFor id receipt.configRevision receipt.used

theorem Opened.evolves {s' : ChannelStore} (h : Opened s) (htx : s'.tx = s.tx)
    (hreceipts : s'.db.receipts = s.db.receipts)
    (hstep : ∀ id, View.Evolves id (s.view id) (s'.view id)) : Opened s' where
  idle := htx.trans h.idle
  named id := (hstep id).named (h.named id)
  receipts id receipt hget := (h.receipts id receipt (hreceipts ▸ hget)).evolves (hstep id)

/-- What an operation does to one channel, when it does anything: it moves it on, and either
the call has fenced the channel or nobody has. -/
def Moves (g : Knowledge) (id : Nat) (v v' : View) : Prop :=
  v' = v ∨ View.Evolves id v v' ∧
    (g.lock = some id ∨ ∀ revision written, ¬ v.Fenced id revision written)

variable {id : Nat} {p : ChannelRow → Bool} {f : ChannelRow → ChannelRow} {op : ChannelOp}

theorem Moves.evolves {v v' : View} (h : Moves g id v v') : View.Evolves id v v' := by
  rcases h with rfl | h
  · exact .refl
  · exact h.1

theorem view_updateRow (id : Nat) (p : ChannelRow → Bool) (f : ChannelRow → ChannelRow)
    (key : Nat) :
    (s.updateRow id p f).1.view key = if key = id then
        { s.view id with row := (s.db.rows.get? id).map fun row => if p row then f row else row }
      else s.view key := by
  unfold view updateRow
  simp only [get?_update]
  split_ifs with hkey
  · subst hkey
    simp
  · simp [hkey]

/-- An update that finds the row otherwise. -/
theorem view_updateRow_miss
    (hmiss : ∀ row, s.db.rows.get? id = some row → p row = false) (key : Nat) :
    (s.updateRow id p f).1.view key = s.view key := by
  rw [view_updateRow]
  split_ifs with hkey
  · rw [hkey]
    unfold view
    cases hget : s.db.rows.get? id with
    | none => rfl
    | some row => simp [hmiss row hget]
  · rfl

/-- A row that is updated while the call has fenced it. -/
theorem moves_updateRow {revision : Nat} {written : Bool}
    {row : ChannelRow} (hfence : g.fence = some ⟨id, revision, written⟩)
    (hrow : s.db.rows.get? id = some row) (hp : p row = true)
    (hstep : View.Evolves id (s.view id) { s.view id with row := some (f row) }) (key : Nat) :
    Moves g key (s.view key) ((s.updateRow id p f).1.view key) := by
  rw [view_updateRow]
  split_ifs with hkey
  · subst hkey
    rw [hrow, map_some, if_pos hp]
    exact .inr ⟨hstep, .inl (Knowledge.lock_eq hfence)⟩
  · exact .inl rfl

theorem view_replaceFile (kind : WriteKind) (id : Nat) (content : Bytes) (key : Nat) :
    (s.replaceFile kind id content).view key = if key = id then
        { s.view id with
          file := some content
          replaced := if kind = .change then true else s.replaced id }
      else s.view key := by
  unfold view replaceFile
  split_ifs with hkind hkey hkey <;> simp [hkey]

theorem view_upsert (id : Nat) (receipt : Receipt) (key : Nat) :
    (s.upsert id receipt).view key = s.view key := by
  unfold upsert
  split_ifs <;> rfl

/-- The fence goes up on a row that is as it was read, and on no other. -/
theorem exec_fence (s : ChannelStore) (id : Nat) (name : Bytes) (enabled : Bool)
    (previous : ChannelRow) :
    (∃ row, s.db.rows.get? id = some row ∧ row.configRevision = previous.configRevision ∧
      row.config = previous.config ∧ (s.exec (.fence id name enabled previous)).2 = true ∧
      ∀ key, (s.exec (.fence id name enabled previous)).1.view key = if key = id then
          ⟨some { row with
            name, enabled, config := pendingReference id,
            configRevision := row.configRevision + 1 }, s.files id, false⟩
        else s.view key) ∨
      (s.exec (.fence id name enabled previous)).2 = false ∧
        ∀ key, (s.exec (.fence id name enabled previous)).1.view key = s.view key := by
  by_cases hreply : (s.db.rows.get? id).any (fun row =>
      decide (row.configRevision = previous.configRevision) &&
        decide (row.config = previous.config)) = true
  · obtain ⟨row, hrow, hp⟩ := (any_eq_true _ _).mp hreply
    obtain ⟨hrevision, hconfig⟩ : _ ∧ _ := by simpa using hp
    refine .inl ⟨row, hrow, hrevision, hconfig, hreply, fun key => ?_⟩
    by_cases hkey : key = id
    · subst hkey
      simp [view, exec, updateRow, get?_update, hrow, hrevision, hconfig]
    · simp [view, exec, updateRow, get?_update, hrow, hrevision, hconfig, hkey]
  · rw [Bool.not_eq_true] at hreply
    refine .inr ⟨hreply, fun key => ?_⟩
    unfold exec
    dsimp only
    rw [show (s.updateRow id _ _).2 = false from hreply, if_neg Bool.false_ne_true]
    refine view_updateRow_miss (fun row hrow => ?_) key
    rwa [hrow] at hreply

theorem moves_fence (id : Nat) (name : Bytes) (enabled : Bool) {previous : ChannelRow}
    (hreference : previous.config = reference id) (key : Nat) :
    Moves g key (s.view key) ((s.exec (.fence id name enabled previous)).1.view key) := by
  rcases exec_fence s id name enabled previous with ⟨row, hrow, -, hconfig, -, hview⟩ | ⟨-, hview⟩
  · rw [hview]
    split_ifs with hkey
    · subst hkey
      have hread : row.config = reference key := hconfig.trans hreference
      refine .inr ⟨View.evolves_fence hrow hread rfl rfl rfl rfl, .inr ?_⟩
      rintro revision written ⟨row', hrow', -, hpending, -⟩
      cases hrow.symm.trans hrow'
      exact View.not_reference hpending hread
    · exact .inl rfl
  · exact .inl (hview key)

/-- Every operation a call may issue moves each channel on. -/
theorem exec_moves (hknown : g.Holds s) (hop : g.Permits op) (key : Nat) :
    Moves g key (s.view key) ((s.exec op).1.view key) := by
  cases op with
  | readRow | listRows | readFile => exact .inl rfl
  | fence id name enabled previous => exact moves_fence id name enabled hop.2 key
  | replaceFile kind id content fails =>
    cases fails with
    | true => exact .inl rfl
    | false =>
      show Moves g key (s.view key) ((s.replaceFile kind id content).view key)
      rw [view_replaceFile]
      split
      swap
      · exact .inl rfl
      next hkey =>
      subst hkey
      cases kind with
      | create | legacy => exact hop.elim
      | change =>
        obtain ⟨revision, hfence⟩ := hop
        exact .inr ⟨View.evolves_change (hknown.fence _ hfence) rfl rfl,
          .inl (Knowledge.lock_eq hfence)⟩
      | restore =>
        -- the old configuration is what the file still has
        obtain ⟨revision, hfence, hused⟩ := hop
        obtain ⟨row, hrow, hnext, hpending, hkept⟩ := hknown.fence _ hfence
        have hfile : (s.view key).file = some content :=
          (hknown.used _ _ _ hused).2 ⟨row, hrow, .inr ⟨hnext, hpending, hkept rfl⟩⟩
        left
        rw [← hfile]
        rfl
  | rollback id previous fencedRevision =>
    obtain ⟨hfence, rfl, hreference⟩ := hop
    obtain ⟨row, hrow, hnext, hpending, -⟩ := hknown.fence _ hfence
    refine moves_updateRow hfence hrow (by simp [hnext, hpending]) ?_ key
    exact View.evolves_rollback (hknown.fence _ hfence) rfl rfl hreference rfl
  | publish id configRevision =>
    obtain ⟨revision, hfence, rfl⟩ := hop
    obtain ⟨row, hrow, hnext, hpending, -⟩ := hknown.fence _ hfence
    refine moves_updateRow hfence hrow (by simp [hnext, hpending]) ?_ key
    exact View.evolves_publish hrow hpending rfl rfl rfl
  | upsert id receipt => exact .inl (view_upsert id receipt key)
  | _ => exact hop.elim

/-- Only receipts are written to other tables, and no call opens a transaction. -/
theorem exec_frame (hop : g.Permits op) : (s.exec op).1.tx = s.tx ∧
      ((s.exec op).1.db.receipts = s.db.receipts ∨
        ∃ id receipt, (id, receipt.configRevision, receipt.used) ∈ g.used ∧
          (s.exec op).1.db.receipts = Function.update s.db.receipts id (some receipt)) := by
  cases op with
  | readRow | listRows | readFile => exact ⟨rfl, .inl rfl⟩
  | fence id name enabled previous =>
    unfold exec
    dsimp only
    split_ifs <;> exact ⟨rfl, .inl rfl⟩
  | replaceFile kind id content fails =>
    cases fails with
    | true | false => exact ⟨rfl, .inl rfl⟩
  | rollback | publish => exact ⟨rfl, .inl rfl⟩
  | upsert id receipt =>
    show (s.upsert id receipt).tx = s.tx ∧ ((s.upsert id receipt).db.receipts = _ ∨
      ∃ id' receipt', _ ∧ (s.upsert id receipt).db.receipts = _)
    unfold upsert
    split_ifs
    · exact ⟨rfl, .inr ⟨id, receipt, hop, rfl⟩⟩
    · exact ⟨rfl, .inl rfl⟩
  | _ => exact hop.elim

theorem Opened.exec (h : Opened s) (hknown : g.Holds s) (hop : g.Permits op) :
    Opened (s.exec op).1 := by
  have hstep : ∀ id, View.Evolves id (s.view id) ((s.exec op).1.view id) :=
    fun id => (exec_moves hknown hop id).evolves
  obtain ⟨htx, hreceipts⟩ := exec_frame (s := s) hop
  rcases hreceipts with hsame | ⟨id, receipt, hused, hnew⟩
  · exact h.evolves htx hsame hstep
  · refine ⟨htx.trans h.idle, fun id => (hstep id).named (h.named id), ?_⟩
    intro key stored hstored
    rw [hnew, Function.update_apply] at hstored
    split_ifs at hstored with hkey
    · subst hkey
      cases hstored
      exact (hknown.used _ _ _ hused).evolves (hstep key)
    · exact (h.receipts key stored hstored).evolves (hstep key)

/-- What a call knows is not disturbed by calls that have not fenced the same channel. -/
theorem Knowledge.Holds.other {g' : Knowledge} (h : g.Holds s) (hknown : g'.Holds s)
    (hop : g'.Permits op) (hapart : Apart Knowledge.lock g g') : g.Holds (s.exec op).1 := by
  refine h.evolves (fun id => (exec_moves hknown hop id).evolves) g.fence ?_
  intro f hf
  rcases exec_moves hknown hop f.id with hsame | ⟨-, howner | hfree⟩
  · rw [hsame]
    exact h.fence f hf
  · exact absurd howner (hapart f.id (Knowledge.lock_eq hf))
  · exact absurd (h.fence f hf) (hfree f.revision f.written)

/-- What a call knows after one of its operations. -/
theorem Knowledge.Holds.next (h : g.Holds s) (hidle : s.tx = none)
    (hop : g.Permits op) : (g.next op (s.exec op).2).Holds (s.exec op).1 := by
  have hstep : ∀ id, View.Evolves id (s.view id) ((s.exec op).1.view id) :=
    fun id => (exec_moves h hop id).evolves
  cases op with
  | readRow id =>
    refine h.see ?_
    intro row hrow
    obtain ⟨read, hread, rfl⟩ := mem_map.mp hrow
    have hvisible : s.visible = s.db := by rw [visible, hidle, getD_none]
    have hget : s.visible.rows.get? id = some read := mem_toList.mp hread
    rwa [hvisible] at hget
  | listRows => exact h.see fun row hrow => mem_rows.mp hrow
  | readFile id =>
    show ((s.files id).elim g (g.read id)).Holds s
    cases hfile : s.files id with
    | none => exact h
    | some content => exact h.read hfile
  | fence id name enabled previous =>
    rcases exec_fence s id name enabled previous with
      ⟨row, hrow, hrevision, -, hreply, hview⟩ | ⟨hreply, hview⟩
    · rw [hreply]
      refine h.evolves hstep _ fun f hf => ?_
      cases hf
      rw [hview, if_pos rfl]
      exact ⟨_, rfl, by rw [hrevision], rfl, fun _ => rfl⟩
    · rw [hreply]
      refine h.evolves hstep g.fence fun f hf => ?_
      rw [hop.1] at hf
      cases hf
  | replaceFile kind id content fails =>
    cases kind with
    | create | legacy => exact hop.elim
    | change =>
      cases fails with
      | true => exact h
      | false =>
        obtain ⟨revision, hfence⟩ := hop
        refine h.evolves hstep _ fun f hf => ?_
        have hwritten : some (⟨id, revision, true⟩ : Fence) = some f := by
          rw [← hf]
          rw [hfence]
          rfl
        cases hwritten
        obtain ⟨row, hrow, hnext, hpending, -⟩ := h.fence _ hfence
        exact ⟨row, hrow, hnext, hpending, fun hfalse => by cases hfalse⟩
    | restore =>
      cases fails with
      | true => exact h
      | false =>
        refine h.evolves hstep g.fence fun f hf => ?_
        obtain ⟨revision, hfence, -⟩ := hop
        cases hfence.symm.trans hf
        exact h.fence _ hfence
  | rollback | publish => exact h.evolves hstep none fun f hf => by cases hf
  | upsert id receipt =>
    refine h.evolves hstep g.fence fun f hf => ?_
    show ((s.upsert id receipt).view f.id).Fenced f.id f.revision f.written
    rw [view_upsert]
    exact h.fence f hf
  | _ => exact hop.elim

/-- A fence only goes up where nobody has one. -/
theorem fence_free (hop : g.Permits op) (htaken : (g.next op (s.exec op).2).lock = some id) :
    g.lock = some id ∨ ∀ g' : Knowledge, g'.Holds s → g'.lock ≠ some id := by
  cases op with
  | readRow | listRows => exact .inl htaken
  | readFile key =>
    left
    have hread : ((s.files key).elim g (g.read key)).lock = some id := htaken
    cases hfile : s.files key with
    | none | some => rwa [hfile] at hread
  | fence key name enabled previous =>
    rcases exec_fence s key name enabled previous with
      ⟨row, hrow, -, hconfig, hreply, -⟩ | ⟨hreply, -⟩
    · rw [hreply] at htaken
      cases htaken
      right
      intro g' hholds hlock
      obtain ⟨f, hf, hid⟩ := map_eq_some_iff.mp hlock
      obtain ⟨row', hrow', -, hpending, -⟩ := hid ▸ hholds.fence f hf
      cases hrow.symm.trans hrow'
      exact View.not_reference hpending (hconfig.trans hop.2)
    · rw [hreply] at htaken
      exact .inl htaken
  | replaceFile kind key content fails =>
    left
    cases kind with
    | create | legacy => exact hop.elim
    | restore => exact htaken
    | change =>
      cases fails with
      | true => exact htaken
      | false =>
        obtain ⟨revision, hfence⟩ := hop
        have hwritten : (g.fence.map fun f => { f with written := true }).map Fence.id =
            some id := htaken
        rw [hfence] at hwritten
        rwa [Knowledge.lock, hfence]
  | rollback | publish => cases htaken
  | upsert key receipt => exact .inl htaken
  | _ => exact hop.elim

end Steps

/-! ## The programs -/

section Programs
variable {isObject : Bytes → Bool} {g : Knowledge}

/-- A program only does what it knows to be safe. -/
abbrev Careful (g : Knowledge) (p : ChannelProg) : Prop :=
  p.Obeys Knowledge.Permits Knowledge.next g

/-- A program that may read the file obeys its rules if what it does with the content does. -/
theorem obeys_readChannelConfig {G : Type} {permits : G → ChannelOp → Prop}
    {learn : G → (op : ChannelOp) → op.Reply → G} {g : G} {id : Nat} {stored : Bytes}
    {next : Bytes → ChannelProg} (hread : permits g (.readFile id))
    (h : stored = reference id → ∀ content,
      (next content).Obeys permits learn (learn g (.readFile id) (some content))) :
    (readChannelConfig isObject id stored next).Obeys permits learn g := by
  refine ite (fun hstored => ⟨hread, ?_⟩) fun _ => trivial
  rintro (_ | content)
  · trivial
  · exact ite (fun _ => h hstored content) fun _ => trivial

theorem careful_writeConfig (u : ChannelUpdate) {previous : ChannelRow} {oldConfig : Bytes}
    (hreference : previous.config = reference u.id)
    (hfence : g.fence = some ⟨u.id, previous.configRevision, false⟩)
    (hold : (u.id, previous.configRevision, oldConfig) ∈ g.used) :
    Careful g (writeConfig u previous oldConfig) := by
  refine ⟨⟨_, hfence⟩, ?_⟩
  rintro (_ | _)
  · -- the write failed: the old file, then the old row
    refine ⟨⟨_, hfence, hold⟩, ?_⟩
    rintro (_ | _)
    · trivial
    · refine ⟨⟨hfence, rfl, hreference⟩, ?_⟩
      rintro (_ | _) <;> trivial
  · refine ⟨⟨previous.configRevision, ?_, rfl⟩, ?_⟩
    · show g.fence.map _ = _
      rw [hfence]
      rfl
    · rintro (_ | _) <;> trivial

theorem careful_update (u : ChannelUpdate) :
    Careful .nothing (updateWithConfigWriter isObject u) := by
  refine ite (fun _ => ⟨trivial, ?_⟩) fun _ => trivial
  rintro (_ | previous)
  · trivial
  refine obeys_readChannelConfig trivial fun hreference oldConfig => ?_
  have hseen : (u.id, previous.configRevision) ∈
      (Knowledge.nothing.next (.readRow u.id) (some previous)).seen := by
    show _ ∈ (Knowledge.nothing.see [(u.id, previous)]).seen
    simp [Knowledge.see, hreference]
  refine ⟨⟨rfl, hreference⟩, ?_⟩
  rintro (_ | _)
  · trivial
  exact careful_writeConfig u hreference rfl (Knowledge.mem_read hseen oldConfig)

variable (d : Sending) {channels : List Channel}

theorem careful_persistResults
    (h : ∀ c ∈ channels, (c.id, c.row.configRevision, c.config) ∈ g.used) :
    Careful g (persistResults d channels) := by
  induction channels with
  | nil => trivial
  | cons channel rest ih =>
    have hrest : Careful g (persistResults d rest) :=
      ih fun c hc => h c (mem_cons_of_mem _ hc)
    exact ite (fun _ => ⟨h channel mem_cons_self, fun _ => hrest⟩) fun _ => hrest

theorem careful_hydrate {next : List Channel → ChannelProg} {rows : List (Nat × ChannelRow)}
    (hnext : ∀ (g : Knowledge) channels,
      (∀ c ∈ channels, (c.id, c.row.configRevision, c.config) ∈ g.used) → Careful g (next channels))
    (hrows : ∀ row ∈ rows, row.2.config = reference row.1 → (row.1, row.2.configRevision) ∈ g.seen)
    (hchannels : ∀ c ∈ channels, (c.id, c.row.configRevision, c.config) ∈ g.used) :
    Careful g (hydrate isObject next rows channels) := by
  induction rows generalizing g channels with
  | nil => exact hnext g channels hchannels
  | cons row rest ih =>
    refine obeys_readChannelConfig trivial fun hreference config => ?_
    refine ih (fun r hr => hrows r (mem_cons_of_mem _ hr)) (forall_mem_snoc ?_ ?_)
    · exact fun c hc => mem_append_right _ (hchannels c hc)
    · exact Knowledge.mem_read (hrows row mem_cons_self hreference) config

theorem careful_dispatch : Careful .nothing (dispatch isObject d) := by
  refine ⟨trivial, fun rows => ?_⟩
  refine careful_hydrate (fun g channels h => ?_) (fun row hrow hreference => ?_) (by simp)
  · exact careful_persistResults d fun c hc => h c (mem_filter.mp hc).1
  · refine mem_append_left _ (mem_map.mpr ⟨row, mem_filter.mpr ⟨hrow, ?_⟩, rfl⟩)
    simpa using hreference

theorem careful_testChannel (id : Nat) : Careful .nothing (testChannel isObject d id) := by
  refine ⟨trivial, ?_⟩
  rintro (_ | row)
  · trivial
  refine obeys_readChannelConfig trivial fun hreference config => careful_persistResults d ?_
  intro c hc
  rw [mem_singleton.mp hc]
  have hseen : (id, row.configRevision) ∈ (Knowledge.nothing.see [(id, row)]).seen := by
    simp [Knowledge.see, hreference]
  exact Knowledge.mem_read hseen config

end Programs

/-! ## Start-up -/

/-- What a crash and the start-up after it, which may crash as well, make of a store. -/
inductive Recovers (isObject : Bytes → Bool) : ChannelStore → ChannelStore → Prop
  | opened {s : ChannelStore}
      (ok : ((newRepository isObject).run channelSemantics s.crashed).2 = .ok ()) :
      Recovers isObject s ((newRepository isObject).run channelSemantics s.crashed).1
  | again {s t s' : ChannelStore}
      (crash : t ∈ (newRepository isObject).crashStates channelSemantics s.crashed)
      (rest : Recovers isObject t s') : Recovers isObject s s'

section Startup
variable {isObject : Bytes → Bool}

/-- The references the start-up has listed. -/
abbrev Listed := List (Nat × Bytes)

namespace Listed

variable (g : Listed)

def Permits : ChannelOp → Prop
  | .listRows | .readFile _ => True
  | .promote id stored => (id, stored) ∈ g
  | .replaceFile .legacy id content _ =>
    (id, content) ∈ g ∧ content ≠ reference id ∧ content ≠ pendingReference id
  | _ => False

def next : (op : ChannelOp) → op.Reply → Listed
  | .listRows, (rows : List (Nat × ChannelRow)) => rows.map fun row => (row.1, row.2.config)
  | _, _ => g

/-- An open store has no legacy rows. -/
def Holds (s : ChannelStore) : Prop :=
  Opened s ∧ ∀ item ∈ g, item.2 = reference item.1 ∨ item.2 = pendingReference item.1

theorem Holds.exec {g : Listed} {s : ChannelStore} (h : g.Holds s) {op : ChannelOp}
    (hop : g.Permits op) : (g.next op (s.exec op).2).Holds (s.exec op).1 := by
  cases op with
  | listRows =>
    refine ⟨h.1, ?_⟩
    intro item hitem
    obtain ⟨row, hrow, rfl⟩ := mem_map.mp hitem
    exact h.1.named row.1 row.2 (mem_rows.mp hrow)
  | readFile id => exact h
  | promote id stored =>
    refine ⟨h.1.evolves rfl rfl fun key => ?_, h.2⟩
    show View.Evolves key (s.view key) ((s.updateRow id _ _).1.view key)
    by_cases hkey : key = id
    swap
    · rw [view_updateRow, if_neg hkey]
      exact .refl
    subst hkey
    by_cases hfound : ∃ row, s.db.rows.get? key = some row ∧ row.config = stored
    · obtain ⟨row, hrow, rfl⟩ := hfound
      rw [view_updateRow, if_pos rfl, hrow, map_some, if_pos (by simp)]
      rcases h.2 _ hop with hreference | hpending
      · -- the reference is there already
        have hsame : ({ row with config := reference key } : ChannelRow) = row := by
          rw [← hreference]
        rw [hsame, ← hrow]
        exact .refl
      · exact View.evolves_publish hrow hpending rfl rfl rfl
    · rw [view_updateRow_miss]
      · exact .refl
      · intro row hrow
        exact decide_eq_false fun hconfig => hfound ⟨row, hrow, hconfig⟩
  | replaceFile kind id content fails =>
    cases kind with
    | legacy =>
      obtain ⟨hitem, hnot, hnot'⟩ := hop
      exact absurd (h.2 _ hitem) (not_or.mpr ⟨hnot, hnot'⟩)
    | create | change | restore => exact hop.elim
  | _ => exact hop.elim

end Listed

theorem isPrefixOf_reference (id : Nat) : (ascii "file:").isPrefixOf (reference id) = true :=
  isPrefixOf_iff_prefix.mpr (prefix_append _ _)

theorem isPrefixOf_pendingReference (id : Nat) :
    (ascii "pending:").isPrefixOf (pendingReference id) = true :=
  isPrefixOf_iff_prefix.mpr (prefix_append _ _)

theorem obeys_promoteReference {g : Listed} {id : Nat} {stored : Bytes} {p : ChannelProg}
    (hitem : (id, stored) ∈ g) (hp : p.Obeys Listed.Permits Listed.next g) :
    (promoteReference id stored p).Obeys Listed.Permits Listed.next g := by
  refine ⟨hitem, ?_⟩
  rintro (_ | _)
  · trivial
  · exact hp

theorem obeys_migrateConfigs {g : Listed} {rows : List (Nat × ChannelRow)}
    (h : ∀ row ∈ rows, (row.1, row.2.config) ∈ g) :
    (migrateConfigs isObject rows).Obeys Listed.Permits Listed.next g := by
  induction rows with
  | nil => trivial
  | cons row rest ih =>
    have hitem := h row mem_cons_self
    have hrest := ih fun r hr => h r (mem_cons_of_mem _ hr)
    refine ite (fun _ => ite (fun _ => ?_) fun _ => trivial) fun hpending => ?_
    · exact obeys_readChannelConfig trivial fun _ _ => obeys_promoteReference hitem hrest
    refine ite (fun _ => obeys_readChannelConfig trivial fun _ _ => hrest) fun hfile => ?_
    refine ite (fun _ => ⟨⟨hitem, ?_, ?_⟩, ?_⟩) fun _ => trivial
    · exact fun heq => hfile (heq ▸ isPrefixOf_reference row.1)
    · exact fun heq => hpending (heq ▸ isPrefixOf_pendingReference row.1)
    · rintro (_ | _)
      · trivial
      · exact obeys_promoteReference hitem hrest

theorem Opened.recovers {s s' : ChannelStore} (h : Opened s) (hrecovers : Recovers isObject s s') :
    Opened s' := by
  have hobeys : (newRepository isObject).Obeys Listed.Permits Listed.next [] :=
    ⟨trivial, fun rows => obeys_migrateConfigs fun row hrow => mem_map.mpr ⟨row, hrow, rfl⟩⟩
  have halone : ∀ {s : ChannelStore}, Opened s →
      (∀ t ∈ (newRepository isObject).crashStates channelSemantics s.crashed,
        ∃ g : Listed, g.Holds t) ∧
      ∃ g : Listed, g.Holds ((newRepository isObject).run channelSemantics s.crashed).1 := by
    intro s hs
    have hcrashed : Opened s.crashed := ⟨rfl, hs.named, hs.receipts⟩
    have hstart : Listed.Holds [] s.crashed := ⟨hcrashed, by simp⟩
    exact hobeys.alone (K := Listed.Holds) (fun g op s hK hop => hK.exec hop) hstart
  induction hrecovers with
  | opened ok =>
    obtain ⟨-, g, hg⟩ := halone h
    exact hg.1
  | again crash rest ih =>
    obtain ⟨g, hg⟩ := (halone h).1 _ crash
    exact ih hg.1

end Startup

/-! ## Every run -/

inductive ChannelCall
  | update (u : ChannelUpdate)
  | dispatch (d : Sending)
  | test (d : Sending) (id : Nat)

/-- The panel with its channels. -/
def channelSystem (isObject : Bytes → Bool) :
    System ChannelStore ChannelOp ChannelOp.Reply ChannelCall (Except ChannelError Unit) where
  sem := channelSemantics
  program
    | .update u => updateWithConfigWriter isObject u
    | .dispatch d => dispatch isObject d
    | .test d id => testChannel isObject d id

/-- A store that start-up has left, before any delivery. -/
structure Fresh (s : ChannelStore) : Prop where
  idle : s.tx = none
  referenced : ∀ id row, s.db.rows.get? id = some row → row.config = reference id
  untested : ∀ id, s.db.receipts id = none

theorem Fresh.opened {s : ChannelStore} (h : Fresh s) : Opened s where
  idle := h.idle
  named id row hrow := .inl (h.referenced id row hrow)
  receipts id receipt hget := by
    rw [h.untested id] at hget
    cases hget

variable {isObject : Bytes → Bool}

theorem opened_of_restarts {init : ChannelStore} (hfresh : Fresh init)
    {cfg : Config ChannelStore ChannelOp ChannelOp.Reply ChannelCall (Except ChannelError Unit)}
    (run : Restarts (channelSystem isObject) (fun _ => True) (Recovers isObject) init cfg) :
    Opened cfg.state := by
  refine run.typed Knowledge.Permits Knowledge.next Knowledge.Holds Knowledge.lock .nothing rfl ?_ hfresh.opened ?_ ?_ ?_ ?_ ?_
  · rintro (u | d | ⟨d, id⟩) -
    · exact careful_update u
    · exact careful_dispatch d
    · exact careful_testChannel d id
  · exact fun s s' hs hrecovers => hs.recovers hrecovers
  · exact fun s _ => Knowledge.holds_nothing s
  · exact fun g op s _ hs hg hop => ⟨hs.exec hg hop, hg.next hs.idle hop⟩
  · exact fun g op s id _ _ _ hop htaken => fence_free hop htaken
  · exact fun g g' op s _ _ hg hg' hop hapart => hg.other hg' hop hapart

theorem receipt_of_healthy {configured : Bytes → Bytes → Option Bool} {channel : Channel}
    {receipt : Option Receipt} {now : Int}
    (h : (channelAvailabilityWithReceipt configured channel receipt now).state = .healthy) :
    ∃ r, receipt = some r ∧ r.configRevision = channel.row.configRevision ∧
      r.outcome = .success := by
  revert h
  fun_cases channelAvailabilityWithReceipt configured channel receipt now with
  | case8 _ _ r hother hfailed =>
    intro _
    refine ⟨r, rfl, not_not.mp (not_or.mp hother).1, ?_⟩
    cases hr : r.outcome with
    | success => rfl
    | failure => exact absurd hr hfailed
  | _ => exact fun h => by cases h

theorem channel?_eq_some {s : ChannelStore} {id : Nat} {channel : Channel}
    (h : s.channel? isObject id = some channel) :
    s.db.rows.get? id = some channel.row ∧ channel.row.config = reference id ∧
      s.files id = some channel.config := by
  revert h
  fun_cases channel? isObject s id with
  | case1 row config hfile hrow hread =>
    intro h
    cases h
    exact ⟨hrow, hread.1, hfile⟩
  | _ => exact fun h => by cases h

/-- Whatever updates, deliveries, crashes and restarts are interleaved: when a channel is
reported healthy, the delivery behind its receipt succeeded with the configuration that is
now in its file. -/
theorem healthy_was_tested (isObject : Bytes → Bool) (configured : Bytes → Bytes → Option Bool)
    {init : ChannelStore} (hfresh : Fresh init)
    {cfg : Config ChannelStore ChannelOp ChannelOp.Reply ChannelCall (Except ChannelError Unit)}
    (run : Restarts (channelSystem isObject) (fun _ => True) (Recovers isObject) init cfg)
    {id : Nat} {channel : Channel} (hchannel : cfg.state.channel? isObject id = some channel)
    {now : Int} (hhealthy : (channelAvailabilityWithReceipt configured channel
      (cfg.state.db.receipts id) now).state = .healthy) :
    ∃ receipt, cfg.state.db.receipts id = some receipt ∧ receipt.outcome = .success ∧
      cfg.state.files id = some receipt.used := by
  obtain ⟨receipt, hreceipt, hrevision, hsuccess⟩ := receipt_of_healthy hhealthy
  refine ⟨receipt, hreceipt, hsuccess, ?_⟩
  obtain ⟨hrow, hreference, -⟩ := channel?_eq_some hchannel
  have hstands := (opened_of_restarts hfresh run).receipts id receipt hreceipt
  exact hstands.2 ⟨channel.row, hrow, .inl ⟨hrevision.symm, hreference⟩⟩

/-- A test that the configurations below pass as every JSON object does. -/
def braced (config : Bytes) : Bool := config.head? = some 0x7B && config.getLast? = some 0x7D

def oldConfig : Bytes := ascii "\x7b\"url\":\"a\"\x7d"

def newConfig : Bytes := ascii "\x7b\"url\":\"b\"\x7d"

/-- One channel with a configuration. -/
def oneChannel : ChannelStore where
  db := ⟨RowTable.empty.insert ⟨ascii "ops", ascii "slack", reference 1, true, 1⟩, fun _ => none⟩
  tx := none
  files id := if id = 1 then some (oldConfig) else none
  tombstones := []
  replaced _ := false

theorem oneChannel_fresh : Fresh oneChannel where
  idle := rfl
  referenced id row hrow := by
    rw [oneChannel, get?_insert] at hrow
    split_ifs at hrow with hid
    · cases hrow
      rw [hid]
      rfl
    · rw [get?_empty] at hrow
      cases hrow
  untested _ := rfl

/-- An update of the channel and a test after it. -/
def updateAndTest : List ChannelCall :=
  [.update ⟨1, ascii "ops", newConfig, true, false, false⟩,
    .test ⟨fun _ _ => true, .manualTest, 10⟩ 1]

/-- The store after both. -/
def testedChannel : ChannelStore :=
  (Run.serialRun (channelSystem braced) oneChannel updateAndTest).2.state

theorem healthy_was_tested_updateAndTest :
    ∃ receipt, testedChannel.db.receipts 1 = some receipt ∧ receipt.outcome = .success ∧
      testedChannel.files 1 = some receipt.used := by
  have hready : Run.serialReady (channelSystem braced) ([], ⟨oneChannel, []⟩)
      updateAndTest = true := by
    decide +kernel
  have hrun : Run (channelSystem braced) (fun _ => True) oneChannel _ _ :=
    Run.serialRun_run updateAndTest (fun _ _ => trivial) hready
  have hchannel : testedChannel.channel? braced 1 =
      some ⟨1, ⟨ascii "ops", ascii "slack", reference 1, true, 2⟩, newConfig⟩ := by
    decide +kernel
  have hhealthy : (channelAvailabilityWithReceipt (fun _ _ => some true)
      ⟨1, ⟨ascii "ops", ascii "slack", reference 1, true, 2⟩, newConfig⟩
      (testedChannel.db.receipts 1) 20).state = .healthy := by
    decide +kernel
  exact healthy_was_tested braced (fun _ _ => some true) oneChannel_fresh
    (hrun.restarts _) hchannel hhealthy

end HeyServer.Notify
