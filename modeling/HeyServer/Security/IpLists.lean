import HeyServer.Lib.Rely
import HeyServer.Lib.Text

/-!
# The cached IP lists

Every change of the table is followed by a rebuild of the cache: all rows are read, and the cache
made of them is installed. No lock spans the two, so a rebuild may install rows that are gone.

## Implementation notes

`parse` stands for `net.ParseIP` with its canonical text and for `net.ParseCIDR`. A statement fails
only by the uniqueness of `ip`. `created_at`, `comment` and ids are left out; times are RFC 3339
texts, which the table compares as such.
-/

namespace HeyServer.Security
open Lib List Option

inductive ListType
  | blacklist
  | whitelist
deriving DecidableEq

inductive Address
  | host (ip : Bytes)
  | network (cidr : Bytes)
deriving DecidableEq

structure IPRow where
  ip : Bytes
  listType : ListType
  expiresAt : Option Bytes
deriving DecidableEq

/-- The map of single addresses and the list of networks. -/
structure Cache where
  hosts : Bytes → Option ListType
  nets : List (Bytes × ListType)

structure IPManager where
  rows : List IPRow
  cache : Cache

variable (parse : Bytes → Option Address)

def Cache.add (cache : Cache) (row : IPRow) : Cache :=
  match parse row.ip with
  | some (.host ip) =>
    { cache with hosts := fun key => if key = ip then some row.listType else cache.hosts key }
  | some (.network cidr) => { cache with nets := cache.nets ++ [(cidr, row.listType)] }
  | none => cache

/-- The cache that `rebuildCache` makes of the rows it has read. -/
def cacheOf (rows : List IPRow) : Cache := rows.foldl (Cache.add parse) ⟨fun _ => none, []⟩

inductive IPOp
  | insert (row : IPRow)
  | delete (ip : Bytes)
  | deleteFrom (ip : Bytes) (listType : ListType)
  | prune (now : Bytes)
  | selectAll
  | install (rows : List IPRow)

def IPOp.Reply : IPOp → Type
  | .insert _ | .deleteFrom .. => Bool
  | .selectAll => List IPRow
  | _ => Unit

def IPOp.exec (s : IPManager) : (op : IPOp) → IPManager × op.Reply
  | .insert row =>
    if s.rows.any (·.ip = row.ip) then (s, false) else ({ s with rows := s.rows ++ [row] }, true)
  | .delete ip => ({ s with rows := s.rows.filter (·.ip ≠ ip) }, ())
  | .deleteFrom ip listType =>
    ({ s with rows := s.rows.filter fun row => ¬ (row.ip = ip ∧ row.listType = listType) },
      s.rows.any fun row => row.ip = ip ∧ row.listType = listType)
  | .prune now =>
    ({ s with rows := s.rows.filter fun row => ¬ row.expiresAt.any (· < now) }, ())
  | .selectAll => (s, s.rows)
  | .install rows => ({ s with cache := cacheOf parse rows }, ())

def ipSemantics : Semantics IPManager IPOp IPOp.Reply where
  exec := IPOp.exec parse
  ready _ _ := true

abbrev IPProg := Prog IPOp IPOp.Reply Bool

def rebuildCache : IPProg :=
  .call .selectAll fun (rows : List IPRow) => .call (.install rows) fun _ => .done true

inductive IPCall
  | add (ip : Bytes) (listType : ListType) (expiresAt : Option Bytes)
  | remove (ip : Bytes)
  | removeFromList (ip : Bytes) (listType : ListType)
  | pruneExpired (now : Bytes)

def IPCall.program : IPCall → IPProg
  | .add ip listType expiresAt =>
    if (parse (Text.trimSpace ip)).isNone then .done false
    else .call (.insert ⟨Text.trimSpace ip, listType, expiresAt⟩) fun (ok : Bool) =>
      if ok then rebuildCache else .done false
  | .remove ip => .call (.delete (Text.trimSpace ip)) fun _ => rebuildCache
  | .removeFromList ip listType =>
    .call (.deleteFrom (Text.trimSpace ip) listType) fun (removed : Bool) =>
      if removed then rebuildCache else .done false
  | .pruneExpired now => .call (.prune now) fun _ => rebuildCache

def ipSystem : System IPManager IPOp IPOp.Reply IPCall Bool where
  sem := ipSemantics parse
  program := IPCall.program parse

/-! ## The cache at rest -/

/-- The cache shows exactly the rows of the table. -/
structure Shows (rows : List IPRow) (cache : Cache) : Prop where
  hosts : ∀ ip lt, cache.hosts ip = some lt ↔
    ∃ row ∈ rows, parse row.ip = some (.host ip) ∧ row.listType = lt
  nets : ∀ cidr lt, (cidr, lt) ∈ cache.nets ↔
    ∃ row ∈ rows, parse row.ip = some (.network cidr) ∧ row.listType = lt

variable {parse}

/-- No address stands in both lists, written in two ways. -/
def OneList (parse : Bytes → Option Address) (rows : List IPRow) : Prop :=
  ∀ ip, ∀ a ∈ rows, ∀ b ∈ rows, parse a.ip = some (.host ip) → parse b.ip = some (.host ip) →
    a.listType = b.listType

/-- The last row that names an address decides about it; every network is kept. -/
theorem cacheOf_spec (rows : List IPRow) : (∀ ip, (cacheOf parse rows).hosts ip =
      ((rows.filter fun row => parse row.ip = some (.host ip)).getLast?).map IPRow.listType) ∧
    ∀ cidr lt, (cidr, lt) ∈ (cacheOf parse rows).nets ↔
      ∃ row ∈ rows, parse row.ip = some (.network cidr) ∧ row.listType = lt := by
  induction rows using reverseRecOn with
  | nil => exact ⟨by simp [cacheOf], by simp [cacheOf]⟩
  | append_singleton rows row ih =>
    obtain ⟨hhosts, hnets⟩ := ih
    rw [cacheOf, foldl_concat, ← cacheOf, Cache.add]
    cases hparse : parse row.ip with
    | none => constructor <;> simp [hhosts, hnets, hparse]
    | some address =>
      cases address with
      | network cidr =>
        refine ⟨by simp [hhosts, hparse], fun cidr' lt => ?_⟩
        simp only [mem_append, mem_singleton, Prod.mk.injEq, hnets]
        grind
      | host ip =>
        refine ⟨fun ip' => ?_, by simp [hnets, hparse]⟩
        by_cases hip : ip' = ip
        · simp [hip, hparse]
        · simp [hip, Ne.symm hip, hparse, hhosts]

variable {rows : List IPRow}

theorem shows_cacheOf (hone : OneList parse rows) : Shows parse rows (cacheOf parse rows) := by
  obtain ⟨hhosts, hnets⟩ := @cacheOf_spec parse rows
  refine ⟨fun ip lt => ?_, hnets⟩
  rw [hhosts, map_eq_some_iff]
  constructor
  · rintro ⟨row, hlast, rfl⟩
    have hrow := mem_filter.mp (mem_of_getLast? hlast)
    exact ⟨row, hrow.1, of_decide_eq_true hrow.2, rfl⟩
  · rintro ⟨row, hrow, hparse, rfl⟩
    have hmem : row ∈ rows.filter fun row => parse row.ip = some (.host ip) :=
      mem_filter.mpr ⟨hrow, decide_eq_true hparse⟩
    have hlast := getLast?_eq_some_getLast (ne_nil_of_mem hmem)
    have hother := mem_filter.mp (mem_of_getLast? hlast)
    exact ⟨_, hlast, hone ip _ hother.1 row hrow (of_decide_eq_true hother.2) hparse⟩

theorem shows_cacheOf_iff : Shows parse rows (cacheOf parse rows) ↔ OneList parse rows := by
  refine ⟨fun h ip a ha b hb hparse hparse' => ?_, shows_cacheOf⟩
  have hfirst := (h.hosts ip a.listType).mpr ⟨a, ha, hparse, rfl⟩
  exact some.inj (hfirst.symm.trans ((h.hosts ip b.listType).mpr ⟨b, hb, hparse', rfl⟩))

/-- A change of the table is a charge that the installation of a cache pays. -/
def rebuildDuties (parse : Bytes → Option Address) : Duties IPManager IPOp Unit where
  guard _ _ := True
  incurs s op _ := (IPOp.exec parse s op).1.rows ≠ s.rows
  pays op _ := ∃ rows, op = .install rows

def anyState (parse : Bytes → Option Address) : Rely (ipSemantics parse) where
  inv _ := True
  grows _ _ := True
  refl _ := trivial
  trans _ _ := trivial
  extends_ _ _ _ _ := trivial

/-- A change is followed by a rebuild, unless nothing was changed. -/
theorem fulfils_call {op : IPOp} {rest : op.Reply → IPProg} (s : IPManager)
    (h : ∀ t, rest (IPOp.exec parse t op).2 = rebuildCache ∨
      rest (IPOp.exec parse t op).2 = .done false ∧ (IPOp.exec parse t op).1.rows = t.rows) :
    (anyState parse).Fulfils (rebuildDuties parse) (fun _ _ => True) (.call op rest) s := by
  intro t _ _ _
  refine ⟨trivial, fun x hchanged => ?_, ?_⟩
  · rcases h t with hrebuild | ⟨-, hsame⟩
    · exact hrebuild ▸ .inr fun _ => .inl ⟨_, rfl⟩
    · exact absurd hsame hchanged
  · rcases h t with hrebuild | ⟨hdone, -⟩
    · refine hrebuild ▸ fun t _ _ _ => ⟨trivial, fun x h => absurd rfl h, fun t _ _ _ => ?_⟩
      exact ⟨trivial, fun x h => absurd rfl h, fun _ _ _ => trivial⟩
    · exact hdone ▸ fun _ _ _ => trivial

theorem fulfils_program (c : IPCall) (s : IPManager) :
    (anyState parse).Fulfils (rebuildDuties parse) (fun _ _ => True) (c.program parse) s := by
  cases c with
  | add ip listType expiresAt =>
    rw [IPCall.program]
    split_ifs
    · exact fun _ _ _ => trivial
    · refine fulfils_call s fun t => ?_
      dsimp only [IPOp.exec]
      split_ifs with _ hnew hnew
      · cases hnew
      · exact .inr ⟨rfl, rfl⟩
      · exact .inl rfl
      · exact absurd rfl hnew
  | removeFromList ip listType =>
    refine fulfils_call s fun t => ?_
    cases hremoved : t.rows.any fun row => row.ip = Text.trimSpace ip ∧ row.listType = listType with
    | true => exact .inl (if_pos hremoved)
    | false =>
      refine .inr ⟨if_neg (Bool.eq_false_iff.mp hremoved), filter_eq_self.mpr fun row hrow => ?_⟩
      exact decide_eq_true fun h => any_eq_false.mp hremoved row hrow (decide_eq_true h)
  | remove | pruneExpired => exact fulfils_call s fun t => .inl rfl

/-- A cache that is installed is made of the rows the table has then. -/
def current (s : IPManager) : IPOp → Bool
  | .install rows => s.rows = rows
  | _ => true

/-- When every rebuild finds the rows it has read, the cache at rest shows the table. -/
theorem cache_current_at_rest {init : IPManager} (hinit : init.cache = cacheOf parse init.rows)
    {trace : List (Event IPManager IPOp IPCall)}
    {cfg : Config IPManager IPOp IPOp.Reply IPCall Bool}
    (run : Run (ipSystem parse) (fun _ => True) init trace cfg)
    (hcurrent : ∀ e ∈ trace, current e.before e.op = true)
    (hrest : ∀ call ∈ cfg.calls, ∃ ok, call.2 = .done ok) :
    cfg.state.cache = cacheOf parse cfg.state.rows ∧
      (Shows parse cfg.state.rows cfg.state.cache ↔ OneList parse cfg.state.rows) := by
  have hcache : cfg.state.cache = cacheOf parse cfg.state.rows := by
    have howed := run.owed (anyState parse) (w := rebuildDuties parse) (Q := fun _ _ _ => True)
      (I := fun s => s.cache = cacheOf parse s.rows) (x := ())
        (G := fun s op => current s op = true)
      (fun c _ s _ => fulfils_program c s) (fun _ _ => trivial) hcurrent hinit ?_ ?_
    · rcases howed with hstate | ⟨call, hcall, hpays⟩
      · exact hstate
      · obtain ⟨ok, hdone⟩ := hrest call hcall
        rw [hdone] at hpays
        exact hpays.elim
    · intro s op _ _ hnow hs
      by_cases hsame : (IPOp.exec parse s op).1.rows = s.rows
      · left
        cases op with
        | install rows =>
          cases of_decide_eq_true hnow
          rfl
        | insert row =>
          simp only [ipSystem, ipSemantics, IPOp.exec] at hsame ⊢
          split_ifs at hsame ⊢
          · exact hs
          · exact hs.trans (congrArg _ hsame.symm)
        | _ => exact hs.trans (congrArg _ hsame.symm)
      · exact .inr hsame
    · rintro s _ hnow ⟨rows, rfl⟩
      cases of_decide_eq_true hnow
      rfl
  rw [hcache]
  exact ⟨rfl, shows_cacheOf_iff⟩

/-- Every text is the address it spells. -/
def plainParse (ip : Bytes) : Option Address := some (.host ip)

def emptyLists : IPManager := ⟨[], cacheOf plainParse []⟩

/-- An address is blocked and unblocked. -/
def blockAndUnblock : List IPCall := [.add (ascii "1.2.3.4") .blacklist none,
    .remove (ascii "1.2.3.4")]

theorem unblocked_at_rest :
    (Run.serialRun (ipSystem plainParse) emptyLists blockAndUnblock).2.state.cache =
      cacheOf plainParse
      (Run.serialRun (ipSystem plainParse) emptyLists blockAndUnblock).2.state.rows := by
  have hready : Run.serialReady (ipSystem plainParse) ([], ⟨emptyLists, []⟩) blockAndUnblock =
      true := by
    decide +kernel
  have hrun : Run (ipSystem plainParse) (fun _ => True) emptyLists _ _ :=
    Run.serialRun_run blockAndUnblock (fun _ _ => trivial) hready
  have hcurrent : (Run.serialRun (ipSystem plainParse) emptyLists blockAndUnblock).1.all
      (fun e => current e.before e.op) = true := by
    decide +kernel
  have hcalls : (Run.serialRun (ipSystem plainParse) emptyLists blockAndUnblock).2.calls =
      blockAndUnblock.map fun c => (c, .done true) := rfl
  refine (cache_current_at_rest rfl hrun (all_eq_true.mp hcurrent) fun call hcall => ?_).1
  rw [hcalls] at hcall
  obtain ⟨c, -, rfl⟩ := mem_map.mp hcall
  exact ⟨true, rfl⟩

/-- While the address is unblocked, the rebuild after the blocking still has the old rows. -/
def overtakenRebuild : List (Run.Choice IPCall) :=
  [.invoke blockAndUnblock[0], .step 0, .step 0, .invoke blockAndUnblock[1], .step 1, .step 1,
    .step 1,
    .step 0]

/-- The table is empty, and the address stays blocked. -/
theorem blocked_without_row : ∃ trace cfg,
    Run (ipSystem plainParse) (fun _ => True) emptyLists trace cfg ∧
      cfg.calls = blockAndUnblock.map (fun c => (c, .done true)) ∧ cfg.state.rows = [] ∧
      cfg.state.cache.hosts (ascii "1.2.3.4") = some .blacklist := by
  have hstate : (Run.scheduled (ipSystem plainParse) emptyLists overtakenRebuild).map (fun past =>
      (past.2.state.rows, past.2.state.cache.hosts (ascii "1.2.3.4"))) =
        some ([], some .blacklist) := by
    decide +kernel
  have hcalls : (Run.scheduled (ipSystem plainParse) emptyLists overtakenRebuild).map (·.2.calls) =
      some (blockAndUnblock.map fun c => (c, .done true)) := rfl
  obtain ⟨past, hpast, heq⟩ := map_eq_some_iff.mp hstate
  rw [hpast] at hcalls
  obtain ⟨hrows, hhosts⟩ := Prod.mk.inj heq
  exact ⟨past.1, past.2, Run.scheduled_run (fun _ _ => trivial) hpast, some.inj hcalls, hrows,
    hhosts⟩

end HeyServer.Security
