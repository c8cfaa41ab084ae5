import HeyServer.Hub.ProfileStatus

/-!
# Agent hub: domain ensures

When at most one `ensure` of a node's domain is in flight. `EnqueueTask` looks for
one among the node's newest fifty tasks, so it misses an older one.

## Implementation notes

The calls of a sequence run one after the other. An ensure is keyed by the target
and domain the coalescing check reads from its stored payload.
-/

namespace HeyServer.Hub
open Lib List RowTable Service Prog Service Utf8

/-! ## Keys of ensures -/

/-- Target and domain of an ensure, as they are read from its row. -/
def TaskRow.ensureOf (row : TaskRow) : Option (Bytes × Bytes) :=
  if row.kind = .deployDomainAction then
    (unmarshalColumn row.payloadJson).bind fun payload =>
      if field payload "action" = ascii "ensure" then
        some (field payload "target", field payload "domain")
      else none
  else none

/-- Target and domain an ensure is asked for. -/
def TaskRequest.ensureKey (req : TaskRequest) : Bytes × Bytes :=
  (field req.payload "target", field req.payload "domain")

variable (db : Db)

/-- An ensure with this key is in flight under a row's key. -/
def Db.Ensuring (nodeId : Bytes) (key : Bytes × Bytes) (id : Nat) (row : TaskRow) : Prop :=
  db.tasks.get? id = some row ∧ row.nodeId = nodeId ∧ row.inFlight = true ∧ row.ensureOf = some key

/-- At most one ensure of each domain is in flight. -/
def Db.SingleEnsure : Prop :=
  ∀ nodeId key id id' row row', db.Ensuring nodeId key id row → db.Ensuring nodeId key id' row' →
    id = id'

theorem unmarshalColumn_eq (m : StrMap) : unmarshalColumn m.marshal = some m.readBack := by
  have hne : ¬(m.marshal = [] ∨ m.marshal = ascii "null") := by
    have hhead : m.marshal.head? = some 0x7B := by
      rw [StrMap.marshal, StrMap.toJson]
      cases m.entries <;> rfl
    rintro (h | h) <;> rw [h] at hhead <;> cases hhead
  rw [unmarshalColumn, if_neg hne, StrMap.unmarshal_marshal]

theorem ascii_fields : ∀ key ∈ ["action", "target", "domain"], ∀ b ∈ ascii key, b.toNat < 0x80 := by
  decide +kernel

/-- The key of a new row. -/
theorem ensureOf_newTaskRow (nodeId : Bytes) (req : TaskRequest) (stamp : Time) :
    (newTaskRow nodeId req.kind req.payload.marshal stamp).ensureOf = if isEnsure req then
        some (sanitize req.ensureKey.1, sanitize req.ensureKey.2) else none := by
  have hread : ∀ key ∈ ["action", "target", "domain"],
      field req.payload.readBack key = sanitize (field req.payload key) :=
    fun key hkey => StrMap.get_readBack req.payload (ascii_fields key hkey)
  have haction : sanitize (field req.payload "action") = ascii "ensure" ↔
      field req.payload "action" = ascii "ensure" := sanitize_eq_iff (by decide +kernel)
  rw [TaskRow.ensureOf, newTaskRow]
  rw [unmarshalColumn_eq, Option.bind_some, hread "action" (by decide), hread "target" (by decide),
    hread "domain" (by decide)]
  by_cases hkind : req.kind = .deployDomainAction
  · by_cases hensure : field req.payload "action" = ascii "ensure"
    · rw [if_pos hkind, if_pos (haction.mpr hensure)]
      simp [isEnsure, hkind, hensure, TaskRequest.ensureKey]
    · rw [if_pos hkind, if_neg (mt haction.mp hensure)]
      simp [isEnsure, hensure]
  · simp [isEnsure, hkind]

/-! ## Accepted keys are ASCII -/

theorem asciiLetterOrDigit_lt {r : Nat} (h : asciiLetterOrDigit r = true) : r < 0x80 := by
  simp only [asciiLetterOrDigit, Bool.or_eq_true, Bool.and_eq_true, decide_eq_true_eq] at h
  omega

theorem validName_ascii {bound : Nat} {others : String}
    (hothers : ∀ b ∈ ascii others, b.toNat < 0x80) {value : Bytes}
    (h : validName bound others value = true) : ∀ b ∈ value, b.toNat < 0x80 := by
  rw [validName, Bool.and_eq_true] at h
  apply ascii_of_runes
  have hrunes := h.2
  rw [runesMatch] at hrunes
  split at hrunes
  · next hnil =>
      rw [hnil]
      exact nofun
  · next first rest hcons =>
      rw [hcons]
      rw [Bool.and_eq_true, all_eq_true] at hrunes
      intro r hr
      rcases mem_cons.mp hr with rfl | hr
      · exact asciiLetterOrDigit_lt hrunes.1
      · rcases (Bool.or_eq_true _ _).mp (hrunes.2 r hr) with hletter | hother
        · exact asciiLetterOrDigit_lt hletter
        · obtain ⟨b, hb, hr⟩ := any_eq_true.mp hother
          rw [← of_decide_eq_true hr]
          exact hothers b hb

theorem validDeployDomainName_ascii {value : Bytes} (h : validDeployDomainName value = true) :
    ∀ b ∈ value, b.toNat < 0x80 := by
  intro b hb
  rw [validDeployDomainName, Bool.and_eq_true] at h
  rcases Text.mem_split 0x2E hb with rfl | ⟨label, hlabel, hb⟩
  · decide
  · have hvalid := all_eq_true.mp h.2 label hlabel
    rw [validDomainLabel, Bool.and_eq_true] at hvalid
    refine ascii_of_runes label ?_ b hb
    intro r hr
    have hrune := all_eq_true.mp hvalid.2 r hr
    simp only [Bool.or_eq_true, Bool.and_eq_true, decide_eq_true_eq] at hrune
    omega

variable {env : Env} {req : TaskRequest} {nodeId : Bytes} {id : Nat} {row : TaskRow} {s : HubState}
  {c : Call}

theorem validateTaskRequest_ensure
    (hvalid : validateTaskRequest env req = .ok ()) (hensure : isEnsure req = true) :
    sanitize req.ensureKey.1 = req.ensureKey.1 ∧
      sanitize req.ensureKey.2 = req.ensureKey.2 := by
  rw [isEnsure, Bool.and_eq_true, decide_eq_true_eq, decide_eq_true_eq] at hensure
  obtain ⟨hkind, haction⟩ := hensure
  have hfields : checkDeployDomainAction req.payload = .ok () := by
    have hchecked := validateTaskRequest_fields hvalid
    rw [hkind] at hchecked
    exact hchecked
  rw [checkDeployDomainAction, if_pos haction] at hfields
  obtain ⟨⟨⟩, hrequire, -⟩ := bind_eq_ok.mp hfields
  rw [require_eq_ok] at hrequire
  simp only [Bool.and_eq_true] at hrequire
  obtain ⟨⟨⟨-, htarget⟩, hdomain⟩, -⟩ := hrequire
  constructor
  · exact (sanitize_eq_iff (validName_ascii (by decide +kernel) htarget)).mpr rfl
  · exact (sanitize_eq_iff (validDeployDomainName_ascii hdomain)).mpr rfl

/-! ## The window -/

/-- The tasks the coalescing check looks at. -/
def Db.window (nodeId : Bytes) : List (Nat × TaskRow) :=
  db.tasks.latest (ofNode nodeId) recentTasks

theorem mem_window {db : Db}
    (h : (id, row) ∈ db.window nodeId) : db.tasks.get? id = some row ∧ row.nodeId = nodeId := by
  obtain ⟨hget, hnode⟩ := mem_select.mp (mem_reverse.mp (mem_of_mem_take h))
  exact ⟨hget, of_decide_eq_true hnode⟩

/-- The check sees what the row holds. -/
theorem sameEnsure_scanTask {context : String} {task : Task}
    (h : scanTask context id row = .ok task) (req : TaskRequest) :
    sameEnsure req.payload task = true ↔
      row.inFlight = true ∧ row.ensureOf = some req.ensureKey := by
  rw [scanTask] at h
  split at h
  · cases h
  next payload hpayload =>
  split at h
  · cases h
  cases h
  rw [TaskRow.ensureOf, hpayload, Option.bind_some]
  by_cases hkind : row.kind = .deployDomainAction
  · by_cases hensure : field payload "action" = ascii "ensure"
    · simp [sameEnsure, TaskRow.inFlight, TaskRequest.ensureKey, hkind, hensure, and_assoc]
    · simp [sameEnsure, hkind, hensure]
  · simp [sameEnsure, hkind]

variable {rows : List (Nat × TaskRow)}

theorem scanTasks_find? {tasks : List Task} (h : scanTasks rows = .ok tasks) (req : TaskRequest) :
    tasks.find? (sameEnsure req.payload) = none ↔ ∀ id row, (id, row) ∈ rows →
        ¬(row.inFlight = true ∧ row.ensureOf = some req.ensureKey) := by
  induction rows generalizing tasks with
  | nil =>
    cases h
    simp
  | cons first rest ih =>
    rw [scanTasks, mapM_cons] at h
    obtain ⟨task, htask, h⟩ := bind_eq_ok.mp h
    obtain ⟨tasks', htasks, h⟩ := bind_eq_ok.mp h
    cases h
    have hfirst := sameEnsure_scanTask htask req
    have hrest := ih htasks
    rw [find?_eq_none] at hrest ⊢
    constructor
    · intro hnone id row hmem
      rcases mem_cons.mp hmem with rfl | hmem
      · rw [← hfirst]
        exact hnone task mem_cons_self
      · exact hrest.mp (fun t ht => hnone t (mem_cons_of_mem _ ht)) id row hmem
    · intro hrows t ht
      rcases mem_cons.mp ht with rfl | ht
      · rw [hfirst]
        exact hrows first.1 first.2 mem_cons_self
      · exact hrest.mpr
          (fun id row hmem => hrows id row (mem_cons_of_mem _ hmem)) t ht

theorem scanTasks_readable
    (h : ∀ id row, (id, row) ∈ rows → row.Readable) : ∃ tasks, scanTasks rows = .ok tasks := by
  induction rows with
  | nil => exact ⟨[], rfl⟩
  | cons first rest ih =>
    obtain ⟨tasks, htasks⟩ := ih fun id row hmem => h id row (mem_cons_of_mem _ hmem)
    obtain ⟨task, htask, -⟩ := scanTask_readable (h first.1 first.2 mem_cons_self)
      "agent hub: list node task row" first.1
    refine ⟨task :: tasks, ?_⟩
    rw [scanTasks, mapM_cons]
    exact bind_eq_ok.mpr ⟨task, htask, bind_eq_ok.mpr ⟨tasks, htasks, rfl⟩⟩

/-! ## One call -/

/-- The database with one more task. -/
def Db.withTask (row : TaskRow) : Db := { db with tasks := db.tasks.insert row }

/-- A program of reads leaves the state as it is. -/
theorem run_reads {α : Type} {p : Prog Op Reply α} (h : p.Issues fun op => op.isRead = true)
    (s : HubState) : (p.run hubSemantics s).1 = s := by
  refine h.run_inv (I := fun t => t = s) ?_ rfl
  rintro _ op hop rfl
  exact exec_isRead hop _

theorem run_withLock_db {α : Type} (m : Mutex) (body : HubM α) (s : HubState) :
    ((withLock m body).run.run hubSemantics s).1.db =
      (body.run.run hubSemantics (s.exec (.lock m)).1).1.db := by
  change ((body.run >>= fun result => call (.unlock m) fun _ => .done result).run hubSemantics
    (s.exec (.lock m)).1).1.db = _
  rw [run_bind]
  rfl

/-- A node that exists gets its task. -/
theorem run_createTask_db {node : NodeRow}
    (hkind : req.kind ≠ .profileApply) (hnode : s.db.nodes nodeId = some node) (now : Time) :
    ((Repository.createTask nodeId req now).run.run hubSemantics s).1.db =
      s.db.withTask (newTaskRow nodeId req.kind req.payload.marshal now) := by
  have hinsert : s.db.insertTask nodeId req.kind req.payload.marshal now =
      .ok (s.db.withTask (newTaskRow nodeId req.kind req.payload.marshal now),
        s.db.tasks.seq + 1) := by
    rw [Db.insertTask, hnode]
    rfl
  have hexec : s.exec (.insertTask nodeId req.kind req.payload.marshal now) =
      ({ s with db := s.db.withTask (newTaskRow nodeId req.kind req.payload.marshal now) },
        .ok (s.db.tasks.seq + 1)) := by
    rw [HubState.exec, hinsert]
    rfl
  rw [Repository.createTask, if_neg hkind, run_bindE, run_bind]
  have hrun : (execute (.insertTask nodeId req.kind req.payload.marshal now) id).run.run
      hubSemantics s = s.exec (.insertTask nodeId req.kind req.payload.marshal now) := by
    change ((liftM (s.exec (.insertTask nodeId req.kind req.payload.marshal now)).2 :
      HubM Nat).run.run
      hubSemantics (s.exec (.insertTask nodeId req.kind req.payload.marshal now)).1) = _
    exact yields_liftM _ _ _
  rw [hrun, hexec]
  rw [run_reads (getTask_issues (fun _ h => h) _)]

/-- An ensure request that passes every check before the window. -/
structure EnsureAccepted (env : Env) (db : Db) (nodeId : Bytes) (req : TaskRequest) (now : Time) :
    Prop where
  valid : validateTaskRequest env req = .ok ()
  known : validNodeId nodeId = true
  node : ∃ row node, db.nodes nodeId = some row ∧
    scanNode env "agent hub: get node" nodeId row = .ok node ∧
    hasCapability node.capabilities .deployDomainAction = true ∧ isNodeOnline now node = true

/-- No ensure with the request's key is in flight in the window. -/
def Db.WindowFree (nodeId : Bytes) (req : TaskRequest) : Prop :=
  ∀ id row, (id, row) ∈ db.window nodeId →
    ¬(row.inFlight = true ∧ row.ensureOf = some req.ensureKey)

theorem yields_getNode (env : Env) (nodeId : Bytes) (s : HubState) :
    Prog.Yields hubSemantics (Repository.getNode env nodeId) s
      (orNotFound (s.db.nodes nodeId) (scanNode env "agent hub: get node" nodeId)) := by
  rw [getNode_eq_execute]
  exact yields_execute (.selectNode nodeId) rfl _ s

/-- What the call does once the request itself is accepted. -/
theorem run_ensure_known {clock : Clock} {tasks : List Task}
    (hensure : isEnsure req = true) (haccepted : EnsureAccepted env s.db nodeId req (clock 0))
    (htasks : scanTasks (s.db.window nodeId) = .ok tasks) :
    ((enqueueDeployDomainEnsure env nodeId req clock).run.run hubSemantics s).1.db =
      if tasks.find? (sameEnsure req.payload) = none then
        s.db.withTask (newTaskRow nodeId req.kind req.payload.marshal (clock 1)) else s.db := by
  have hkind : req.kind ≠ .profileApply := by
    rw [isEnsure, Bool.and_eq_true, decide_eq_true_eq] at hensure
    rw [hensure.1]
    decide
  obtain ⟨hvalid, hknown, row, node, hrow, hnode, hcapable, honline⟩ := haccepted
  generalize ht : (s.exec (.lock .deployDomainEnsure)).1 = t
  have hdb : t.db = s.db := by rw [← ht]; rfl
  rw [← hdb] at hrow htasks ⊢
  have hgetNode := yields_getNode env nodeId t
  rw [hrow, orNotFound, hnode] at hgetNode
  have hlist : Prog.Yields hubSemantics (Repository.listTasksForNode nodeId recentTasks) t
      (scanTasks (t.db.window nodeId)) :=
    yields_execute (.selectTasksForNode nodeId recentTasks) rfl scanTasks t
  rw [htasks] at hlist
  rw [enqueueDeployDomainEnsure, run_liftM_bind, hvalid]
  rw [if_neg (by simp [hknown]), run_withLock_db, ht, hgetNode.run_bind,
    if_neg (by simp [hcapable]),
    if_neg (by simp [honline]), hlist.run_bind]
  cases hfind : tasks.find? (sameEnsure req.payload) with
  | none =>
    exact run_createTask_db hkind hrow _
  | some task =>
    rw [if_neg (Option.some_ne_none task)]
    dsimp only
    split_ifs <;> rfl

/-- A request that fails a check before the window changes nothing. -/
theorem run_ensure_refused {clock : Clock} (h : ¬EnsureAccepted env s.db nodeId req (clock 0)) :
    ((enqueueDeployDomainEnsure env nodeId req clock).run.run hubSemantics s).1.db = s.db := by
  rw [enqueueDeployDomainEnsure, run_liftM_bind]
  cases hvalid : validateTaskRequest env req with
  | error e => rfl
  | ok u =>
    dsimp only
    split
    · rfl
    next hknown =>
    rw [run_withLock_db]
    generalize ht : (s.exec (.lock .deployDomainEnsure)).1 = t
    have hdb : t.db = s.db := by rw [← ht]; rfl
    rw [← hdb] at h ⊢
    have hread := yields_getNode env nodeId t
    cases hnode : orNotFound (t.db.nodes nodeId) (scanNode env "agent hub: get node" nodeId) with
    | error e =>
      rw [hnode] at hread
      rw [hread.bind_error.state_eq]
    | ok node =>
      rw [hnode] at hread
      rw [hread.run_bind]
      split_ifs with hcapable honline
      iterate 2 rfl
      refine absurd ⟨hvalid, by simpa using hknown, ?_⟩ h
      cases hrow : t.db.nodes nodeId with
      | none =>
        rw [hrow] at hnode
        cases hnode
      | some row =>
        rw [hrow] at hnode
        exact ⟨row, node, rfl, hnode, by simpa using hcapable, by simpa using honline⟩

/-- An ensure is created exactly when it is accepted and the window holds none. -/
theorem run_ensure_cases (env : Env) (nodeId : Bytes) (clock : Clock)
    (hensure : isEnsure req = true)
    (hreadable : ∀ id row, s.db.tasks.get? id = some row → row.Readable) :
    let db := ((enqueueTask env nodeId req clock).run.run hubSemantics s).1.db
    (EnsureAccepted env s.db nodeId req (clock 0) ∧ s.db.WindowFree nodeId req ∧
      db = s.db.withTask (newTaskRow nodeId req.kind req.payload.marshal (clock 1))) ∨
    (¬(EnsureAccepted env s.db nodeId req (clock 0) ∧ s.db.WindowFree nodeId req) ∧ db = s.db) := by
  rw [enqueueTask, if_pos hensure]
  by_cases haccepted : EnsureAccepted env s.db nodeId req (clock 0)
  · obtain ⟨tasks, htasks⟩ := scanTasks_readable fun id row hmem =>
      hreadable id row (mem_window hmem).1
    have hrun := run_ensure_known hensure haccepted htasks
    by_cases hfree : s.db.WindowFree nodeId req
    · rw [if_pos ((scanTasks_find? htasks req).mpr hfree)] at hrun
      exact .inl ⟨haccepted, hfree, hrun⟩
    · rw [if_neg (mt (scanTasks_find? htasks req).mp hfree)] at hrun
      exact .inr ⟨fun h => hfree h.2, hrun⟩
  · exact .inr ⟨fun h => haccepted h.1, run_ensure_refused haccepted⟩

/-! ## What calls do to the ensures in flight -/

/-- A call that asks for no ensure adds none. -/
theorem Db.Ensuring.before {op : Op} {key : Bytes × Bytes} (hop : op.IssuedBy env c)
    (hc : ∀ nodeId req, c.request = some (nodeId, req) → isEnsure req = false)
    (h : (s.exec op).1.db.Ensuring nodeId key id row) : ∃ old, s.db.Ensuring nodeId key id old := by
  obtain ⟨hget, hnode, hflight, hkey⟩ := h
  have hstep := exec_taskStep s op id
  rw [hget] at hstep
  rcases hstep.of_after with hnone | ⟨old, hold, hnode', hkind, hpayload, hflight'⟩
  · rw [hnone] at hstep
    obtain ⟨-, nodeId', kind, payload, stamp, hcreates, rfl⟩ := hstep.of_none
    cases op with
    | insertTask n k p t =>
      obtain ⟨rfl, rfl, rfl, rfl⟩ := hcreates
      obtain ⟨-, req, hreq, rfl, rfl⟩ := hop
      rw [ensureOf_newTaskRow, hc n req hreq] at hkey
      cases hkey
    | createApply n r normalized p t =>
      obtain ⟨-, rfl, -, -⟩ := hcreates
      cases hkey
    | _ => exact hcreates.elim
  · refine ⟨old, hold, hnode'.symm.trans hnode, hflight' hflight, ?_⟩
    rw [TaskRow.ensureOf, ← hkind, ← hpayload]
    exact hkey

theorem Db.SingleEnsure.step {op : Op} (h : s.db.SingleEnsure) (hop : op.IssuedBy env c)
    (hc : ∀ nodeId req, c.request = some (nodeId, req) → isEnsure req = false) :
    (s.exec op).1.db.SingleEnsure := by
  intro nodeId key id id' row row' hrow hrow'
  obtain ⟨old, hold⟩ := hrow.before hop hc
  obtain ⟨old', hold'⟩ := hrow'.before hop hc
  exact h nodeId key id id' old old' hold hold'

section
variable {db : Db} {nodeId : Bytes} {req : TaskRequest} {stamp : Time}

/-- The ensures in flight once one has been added. -/
theorem ensuring_insert (hensure : isEnsure req = true)
    (hkey : sanitize req.ensureKey.1 = req.ensureKey.1 ∧
      sanitize req.ensureKey.2 = req.ensureKey.2)
    (nodeId' : Bytes) (key : Bytes × Bytes) (id : Nat) (row : TaskRow) :
    (db.withTask (newTaskRow nodeId req.kind req.payload.marshal stamp)).Ensuring nodeId' key id row ↔
      (id = db.tasks.seq + 1 ∧ row = newTaskRow nodeId req.kind req.payload.marshal stamp ∧
        nodeId = nodeId' ∧ req.ensureKey = key) ∨ db.Ensuring nodeId' key id row := by
  have hnew : (newTaskRow nodeId req.kind req.payload.marshal stamp).ensureOf =
      some req.ensureKey := by
    rw [ensureOf_newTaskRow, if_pos hensure, hkey.1, hkey.2]
  rw [Db.Ensuring, Db.Ensuring, Db.withTask, get?_insert]
  split_ifs with hid
  · have hnone : db.tasks.get? id = none := by
      apply Option.eq_none_iff_forall_ne_some.mpr
      intro row hrow
      have := get?_le_seq hrow
      omega
    rw [hnone]
    constructor
    · rintro ⟨hrow, rfl, -, hof⟩
      cases hrow
      rw [hnew] at hof
      exact .inl ⟨hid, rfl, rfl, Option.some.inj hof⟩
    · rintro (⟨-, rfl, rfl, rfl⟩ | ⟨hrow, -⟩)
      · exact ⟨rfl, rfl, rfl, hnew⟩
      · cases hrow
  · constructor
    · exact .inr
    · rintro (⟨hid', -⟩ | h)
      · exact absurd hid' hid
      · exact h

theorem Db.SingleEnsure.insert (h : db.SingleEnsure) (hensure : isEnsure req = true)
    (hkey : sanitize req.ensureKey.1 = req.ensureKey.1 ∧
      sanitize req.ensureKey.2 = req.ensureKey.2)
    (hnone : ∀ id row, ¬db.Ensuring nodeId req.ensureKey id row) :
    (db.withTask (newTaskRow nodeId req.kind req.payload.marshal stamp)).SingleEnsure := by
  intro nodeId' key id id' row row' hrow hrow'
  rw [ensuring_insert hensure hkey] at hrow hrow'
  rcases hrow with ⟨hid, -, rfl, rfl⟩ | hold <;> rcases hrow' with ⟨hid', -, hnode, hkey'⟩ | hold'
  · rw [hid, hid']
  · exact absurd hold' (hnone id' row')
  · subst hnode hkey'
    exact absurd hold (hnone id row)
  · exact h nodeId' key id id' row row' hold hold'

end

/-- Every ensure in flight with this key is among the tasks the check looks at. -/
def Db.EnsureVisible (nodeId : Bytes) (key : Bytes × Bytes) : Prop :=
  ∀ id row, db.Ensuring nodeId key id row → (id, row) ∈ db.window nodeId

section
variable {env : Env} {nodeId : Bytes} {req : TaskRequest} {clock : Clock} {s : HubState}
  (hensure : isEnsure req = true)
  (hreadable : ∀ id row, s.db.tasks.get? id = some row → row.Readable)
include hensure hreadable

theorem Db.SingleEnsure.enqueue (h : s.db.SingleEnsure)
    (hvisible : EnsureAccepted env s.db nodeId req (clock 0) →
      s.db.EnsureVisible nodeId req.ensureKey) :
    ((enqueueTask env nodeId req clock).run.run hubSemantics s).1.db.SingleEnsure := by
  rcases run_ensure_cases env nodeId clock hensure hreadable with
    ⟨haccepted, hfree, hdb⟩ | ⟨-, hdb⟩
  · rw [hdb]
    refine h.insert hensure (validateTaskRequest_ensure haccepted.valid hensure) ?_
    intro id row hrow
    exact hfree id row (hvisible haccepted id row hrow) hrow.2.2
  · rw [hdb]
    exact h

/-- An accepted ensure doubles one the check does not see. -/
theorem Db.SingleEnsure.visible (h : s.db.SingleEnsure)
    (hafter : ((enqueueTask env nodeId req clock).run.run hubSemantics s).1.db.SingleEnsure)
    (haccepted : EnsureAccepted env s.db nodeId req (clock 0)) :
    s.db.EnsureVisible nodeId req.ensureKey := by
  intro id row hrow
  by_contra hout
  have hfree : s.db.WindowFree nodeId req := by
    intro id' row' hmem hmatch
    obtain ⟨hget, hnode⟩ := mem_window hmem
    have hsame := h nodeId req.ensureKey id id' row row' hrow ⟨hget, hnode, hmatch⟩
    subst hsame
    rw [hrow.1] at hget
    cases hget
    exact hout hmem
  rcases run_ensure_cases env nodeId clock hensure hreadable with
    ⟨-, -, hdb⟩ | ⟨hno, -⟩
  · rw [hdb] at hafter
    have hkey := validateTaskRequest_ensure haccepted.valid hensure
    have hid := hafter nodeId req.ensureKey id (s.db.tasks.seq + 1) row _
      ((ensuring_insert hensure hkey _ _ _ _).mpr (.inr hrow))
      ((ensuring_insert hensure hkey _ _ _ _).mpr (.inl ⟨rfl, rfl, rfl, rfl⟩))
    have hle := get?_le_seq hrow.1
    omega
  · exact hno ⟨haccepted, hfree⟩

end

/-! ## Sequences of calls -/

/-- The calls of the service, as opposed to those made to the repository past it. -/
def Call.ByService : Call → Prop
  | .saveNodeProfile .. | .createProfileApplyTask .. | .createTask .. | .claimNextTask ..
  | .repositoryCompleteTask .. => False
  | _ => True

theorem Call.ByService.validated (h : c.ByService) : c.Validated := by
  cases c <;> trivial

/-- The ensure a service call asks for, with the reading of the clock it is checked at. -/
theorem Call.ByService.ensure_or (h : c.ByService) :
    (∃ nodeId req clock, c = .enqueueTask nodeId req clock ∧ isEnsure req = true) ∨
      ∀ nodeId req, c.request = some (nodeId, req) → isEnsure req = false := by
  cases c with
  | enqueueTask nodeId req clock =>
    cases hensure : isEnsure req with
    | true => exact .inl ⟨nodeId, req, clock, rfl, hensure⟩
    | false =>
      right
      intro nodeId' req' hreq
      cases hreq
      exact hensure
  | enqueueIntegrationStatusTask | enqueueMetricsTask =>
    right
    intro nodeId' req' hreq
    cases hreq
    rfl
  | createTask nodeId req clock => exact h.elim
  | _ =>
    right
    intro nodeId' req' hreq
    cases hreq

/-- The state a sequence of calls leaves. -/
abbrev hubAfter (env : Env) (calls : List Call) : HubState :=
  Run.serialState (hub env) HubState.initial calls

section
variable {env : Env} {calls : List Call}

theorem readable_hubAfter (h : ∀ c ∈ calls, c.ByService) (id : Nat) :
    ∀ row, (hubAfter env calls).db.tasks.get? id = some row → row.Readable := by
  induction calls using reverseRecOn with
  | nil =>
    intro row hget
    cases hget.symm.trans (initial_tasks id)
  | append_singleton calls c ih =>
    rw [hubAfter, Run.serialState_append]
    refine Prog.Issues.run_inv (hub_issues env c (h c (by simp)).validated)
      (I := fun s : HubState => ∀ row, s.db.tasks.get? id = some row → row.Readable) ?_
      (ih fun c hc => h c (by simp [hc]))
    intro s op hop hs
    exact readable_step (exec_taskStep s op id) hop hs

theorem take_succ_of_getElem? {k : Nat} {c : Call} (h : calls[k]? = some c) :
    calls.take (k + 1) = calls.take k ++ [c] := by
  rw [take_add_one, h, Option.toList_some]

/-- At most one ensure of a domain is in flight all along a sequence of service calls exactly when
each ensure that gets to the check finds every ensure in flight with its key among the node's
newest fifty tasks. -/
theorem single_ensure_iff_visible (h : ∀ c ∈ calls, c.ByService) :
    (∀ k, (hubAfter env (calls.take k)).db.SingleEnsure) ↔
      ∀ k nodeId req clock, calls[k]? = some (.enqueueTask nodeId req clock) →
        isEnsure req = true →
        EnsureAccepted env (hubAfter env (calls.take k)).db nodeId req (clock 0) →
        (hubAfter env (calls.take k)).db.EnsureVisible nodeId req.ensureKey := by
  have hstarts : ∀ k, ∀ c ∈ calls.take k, c.ByService := fun k c hc => h c (mem_of_mem_take hc)
  -- an enqueue ends with what `enqueueTask` leaves
  have henqueue : ∀ {k nodeId req clock}, calls[k]? = some (.enqueueTask nodeId req clock) →
      (hubAfter env (calls.take (k + 1))).db =
        ((enqueueTask env nodeId req clock).run.run hubSemantics
          (hubAfter env (calls.take k))).1.db := by
    intro k nodeId req clock hcall
    rw [take_succ_of_getElem? hcall, hubAfter, Run.serialState_append]
    change (((fun t => Outcome.task (some t)) <$> enqueueTask env nodeId req clock).run.run
      hubSemantics _).1.db = _
    rw [run_mapE, run_bind]
    rfl
  constructor
  · intro hsingle k nodeId req clock hcall hensure haccepted
    have hafter := hsingle (k + 1)
    rw [henqueue hcall] at hafter
    exact (hsingle k).visible hensure (fun id => readable_hubAfter (hstarts k) id) hafter haccepted
  · intro hvisible k
    induction k with
    | zero =>
      intro nodeId key id id' row row' hrow
      cases hrow.1.symm.trans (initial_tasks id)
    | succ k ih =>
      cases hcall : calls[k]? with
      | none =>
        have hlen := getElem?_eq_none_iff.mp hcall
        rwa [take_of_length_le (by omega), ← take_of_length_le hlen]
      | some c =>
        rcases (h c (mem_of_getElem? hcall)).ensure_or with
          ⟨nodeId, req, clock, rfl, hensure⟩ | hother
        · rw [henqueue hcall]
          exact ih.enqueue hensure (fun id => readable_hubAfter (hstarts k) id)
            (hvisible k nodeId req clock hcall hensure)
        · rw [take_succ_of_getElem? hcall, hubAfter, Run.serialState_append]
          have hissues := hub_issues env c (h c (mem_of_getElem? hcall)).validated
          exact hissues.run_inv (I := fun s : HubState => s.db.SingleEnsure)
            (fun s op hop hs => hs.step hop hother) ih

end

/-- A node with few tasks has all of them in the window. -/
theorem ensureVisible_of_few {db : Db}
    (h : (db.tasks.select (ofNode nodeId)).length ≤ recentTasks) (key : Bytes × Bytes) :
    db.EnsureVisible nodeId key := by
  rintro id row ⟨hget, hnode, -⟩
  rw [Db.window, latest, take_of_length_le (by rwa [length_reverse])]
  exact mem_reverse.mpr (mem_select.mpr ⟨hget, decide_eq_true hnode⟩)

def ensureBeat : HeartbeatRequest Inventory where
  protocolVersion := protocolVersion
  nodeId := ascii "n1"
  agentVersion := []
  capabilities := [Capability.deployDomainAction.text, Capability.metricsRead.text]
  hostname := []
  sentAt := 2
  inventory := {}
  profile := none

/-- An ensure of one domain with an expected revision. -/
def ensureRequest (revision : Bytes) : TaskRequest where
  kind := .deployDomainAction
  payload := .ofList [(ascii "target", ascii "web.conf"), (ascii "domain", ascii "a.example"),
    (ascii "action", ascii "ensure"), (ascii "expected_revision", revision)]

/-- An ensure, other tasks, and an ensure of the same domain with another revision. -/
def ensureCalls (others : Nat) : List Call :=
  [.registerNode ⟨ascii "n1", ascii "node"⟩ (ascii "t") fun _ => 1,
    .heartbeat (ascii "n1") (ascii "t") ensureBeat fun _ => 2,
    .enqueueTask (ascii "n1") (ensureRequest (ascii "absent")) fun _ => 3] ++
  List.replicate others (.enqueueTask (ascii "n1") ⟨.metricsRead, .empty⟩ fun _ => 3) ++
  [.enqueueTask (ascii "n1") (ensureRequest (List.replicate 64 0x61)) fun _ => 3]

theorem ensureCalls_byService (others : Nat) : ∀ c ∈ ensureCalls others, c.ByService := by
  intro c hc
  rw [ensureCalls, mem_append, mem_append, mem_replicate] at hc
  rcases hc with (hc | ⟨-, rfl⟩) | hc
  · rcases mem_cons.mp hc with rfl | hc
    · trivial
    rcases mem_cons.mp hc with rfl | hc
    · trivial
    rw [mem_singleton.mp hc]
    trivial
  · trivial
  · rw [mem_singleton.mp hc]
    trivial

/-- Without tasks in between the second ensure finds the first. -/
theorem single_ensure_iff_visible_adjacent :
    (∀ c ∈ ensureCalls 0, c.ByService) ∧
      ∀ k, (hubAfter Env.plain ((ensureCalls 0).take k)).db.SingleEnsure := by
  refine ⟨ensureCalls_byService 0, (single_ensure_iff_visible (ensureCalls_byService 0)).mpr ?_⟩
  intro k nodeId req clock hcall _ haccepted
  refine ensureVisible_of_few ?_ _
  match k with
  | 0 | 1 => cases hcall
  | 2 | 3 =>
    cases hcall
    decide +kernel
  | k + 4 => cases hcall

/-- The revision an ensure expects, as it is read from its row. -/
def TaskRow.expectedRevision (row : TaskRow) : Option Bytes :=
  (unmarshalColumn row.payloadJson).map fun payload => field payload "expected_revision"

/-- Fifty other tasks hide an ensure in flight from the check: two of one domain are in flight, with
different revisions. -/
theorem ensure_doubled_past_window :
    ∃ row row', (hubAfter Env.plain (ensureCalls 50)).db.Ensuring (ascii "n1")
        (ascii "web.conf", ascii "a.example") 1 row ∧
      (hubAfter Env.plain (ensureCalls 50)).db.Ensuring (ascii "n1")
        (ascii "web.conf", ascii "a.example") 52 row' ∧
      row.expectedRevision ≠ row'.expectedRevision := by
  have hrows : ((hubAfter Env.plain (ensureCalls 50)).db.tasks.get? 1).any (fun row =>
      row.nodeId = ascii "n1" && row.inFlight &&
        row.ensureOf = some (ascii "web.conf", ascii "a.example") &&
        row.expectedRevision = some (ascii "absent")) &&
      ((hubAfter Env.plain (ensureCalls 50)).db.tasks.get? 52).any (fun row =>
      row.nodeId = ascii "n1" && row.inFlight &&
        row.ensureOf = some (ascii "web.conf", ascii "a.example") &&
        row.expectedRevision = some (replicate 64 0x61)) := by decide +kernel
  simp only [Bool.and_eq_true, Option.any_eq_true, decide_eq_true_eq] at hrows
  obtain ⟨⟨row, hget, ⟨⟨hnode, hflight⟩, hkey⟩, hrevision⟩,
    ⟨row', hget', ⟨⟨hnode', hflight'⟩, hkey'⟩, hrevision'⟩⟩ := hrows
  refine ⟨row, row', ⟨hget, hnode, hflight, hkey⟩, ⟨hget', hnode', hflight', hkey'⟩, ?_⟩
  rw [hrevision, hrevision']
  decide

end HeyServer.Hub
