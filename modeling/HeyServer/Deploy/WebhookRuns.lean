import HeyServer.Deploy.Targets
import HeyServer.Lib.Typestate

/-!
# Runs started by webhooks

A delivery is registered once, whatever requests and restarts are interleaved, so it starts at
most one run. A call holds the delivery it has registered until it has started its run, and
starts it only with a justification it has read from the store.
-/

namespace HeyServer.Deploy
open Lib Text List Option Function Prog Obeys

/-! ## What a run needs -/

/-- A request that justifies a run of the target for the delivery. -/
structure Justifies (env : WebhookEnv) (target : DeployTarget) (secret : Bytes)
    (request : WebhookRequest) (key : DeliveryKey) : Prop where
  targetId_eq : request.targetId = key.targetId
  provider_eq : target.webhookProvider = key.provider
  deliveryId_eq : headerDeliveryId key.provider request.headers = key.deliveryId
  signed : Signed env target.webhookProvider secret request.headers request.body
  push : IsPush target.webhookProvider request.headers
  ref : ∃ decoded, env.payloadRef request.body = some decoded ∧
    trimSpace decoded = headsPath ++ target.branch
  active : target.isActive = true
  autoDeploy : target.autoDeploy = true

/-- The store has received a request that justifies a run for the delivery. -/
def DeployStore.Justified (env : WebhookEnv) (s : DeployStore) (key : DeliveryKey) : Prop :=
  ∃ request ∈ s.received, ∃ target secret, s.stored key.targetId = some (target, some secret) ∧
    Justifies env target secret request key

/-- The deliveries for which runs were started. -/
def webhookKeys (runs : List DeployRun) : List DeliveryKey :=
  runs.filterMap fun run =>
    match run.trigger with
    | .manual => none
    | .webhook key => some key

theorem mem_webhookKeys {runs : List DeployRun} {key : DeliveryKey} :
    key ∈ webhookKeys runs ↔ ∃ run ∈ runs, run.trigger = .webhook key := by
  unfold webhookKeys
  rw [mem_filterMap]
  constructor
  · rintro ⟨run, hrun, hkey⟩
    refine ⟨run, hrun, ?_⟩
    cases htrigger : run.trigger with
    | manual => rw [htrigger] at hkey; cases hkey
    | webhook key' => rw [htrigger] at hkey; cases hkey; rfl
  · rintro ⟨run, hrun, hkey⟩
    exact ⟨run, hrun, by rw [hkey]⟩

variable (runs : List DeployRun)

theorem webhookKeys_concat_manual (id : Nat) (branch : Bytes) :
    webhookKeys (runs ++ [⟨id, .manual, branch⟩]) = webhookKeys runs := by
  rw [webhookKeys, filterMap_append]
  exact append_nil _

theorem webhookKeys_concat_webhook (id : Nat) (key : DeliveryKey) (branch : Bytes) :
    webhookKeys (runs ++ [⟨id, .webhook key, branch⟩]) = webhookKeys runs ++ [key] := by
  rw [webhookKeys, filterMap_append]
  rfl

/-! ## The invariant -/

section Invariant
variable {env : WebhookEnv} {s : DeployStore}

/-- Every delivery with a run is registered, has one run, and was justified. -/
structure Sound (env : WebhookEnv) (s : DeployStore) : Prop where
  once : (webhookKeys s.runs).Nodup
  registered : ∀ key ∈ webhookKeys s.runs, key ∈ s.deliveries
  justified : ∀ run ∈ s.runs, ∀ key, run.trigger = .webhook key →
    run.targetId = key.targetId ∧ s.Justified env key

/-- A step that starts no run and forgets nothing. -/
theorem Sound.keep {s' : DeployStore} (h : Sound env s) (hruns : s'.runs = s.runs)
    (hdeliveries : s.deliveries ⊆ s'.deliveries) (hreceived : s.received ⊆ s'.received)
    (hstored : s'.stored = s.stored) : Sound env s' := by
  refine ⟨hruns ▸ h.once, ?_, ?_⟩
  · rw [hruns]
    exact fun key hkey => hdeliveries (h.registered key hkey)
  · rw [hruns]
    intro run hrun key hkey
    obtain ⟨htarget, request, hrequest, target, secret, hsecret, hjustifies⟩ :=
      h.justified run hrun key hkey
    refine ⟨htarget, request, hreceived hrequest, target, secret, ?_, hjustifies⟩
    rw [hstored, hsecret]

/-- What a call has seen, and the delivery it has registered. -/
structure Evidence where
  received : List WebhookRequest
  rows : List (Nat × DeployTarget)
  secrets : List (Nat × Bytes)
  key : Option DeliveryKey

namespace Evidence
variable {g g' : Evidence}

def nothing : Evidence := ⟨[], [], [], none⟩

/-- The call has registered the delivery and can justify a run for it. -/
def Ready (env : WebhookEnv) (g : Evidence) (key : DeliveryKey) : Prop :=
  g.key = some key ∧ ∃ request ∈ g.received, ∃ row secret, (key.targetId, row) ∈ g.rows ∧
    (key.targetId, secret) ∈ g.secrets ∧
    row.webhookToken = webhookSecretReference key.targetId ∧ Justifies env row secret request key

def Permits (env : WebhookEnv) (g : Evidence) : DeployOp → Prop
  | .receive _ | .readTarget _ | .readSecret _ => True
  | .registerDelivery _ => g.key = none
  | .insertRun run =>
    match run.trigger with
    | .manual => True
    | .webhook key => run.targetId = key.targetId ∧ g.Ready env key
  | _ => False

def next (g : Evidence) : (op : DeployOp) → op.Reply → Evidence
  | .receive request, _ => { g with received := g.received ++ [request] }
  | .readTarget id, (row : Option DeployTarget) =>
    { g with rows := g.rows ++ row.toList.map fun row => (id, row) }
  | .readSecret id, (secret : Option Bytes) =>
    { g with secrets := g.secrets ++ secret.toList.map fun secret => (id, secret) }
  | .registerDelivery key, (inserted : Option Bool) =>
    if inserted = some true then { g with key := some key } else g
  | .insertRun _, _ => { g with key := none }
  | _, _ => g

structure Holds (g : Evidence) (s : DeployStore) : Prop where
  received : ∀ request ∈ g.received, request ∈ s.received
  rows : ∀ row ∈ g.rows, s.targets.get? row.1 = some row.2
  secrets : ∀ secret ∈ g.secrets, s.secrets secret.1 = some secret.2
  key : ∀ key, g.key = some key → key ∈ s.deliveries ∧ key ∉ webhookKeys s.runs

theorem holds_nothing (s : DeployStore) : nothing.Holds s := by
  refine ⟨?_, ?_, ?_, ?_⟩ <;> simp [nothing]

/-- A new key is registered once. -/
theorem registerDelivery_cases (s : DeployStore) (key : DeliveryKey) : (key ∉ s.deliveries ∧
      s.registerDelivery key = ({ s with deliveries := s.deliveries ++ [key] }, some true)) ∨
    ∃ reply, reply ≠ some true ∧ s.registerDelivery key = (s, reply) := by
  unfold DeployStore.registerDelivery
  split_ifs with _ hold
  · exact .inr ⟨none, by simp, rfl⟩
  · exact .inr ⟨some false, by simp, rfl⟩
  · exact .inl ⟨hold, rfl⟩

theorem insertRun_cases (s : DeployStore) (run : DeployRun) :
    (s.insertRun run).1 = { s with runs := s.runs ++ [run] } ∨ (s.insertRun run).1 = s := by
  unfold DeployStore.insertRun
  split_ifs
  · exact .inr rfl
  · exact .inl rfl

variable {op : DeployOp}

/-- What a permitted operation does to the store. -/
theorem exec_cases (hop : g.Permits env op) : (s.exec op).1 = s ∨
    (∃ request, (s.exec op).1 = { s with received := s.received ++ [request] }) ∨
    (∃ key, key ∉ s.deliveries ∧ (s.exec op).1 = { s with deliveries := s.deliveries ++ [key] }) ∨
    ∃ run, op = .insertRun run ∧ (s.exec op).1 = { s with runs := s.runs ++ [run] } := by
  cases op with
  | receive request => exact .inr (.inl ⟨request, rfl⟩)
  | readTarget | readSecret => exact .inl rfl
  | registerDelivery key =>
    rcases registerDelivery_cases s key with ⟨hnew, hexec⟩ | ⟨reply, -, hexec⟩
    · exact .inr (.inr (.inl ⟨key, hnew, congrArg Prod.fst hexec⟩))
    · exact .inl (congrArg Prod.fst hexec)
  | insertRun run =>
    rcases insertRun_cases s run with hexec | hexec
    · exact .inr (.inr (.inr ⟨run, rfl, hexec⟩))
    · exact .inl hexec
  | _ => exact hop.elim

/-- Facts of a call survive a step that forgets nothing and starts no run for its delivery. -/
theorem Holds.keep {s' : DeployStore} (h : g.Holds s) (htargets : s'.targets = s.targets)
    (hsecrets : s'.secrets = s.secrets) (hreceived : s.received ⊆ s'.received)
    (hdeliveries : s.deliveries ⊆ s'.deliveries)
    (hruns : ∀ key, g.key = some key → key ∉ webhookKeys s.runs → key ∉ webhookKeys s'.runs) :
    g.Holds s' := by
  refine ⟨fun request hrequest => hreceived (h.received request hrequest), ?_, ?_, ?_⟩
  · rw [htargets]
    exact h.rows
  · rw [hsecrets]
    exact h.secrets
  · intro key hkey
    obtain ⟨hregistered, hfree⟩ := h.key key hkey
    exact ⟨hdeliveries hregistered, hruns key hkey hfree⟩

/-- What a call knows is not disturbed by calls with another delivery. -/
theorem Holds.other (h : g.Holds s) (hop : g'.Permits env op)
    (hapart : Apart Evidence.key g g') : g.Holds (s.exec op).1 := by
  rcases exec_cases (s := s) hop with
    hsame | ⟨request, hsame⟩ | ⟨key, -, hsame⟩ | ⟨run, rfl, hsame⟩
  · rwa [hsame]
  · rw [hsame]
    exact h.keep rfl rfl (subset_append_left _ _) (List.Subset.refl _) fun _ _ hfree => hfree
  · rw [hsame]
    exact h.keep rfl rfl (List.Subset.refl _) (subset_append_left _ _) fun _ _ hfree => hfree
  · rw [hsame]
    refine h.keep rfl rfl (List.Subset.refl _) (List.Subset.refl _) fun key hkey hfree => ?_
    obtain ⟨id, trigger, branch⟩ := run
    cases trigger with
    | manual => rwa [webhookKeys_concat_manual]
    | webhook key' =>
      rw [webhookKeys_concat_webhook, mem_append, mem_singleton, not_or]
      refine ⟨hfree, ?_⟩
      rintro rfl
      exact hapart key hkey hop.2.1

/-- What a call knows after one of its operations. -/
theorem Holds.next (h : g.Holds s) (hsound : Sound env s)
    (hop : g.Permits env op) : (g.next op (s.exec op).2).Holds (s.exec op).1 := by
  cases op with
  | receive request =>
    have hkept : g.Holds { s with received := s.received ++ [request] } :=
      h.keep rfl rfl (subset_append_left _ _) (List.Subset.refl _) fun _ _ hfree => hfree
    refine ⟨?_, hkept.rows, hkept.secrets, hkept.key⟩
    exact forall_mem_snoc hkept.received mem_concat_self
  | readTarget id =>
    refine ⟨h.received, forall_mem_append.mpr ⟨h.rows, ?_⟩, h.secrets, h.key⟩
    exact forall_mem_map.mpr fun _ hread => mem_toList.mp hread
  | readSecret id =>
    refine ⟨h.received, h.rows, forall_mem_append.mpr ⟨h.secrets, ?_⟩, h.key⟩
    exact forall_mem_map.mpr fun _ hread => mem_toList.mp hread
  | registerDelivery key =>
    rcases registerDelivery_cases s key with ⟨hnew, hexec⟩ | ⟨reply, hreply, hexec⟩
    · have hkept : g.Holds { s with deliveries := s.deliveries ++ [key] } :=
        h.keep rfl rfl (List.Subset.refl _) (subset_append_left _ _) fun _ _ hfree => hfree
      show (if (s.registerDelivery key).2 = some true then _ else _ : Evidence).Holds
        (s.registerDelivery key).1
      rw [hexec, if_pos rfl]
      refine ⟨hkept.received, hkept.rows, hkept.secrets, ?_⟩
      intro key' hkey'
      cases hkey'
      exact ⟨mem_concat_self, fun hrun => hnew (hsound.registered key hrun)⟩
    · show (if (s.registerDelivery key).2 = some true then _ else _ : Evidence).Holds
        (s.registerDelivery key).1
      rw [hexec, if_neg hreply]
      exact h
  | insertRun run =>
    have hunlocked : ({ g with key := none } : Evidence).Holds s :=
      ⟨h.received, h.rows, h.secrets, fun _ hkey => by cases hkey⟩
    show ({ g with key := none } : Evidence).Holds (s.insertRun run).1
    rcases insertRun_cases s run with hexec | hexec
    · rw [hexec]
      exact hunlocked.keep rfl rfl (List.Subset.refl _) (List.Subset.refl _)
        fun _ hkey => by cases hkey
    · rwa [hexec]
  | _ => exact hop.elim

theorem webhookSecretReference_ne_nil (id : Nat) : webhookSecretReference id ≠ [] := by
  intro hempty
  exact absurd (append_eq_nil_iff.mp hempty).1 (by decide)

/-- A call that has read the target and its secret knows what is stored. -/
theorem Holds.stored (h : g.Holds s) {id : Nat} {row : DeployTarget} {secret : Bytes}
    (hrow : (id, row) ∈ g.rows) (hsecret : (id, secret) ∈ g.secrets)
    (htoken : row.webhookToken = webhookSecretReference id) :
    s.stored id = some ({ row with webhookToken := [] }, some secret) := by
  rw [DeployStore.stored, h.rows _ hrow, map_some, DeployStore.secretOf, htoken,
    if_neg (webhookSecretReference_ne_nil id), if_pos rfl, h.secrets _ hsecret]

/-- Only a delivery nobody has registered can be registered. -/
theorem key_free {key : DeliveryKey} (hkey : (g.next op (s.exec op).2).key = some key) :
    g.key = some key ∨ ∀ g' : Evidence, g'.Holds s → g'.key ≠ some key := by
  cases op with
  | registerDelivery key' =>
    have hkey : (if (s.registerDelivery key').2 =
        some true then { g with key := some key' } else g :
      Evidence).key = some key := hkey
    rcases registerDelivery_cases s key' with ⟨hnew, hexec⟩ | ⟨reply, hreply, hexec⟩
    · rw [hexec, if_pos rfl] at hkey
      cases hkey
      exact .inr fun g' hg' hheld => hnew (hg'.key key hheld).1
    · rw [hexec, if_neg hreply] at hkey
      exact .inl hkey
  | insertRun run => cases hkey
  | _ => exact .inl hkey

end Evidence

/-- The steps of calls. -/
theorem Sound.exec {g : Evidence} (h : Sound env s) (hknown : g.Holds s) {op : DeployOp}
    (hop : g.Permits env op) : Sound env (s.exec op).1 := by
  rcases Evidence.exec_cases (s := s) hop with
    hsame | ⟨request, hsame⟩ | ⟨key, -, hsame⟩ | ⟨run, rfl, hsame⟩
  · rwa [hsame]
  · rw [hsame]
    exact h.keep rfl (List.Subset.refl _) (subset_append_left _ _) rfl
  · rw [hsame]
    exact h.keep rfl (subset_append_left _ _) (List.Subset.refl _) rfl
  rw [hsame]
  obtain ⟨id, trigger, branch⟩ := run
  cases trigger with
  | manual =>
    refine ⟨?_, ?_, ?_⟩
    · rw [webhookKeys_concat_manual]
      exact h.once
    · rw [webhookKeys_concat_manual]
      exact h.registered
    · exact forall_mem_snoc h.justified fun key hkey => by cases hkey
  | webhook key =>
    obtain ⟨hid, hkey, request, hrequest, row, secret, hrow, hsecret, htoken, hjustifies⟩ := hop
    obtain ⟨hregistered, hfree⟩ := hknown.key key hkey
    refine ⟨?_, ?_, ?_⟩
    · rw [webhookKeys_concat_webhook]
      refine nodup_append.mpr ⟨h.once, nodup_singleton key, ?_⟩
      intro key' hold key'' hnew heq
      rw [heq, mem_singleton.mp hnew] at hold
      exact hfree hold
    · rw [webhookKeys_concat_webhook]
      exact forall_mem_snoc h.registered hregistered
    · refine forall_mem_snoc h.justified ?_
      intro key' hkey'
      cases hkey'
      refine ⟨hid, request, hknown.received request hrequest, _, secret,
        hknown.stored hrow hsecret htoken, ?_⟩
      obtain ⟨htarget, hprovider, hdelivery, hsigned, hpush, href, hactive, hauto⟩ := hjustifies
      exact ⟨htarget, hprovider, hdelivery, hsigned, hpush, href, hactive, hauto⟩

end Invariant

/-! ## The programs -/

section Obeys
variable {env : WebhookEnv} {α : Type} {g : Evidence}

/-- A call starts only runs it can justify. -/
abbrev Careful (env : WebhookEnv) (g : Evidence) (p : DeployProg α) : Prop :=
  p.Obeys (Evidence.Permits env) Evidence.next g

/-- What a call knows of a target it has resolved with a secret. -/
structure Evidence.Knows (g : Evidence) (id : Nat) (target : ResolvedTarget) : Prop where
  row : (id, target.row) ∈ g.rows
  secret : target.token ≠ [] → (id, target.token) ∈ g.secrets ∧
    target.row.webhookToken = webhookSecretReference id

/-- What a call keeps while it only reads. -/
structure Evidence.Extends (g g' : Evidence) : Prop where
  received : g.received ⊆ g'.received
  rows : g.rows ⊆ g'.rows
  secrets : g.secrets ⊆ g'.secrets
  key : g'.key = g.key

theorem careful_getTarget {id : Nat} {next : Option ResolvedTarget → DeployProg α}
    (hnone : ∀ g', g.Extends g' → Careful env g' (next none))
    (hsome : ∀ g' target, g.Extends g' → g'.Knows id target → Careful env g' (next (some target))) :
    Careful env g (getTarget id next) := by
  have hread : ∀ row, g.Extends (g.next (.readTarget id) row) :=
    fun _ => ⟨List.Subset.refl _, subset_append_left _ _, List.Subset.refl _, rfl⟩
  refine ⟨trivial, ?_⟩
  rintro (_ | row)
  · exact hnone _ (hread none)
  -- the row is known, then the secret
  have hrow : (id, row) ∈ (g.next (.readTarget id) (some row)).rows :=
    mem_concat_self
  have hunknown : ∀ status, (g.next (.readTarget id) (some row)).Knows id ⟨row, [], status⟩ :=
    fun status => ⟨hrow, fun hne => absurd rfl hne⟩
  refine ite (fun _ => hsome _ _ (hread _) (hunknown _)) fun _ => ?_
  refine ite (fun _ => hsome _ _ (hread _) (hunknown _)) fun htoken => ⟨trivial, ?_⟩
  have hreference : row.webhookToken = webhookSecretReference id := not_not.mp htoken
  obtain ⟨hreceived, hrows, -, hkey⟩ := hread (some row)
  have hread' : ∀ secret,
      g.Extends ((g.next (.readTarget id) (some row)).next (.readSecret id) secret) :=
    fun _ => ⟨hreceived, hrows, subset_append_left _ _, hkey⟩
  rintro (_ | secret)
  · exact hsome _ _ (hread' none) ⟨hrow, fun hne => absurd rfl hne⟩
  · refine ite (fun _ => ?_) fun _ => ?_
    · exact hsome _ _ (hread' _) ⟨hrow, fun _ => ⟨mem_concat_self, hreference⟩⟩
    · exact hsome _ _ (hread' _) ⟨hrow, fun hne => absurd rfl hne⟩

theorem Evidence.Extends.trans {g' g'' : Evidence} (h : g.Extends g') (h' : g'.Extends g'') :
    g.Extends g'' :=
  ⟨List.Subset.trans h.received h'.received, List.Subset.trans h.rows h'.rows,
    List.Subset.trans h.secrets h'.secrets, h'.key.trans h.key⟩

/-- A deployment is triggered by a call that may start the run. -/
theorem careful_triggerDeploy {id : Nat} {trigger : Trigger} {eligible : Bool}
    (hrun : ∀ g', g.Extends g' → ∀ branch, g'.Permits env (.insertRun ⟨id, trigger, branch⟩)) :
    Careful env g (triggerDeploy id trigger eligible respond) := by
  refine careful_getTarget (fun _ _ => trivial) fun g' target hext _ => ?_
  refine ite (fun _ => trivial) fun _ => ?_
  refine careful_getTarget (fun _ _ => trivial) fun g'' target' hext' _ => ?_
  refine ite (fun _ => ⟨hrun g'' (hext.trans hext') _, ?_⟩) fun _ => trivial
  rintro (_ | runId) <;> trivial

theorem careful_registerWebhookDelivery {key : DeliveryKey} {next : DeployProg DeployResponse}
    (hfree : g.key = none) (hnext : Careful env { g with key := some key } next) :
    Careful env g (registerWebhookDelivery key next) := by
  unfold registerWebhookDelivery
  cases key.provider with
  | other name => trivial
  | _ =>
    refine ite (fun _ => trivial) fun _ => ⟨hfree, ?_⟩
    rintro (_ | _ | _)
    · trivial
    · trivial
    · exact hnext

/-- A delivery that was authenticated under the secret of the target. -/
theorem careful_deployDelivery {id : Nat} {row : DeployTarget} {secret : Bytes}
    {delivery : WebhookDelivery} {request : WebhookRequest} (eligible : Bool)
    (hauthentic : authenticateWebhook env row.webhookProvider secret request.headers request.body
      request.now = .ok delivery)
    (hrequest : request ∈ g.received) (hid : request.targetId = id) (hrow : (id, row) ∈ g.rows)
    (hsecret : (id, secret) ∈ g.secrets) (htoken : row.webhookToken = webhookSecretReference id)
    (hfree : g.key = none) : Careful env g (deployDelivery id row delivery eligible) := by
  refine ite (fun _ => trivial) fun _ => ?_
  refine ite (fun _ => trivial) fun hevent => ?_
  have hpush : delivery.event = ascii "push" := not_not.mp hevent
  refine careful_registerWebhookDelivery hfree ?_
  refine ite (fun _ => trivial) fun hready => ?_
  refine ite (fun _ => trivial) fun href => ?_
  simp only [Bool.or_eq_true, not_or, Bool.not_eq_true', Bool.not_eq_false] at hready
  have haccepted := accepted_of_authenticateWebhook hauthentic hpush (not_not.mp href)
  have hjustifies : Justifies env row secret request
      ⟨id, delivery.provider, delivery.deliveryId⟩ := by
    refine ⟨hid, haccepted.provider_eq.symm, ?_, haccepted.signed, haccepted.push, haccepted.ref,
      hready.2, hready.1⟩
    rw [haccepted.provider_eq]
    exact haccepted.deliveryId_eq.symm
  refine careful_triggerDeploy fun g' hext _ => ⟨rfl, ?_⟩
  exact ⟨hext.key, request, hext.received hrequest, row, secret, hext.rows hrow,
    hext.secrets hsecret,
    htoken, hjustifies⟩

theorem careful_handleDeployWebhook (request : WebhookRequest) (eligible : Bool) :
    Careful env .nothing (handleDeployWebhook env request eligible) := by
  refine ⟨trivial, fun _ => ?_⟩
  have hrequest : request ∈ (Evidence.nothing.next (.receive request) ()).received :=
    mem_singleton.mpr rfl
  refine ite (fun _ => trivial) fun _ => ?_
  refine careful_getTarget (fun _ _ => trivial) fun g target hext hknows => ?_
  refine ite (fun _ => ite (fun _ => trivial) fun _ => trivial) fun htoken => ?_
  obtain ⟨hsecret, hreference⟩ := hknows.secret htoken
  cases hauthentic : authenticateWebhook env target.row.webhookProvider target.token
      request.headers request.body request.now with
  | error e => cases e <;> trivial
  | ok delivery =>
    exact careful_deployDelivery eligible hauthentic (hext.received hrequest) rfl hknows.row
      hsecret hreference hext.key

/-! ## Start-up -/

/-- The tokens the start-up has listed, and the secret it has written last. -/
structure Migration where
  listed : List (Nat × Bytes)
  written : Option (Nat × Bytes)

namespace Migration

/-- Only a token of an older version is moved, and its file is written first. -/
def Permits (g : Migration) : DeployOp → Prop
  | .listTokens => True
  | .writeSecret id secret =>
    (id, secret) ∈ g.listed ∧ secret ≠ [] ∧ secret ≠ webhookSecretReference id
  | .setReference id stored => g.written = some (id, stored) ∧ stored ≠ []
  | _ => False

def next (g : Migration) : (op : DeployOp) → op.Reply → Migration
  | .listTokens, (tokens : List (Nat × Bytes)) => { g with listed := tokens }
  | .writeSecret id secret, _ => { g with written := some (id, secret) }
  | _, _ => g

/-- A listed token is still in its row, or was moved to its file. -/
structure Holds (env : WebhookEnv) (g : Migration) (s : DeployStore) : Prop where
  sound : Sound env s
  listed : ∀ item ∈ g.listed, ∃ row, s.targets.get? item.1 = some row ∧
    (row.webhookToken = item.2 ∨
      row.webhookToken = webhookSecretReference item.1 ∧ s.secrets item.1 = some item.2)
  written : ∀ item, g.written = some item → s.secrets item.1 = some item.2

variable {g : Migration} {s : DeployStore}

/-- A listed token is moved to its file. -/
theorem Holds.writeSecret (h : Holds env g s) {id : Nat} {secret : Bytes}
    (hlisted : (id, secret) ∈ g.listed) (hnonempty : secret ≠ [])
    (hlegacy : secret ≠ webhookSecretReference id) :
    Holds env { g with written := some (id, secret) } (s.exec (.writeSecret id secret)).1 := by
  obtain ⟨row, hrow, hmoved⟩ := h.listed _ hlisted
  -- the file is not referred to yet, or has this secret already
  have hstored : (s.exec (.writeSecret id secret)).1.stored = s.stored := by
    funext key
    show (s.targets.get? key).map _ = (s.targets.get? key).map _
    by_cases hkey : key = id
    swap
    · refine congrArg (fun f => (s.targets.get? key).map f) (funext fun r => ?_)
      unfold DeployStore.secretOf
      rw [show (s.exec (.writeSecret id secret)).1.secrets key = s.secrets key from
        update_of_ne hkey _ _]
    subst hkey
    rw [hrow, map_some, map_some]
    refine congrArg (fun found => some (_, found)) ?_
    unfold DeployStore.secretOf
    rw [show (s.exec (.writeSecret key secret)).1.secrets key = some secret from
      update_self _ _ _]
    rcases hmoved with htoken | ⟨htoken, hfile⟩
    · rw [htoken, if_neg hnonempty, if_neg hlegacy, if_neg hnonempty, if_neg hlegacy]
    · rw [hfile]
  refine ⟨h.sound.keep rfl (List.Subset.refl _) (List.Subset.refl _) hstored, ?_, ?_⟩
  · rintro ⟨key, token⟩ hitem
    obtain ⟨row', hrow', hitem'⟩ := h.listed _ hitem
    refine ⟨row', hrow', ?_⟩
    rcases hitem' with htoken | ⟨htoken, hfile⟩
    · exact .inl htoken
    refine .inr ⟨htoken, ?_⟩
    show update s.secrets id (some secret) key = some token
    by_cases hkey : key = id
    swap
    · rw [update_of_ne hkey]
      exact hfile
    subst hkey
    cases hrow.symm.trans hrow'
    rw [update_self]
    rcases hmoved with hsame | ⟨-, hfile'⟩
    · exact absurd (hsame.symm.trans htoken) hlegacy
    · exact hfile'.symm.trans hfile
  · intro item hitem
    cases hitem
    exact update_self _ _ _

theorem get?_setReference (s : DeployStore) (id : Nat) (stored : Bytes) (key : Nat) :
    (s.exec (.setReference id stored)).1.targets.get? key = (s.targets.get? key).map fun row =>
      if key = id ∧ row.webhookToken = stored then
        { row with webhookToken := webhookSecretReference id }
      else row := by
  show (s.targets.update _ _).get? key = _
  rw [RowTable.get?_update]
  by_cases hkey : key = id <;> simp [hkey]

/-- The token gives way to the reference once its file is there. -/
theorem Holds.setReference (h : Holds env g s) {id : Nat} {stored : Bytes}
    (hwritten : g.written = some (id, stored)) (hnonempty : stored ≠ []) :
    Holds env g (s.exec (.setReference id stored)).1 := by
  have hfile : s.secrets id = some stored := h.written _ hwritten
  have hstored : (s.exec (.setReference id stored)).1.stored = s.stored := by
    funext key
    rw [DeployStore.stored, get?_setReference, Option.map_map, DeployStore.stored]
    refine congrArg (fun f => (s.targets.get? key).map f) (funext fun row => ?_)
    rw [Function.comp_apply]
    by_cases hmoved : key = id ∧ row.webhookToken = stored
    swap
    · rw [if_neg hmoved]
      rfl
    rw [if_pos hmoved]
    obtain ⟨rfl, htoken⟩ := hmoved
    refine congrArg (fun found => (_, found)) ?_
    show (if webhookSecretReference key = [] then none
      else if webhookSecretReference key = webhookSecretReference key then s.secrets key
      else some (webhookSecretReference key)) = _
    rw [if_neg (Evidence.webhookSecretReference_ne_nil key), if_pos rfl, DeployStore.secretOf,
      htoken, if_neg hnonempty, hfile]
    split_ifs <;> rfl
  refine ⟨h.sound.keep rfl (List.Subset.refl _) (List.Subset.refl _) hstored, ?_, h.written⟩
  rintro ⟨key, token⟩ hitem
  obtain ⟨row, hrow, hitem'⟩ := h.listed _ hitem
  rw [get?_setReference, hrow, map_some]
  refine ⟨_, rfl, ?_⟩
  split_ifs with hmoved
  · obtain ⟨rfl, htoken⟩ := hmoved
    refine .inr ⟨rfl, ?_⟩
    rcases hitem' with hsame | ⟨-, hfile'⟩
    · rw [← hsame, htoken]
      exact hfile
    · exact hfile'
  · exact hitem'

theorem Holds.exec (h : Holds env g s) {op : DeployOp} (hop : g.Permits op) :
    Holds env (g.next op (s.exec op).2) (s.exec op).1 := by
  cases op with
  | listTokens =>
    refine ⟨h.sound, ?_, h.written⟩
    intro item hitem
    obtain ⟨row, hrow, rfl⟩ := mem_map.mp (mem_of_mem_filter hitem)
    exact ⟨row.2, RowTable.mem_rows.mp hrow, .inl rfl⟩
  | writeSecret id secret => exact h.writeSecret hop.1 hop.2.1 hop.2.2
  | setReference id stored => exact h.setReference hop.1 hop.2
  | _ => exact hop.elim

theorem obeys_migrateWebhookSecrets {tokens : List (Nat × Bytes)}
    (h : ∀ item ∈ tokens, item ∈ g.listed) :
      (migrateWebhookSecrets tokens).Obeys Permits next g := by
  induction tokens generalizing g with
  | nil => trivial
  | cons item rest ih =>
    obtain ⟨id, stored⟩ := item
    have hrest : ∀ item ∈ rest, item ∈ g.listed :=
      fun item hitem => h item (mem_cons_of_mem _ hitem)
    refine ite (fun _ => ih hrest) fun hlegacy => ?_
    refine ite (fun _ => trivial) fun _ => ?_
    refine ite (fun hvalid => ?_) fun _ => trivial
    have hnonempty : stored ≠ [] := by
      rintro rfl
      exact absurd hvalid (by decide)
    refine ⟨⟨h _ mem_cons_self, hnonempty, hlegacy⟩, fun _ => ⟨⟨rfl, hnonempty⟩, fun _ => ?_⟩⟩
    exact ih hrest

end Migration

theorem Sound.reboots {s s' : DeployStore} (h : Sound env s)
    (reboots : Reboots deploySemantics id newService s s') : Sound env s' := by
  have hobeys : newService.Obeys Migration.Permits Migration.next ⟨[], none⟩ :=
    ⟨trivial, fun _ => Migration.obeys_migrateWebhookSecrets fun _ hitem => hitem⟩
  refine reboots.keeps hobeys (K := Migration.Holds env) ?_ (fun _ _ hK => hK.sound)
    (fun _ _ _ hK hop => hK.exec hop) h
  exact fun s hs => ⟨hs, (fun _ hitem => by cases hitem), fun _ hitem => by cases hitem⟩

end Obeys

/-! ## Every run -/

theorem sound_of_restarts {env : WebhookEnv} {init : DeployStore} (hfresh : init.runs = [])
    {cfg : Config DeployStore DeployOp DeployOp.Reply DeployCall DeployResponse}
    (run : Restarts (deploySystem env) (fun _ => True) (Reboots deploySemantics id newService) init
      cfg) : Sound env cfg.state := by
  refine run.typed (I := Sound env) (Evidence.Permits env) Evidence.next Evidence.Holds Evidence.key
    .nothing rfl ?_ ?_ (fun _ _ hs hreboot => hs.reboots hreboot)
    (fun s _ => Evidence.holds_nothing s)
    (fun _ _ _ _ hs hK hop => ⟨hs.exec hK hop, hK.next hs hop⟩)
    (fun _ _ _ _ _ _ _ _ hkey => Evidence.key_free hkey)
    (fun _ _ _ _ _ _ hK _ hop hapart => hK.other hop hapart)
  · rintro (⟨request, eligible⟩ | ⟨id, eligible⟩) -
    · exact careful_handleDeployWebhook request eligible
    · exact careful_triggerDeploy fun _ _ _ => trivial
  · refine ⟨?_, ?_, ?_⟩ <;> simp [hfresh, webhookKeys]

/-- Whatever requests, duplicates and restarts are interleaved: no delivery has two runs, and
before each run a request arrived that carries its delivery id, is signed with the secret
stored for the target, is a push, and names the branch of the target, which is active and has
automatic deployments enabled. -/
theorem webhook_runs_once_and_justified (env : WebhookEnv) {init : DeployStore}
    (hfresh : init.runs = [])
    {cfg : Config DeployStore DeployOp DeployOp.Reply DeployCall DeployResponse}
    (run : Restarts (deploySystem env) (fun _ => True) (Reboots deploySemantics id newService) init
      cfg) :
    (webhookKeys cfg.state.runs).Nodup ∧
      ∀ started ∈ cfg.state.runs, ∀ key, started.trigger = .webhook key →
        started.targetId = key.targetId ∧ ∃ request ∈ cfg.state.received, ∃ target secret,
          cfg.state.stored key.targetId = some (target, some secret) ∧
            Justifies env target secret request key := by
  have hsound := sound_of_restarts hfresh run
  exact ⟨hsound.once, hsound.justified⟩

/-- A keyed hash; a body is the ref it names. -/
def plainEnv : WebhookEnv := ⟨fun key body => [(key ++ body).foldl (· + ·) 0], some⟩

/-- One target with its secret in a file. -/
def oneTarget : DeployStore where
  targets := RowTable.empty.insert ⟨ascii "main", .gitHub, webhookSecretReference 1, true, true⟩
  secrets id := if id = 1 then some (ascii "key") else none
  deliveries := []
  runs := []
  received := []

/-- A push to the branch of the target. -/
def pushRequest : WebhookRequest where
  targetId := 1
  headers := ⟨ascii "push", ascii "d-1", ascii "sha256=01", [], [], [], []⟩
  body := ascii "refs/heads/main"
  now := 0

/-- The store after the same delivery arrived twice. -/
def deliveredTwice : DeployStore :=
  (Run.serialRun (deploySystem plainEnv) oneTarget
    [.webhook pushRequest true, .webhook pushRequest true]).2.state

theorem webhook_runs_deliveredTwice :
    webhookKeys deliveredTwice.runs = [⟨1, .gitHub, ascii "d-1"⟩] ∧
      ∃ request ∈ deliveredTwice.received, ∃ target secret,
        deliveredTwice.stored 1 = some (target, some secret) ∧
          Justifies plainEnv target secret request ⟨1, .gitHub, ascii "d-1"⟩ := by
  have hready : Run.serialReady (deploySystem plainEnv) ([], ⟨oneTarget, []⟩)
      [.webhook pushRequest true, .webhook pushRequest true] = true := by
    decide +kernel
  have hrun : Run (deploySystem plainEnv) (fun _ => True) oneTarget _ _ :=
    Run.serialRun_run [.webhook pushRequest true, .webhook pushRequest true] (fun _ _ => trivial)
      hready
  have hkeys : webhookKeys deliveredTwice.runs = [⟨1, .gitHub, ascii "d-1"⟩] := by decide +kernel
  have hstarted : (⟨1, .gitHub, ascii "d-1"⟩ : DeliveryKey) ∈ webhookKeys deliveredTwice.runs := by
    exact mem_singleton.mpr rfl
  obtain ⟨started, hmem, htrigger⟩ := mem_webhookKeys.mp hstarted
  exact ⟨hkeys, ((webhook_runs_once_and_justified plainEnv rfl (hrun.restarts _)).2 started hmem _
    htrigger).2⟩

end HeyServer.Deploy
