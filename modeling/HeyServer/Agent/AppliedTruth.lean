import HeyServer.Agent.LifecycleSteps

/-!
# Applied observations and the configuration in use

A heartbeat reads the profile files again, while the running agent keeps the
configuration it loaded when it started. The installer restarts the agent before
it writes the active file, so an observation `applied` can name a profile that the
process does not use. As long as the active file does not change under an agent
that has read it, the observation is truthful.

## Implementation notes

The run rule is `Run.follows`: what a heartbeat sends and what a starting process
configures is determined by the two reads the same call made before.
-/

namespace HeyServer.Agent
open Lib Hub List

abbrev NodeEvent := Event Node NodeOp NodeCall

/-- The runs of agent, installer and service manager on one node. -/
abbrev NodeRun (env : Installer.Env) (init : Node) (trace : List NodeEvent)
    (cfg : Config Node NodeOp NodeReply NodeCall NodeValue) : Prop :=
  Run (nodeSystem env) (fun _ => True) init trace cfg

/-- An observation `applied` sent by this event names the profile the process uses: the active
file carries that revision and its profile is the deployment configuration. -/
def Truthful (e : NodeEvent) : Prop :=
  ∀ pid observation, e.op = .send pid (some observation) → observation.state = .applied →
    ∃ wrapper, readWrapper (e.before.files .active) = .ok (some wrapper) ∧
      wrapper.revision = observation.revision ∧
      e.before.agent = some ⟨pid, some (applyProfileOverlay wrapper.profile)⟩

/-- A readable active profile loads without an error. -/
def Node.Loadable (node : Node) : Prop :=
  ∀ wrapper, readWrapper (node.files .active) = .ok (some wrapper) →
    (loadActiveProfile (node.files .active) (node.files .state)).failed = false

/-- The step leaves the active file as it is while a process runs that has read it, and a
starting agent finds a state file that fits the active file. -/
structure Calm (earlier : List NodeEvent) (e : NodeEvent) : Prop where
  active_kept : ∀ seen ∈ earlier, ∀ pid, seen.op = .read (.agent pid) .active →
    e.before.runs pid = true →
    (e.after nodeSemantics).files .active = e.before.files .active
  start_loadable : ∀ pid env, e.call = .startAgent pid env →
    e.op = .read (.agent pid) .state → e.before.Loadable

/-- Every step is calm. -/
def CalmRun (trace : List NodeEvent) : Prop :=
  ∀ earlier e later, trace = earlier ++ e :: later → Calm earlier e

variable {trace : List NodeEvent} {e : NodeEvent}

theorem CalmRun.init (h : CalmRun (trace ++ [e])) : CalmRun trace :=
  fun earlier e' later htrace => h earlier e' (later ++ [e]) (by simp [htrace])

/-! ## What a call does next -/

/-- The two reads of a call. -/
def readBoth (pid : Nat) (first second : Node) : List (Node × NodeOp) :=
  [(first, .read (.agent pid) .active), (second, .read (.agent pid) .state)]

/-- The next operation of a call, given what it has done. -/
def NodeCall.Next : NodeCall → List (Node × NodeOp) → NodeOp → Prop
  | .startAgent pid env, own, op =>
    op = .read (.agent pid) .active ∨
    (∃ first, own = [(first, .read (.agent pid) .active)] ∧ op = .read (.agent pid) .state) ∨
    ∃ first second, own = readBoth pid first second ∧
      op = .configure pid (loadConfigFromEnv env (first.files .active) (second.files .state))
  | .heartbeat pid _, own, op => op.Quiet ∨ op = .send pid none ∨
      ∃ first second, own = readBoth pid first second ∧ op = .send pid
        (some (loadActiveProfile (first.files .active) (second.files .state)).observation)
  | _, _, op => op.Quiet

theorem nodeCall_follows (env : Installer.Env) (c : NodeCall) :
    (c.program env).Follows nodeSemantics c.Next [] := by
  cases c with
  | boot | exit => exact (Prog.Issues.map (issues_issue _ trivial)).follows (fun _ _ h => h) []
  | startAgent pid deploy =>
    refine ⟨.inl rfl, fun first => ⟨.inr (.inl ⟨first, rfl, rfl⟩), fun second =>
      ⟨.inr (.inr ⟨first, second, rfl, rfl⟩), ?_⟩⟩⟩
    exact fun _ => trivial
  | heartbeat pid ready =>
    cases ready with
    | false => exact ⟨.inr (.inl rfl), fun _ => trivial⟩
    | true =>
      refine ⟨.inl trivial, fun first => ⟨.inl trivial, fun second =>
        ⟨.inr (.inr ⟨first, second, rfl, rfl⟩), ?_⟩⟩⟩
      exact fun _ => trivial
  | apply pid payload faults =>
    exact (Prog.Issues.map (issues_apply pid payload faults)).follows (fun _ _ h => h) []
  | applyProfile faults =>
    exact (Prog.Issues.map (Installer.issues_applyProfile env faults)).follows
      (fun _ _ h => h.quiet) []

variable {own : List (Node × NodeOp)}

theorem NodeCall.next_configure {c : NodeCall} {pid : Nat}
    {config : DeployConfig} (h : c.Next own (.configure pid config)) :
    ∃ env first second, c = .startAgent pid env ∧ own = readBoth pid first second ∧
      config = loadConfigFromEnv env (first.files .active) (second.files .state) := by
  cases c with
  | startAgent owner env =>
    rcases h with h | ⟨_, _, h⟩ | ⟨first, second, hown, h⟩
    · cases h
    · cases h
    · cases h
      exact ⟨env, first, second, rfl, hown, rfl⟩
  | heartbeat owner ready =>
    rcases h with h | h | ⟨_, _, _, h⟩
    · exact h.elim
    · cases h
    · cases h
  | _ => exact h.elim

theorem NodeCall.next_send {c : NodeCall} {pid : Nat}
    {observation : AgentProfileObservation} (h : c.Next own (.send pid (some observation))) :
    ∃ first second, own = readBoth pid first second ∧
      observation = (loadActiveProfile (first.files .active)
        (second.files .state)).observation := by
  cases c with
  | startAgent owner env =>
    rcases h with h | ⟨_, _, h⟩ | ⟨_, _, _, h⟩ <;> cases h
  | heartbeat owner ready =>
    rcases h with h | h | ⟨first, second, hown, h⟩
    · exact h.elim
    · cases h
    · cases h
      exact ⟨first, second, hown, rfl⟩
  | _ => exact h.elim

/-! ## One process along a run -/

/-- Identifiers are never used again, and in a calm run the active file stays as a running
process has read it. -/
structure ProcessInv (trace : List NodeEvent) (node : Node) : Prop where
  fresh : ∀ pid, node.runs pid = true → pid < node.nextPid
  earlier : ∀ e ∈ trace, ∀ pid, e.before.runs pid = true → pid < node.nextPid
  active : CalmRun trace → ∀ e ∈ trace, ∀ pid, e.op = .read (.agent pid) .active →
    e.before.runs pid = true → node.runs pid = true →
    e.before.files .active = node.files .active

theorem ProcessInv.step
    (h : ProcessInv trace e.before) : ProcessInv (trace ++ [e]) (e.after nodeSemantics) := by
  have hstep : e.before.ProcessStep (e.after nodeSemantics) := e.before.exec_processStep e.op
  have hall : ∀ e' ∈ trace ++ [e], ∀ pid, e'.before.runs pid = true → pid < e.before.nextPid :=
    forall_mem_snoc h.earlier h.fresh
  -- while the process stays, the step is calm; a new process has no earlier states
  cases hstep with
  | kept hpid hnext =>
    have hruns : ∀ pid, (e.after nodeSemantics).runs pid = true → e.before.runs pid = true := by
      intro pid h
      rw [Node.runs_iff] at h ⊢
      rw [← hpid, h]
    refine ⟨?_, ?_, ?_⟩
    · intro pid hpid
      rw [hnext]
      exact h.fresh pid (hruns pid hpid)
    · rw [hnext]
      exact hall
    · intro hcalm e' he' pid hread hbefore hafter
      rcases mem_append.mp he' with he' | he'
      · rw [(hcalm trace e [] rfl).active_kept e' he' pid hread (hruns pid hafter)]
        exact h.active hcalm.init e' he' pid hread hbefore (hruns pid hafter)
      · obtain rfl := mem_singleton.mp he'
        rw [Event.after, hread]
        rfl
  | gone hagent hnext =>
    have hnone : ∀ pid, (e.after nodeSemantics).runs pid = true → False := by
      intro pid h
      rw [Node.runs, hagent] at h
      cases h
    refine ⟨fun pid h => (hnone pid h).elim, ?_, fun _ _ _ pid _ _ h => (hnone pid h).elim⟩
    rw [hnext]
    exact hall
  | spawned hagent hnext =>
    have hnew : ∀ pid, (e.after nodeSemantics).runs pid = true → pid = e.before.nextPid := by
      intro pid h
      rw [Node.runs_iff, hagent] at h
      exact (Option.some.inj h).symm
    refine ⟨?_, ?_, ?_⟩
    · intro pid hpid
      rw [hnext, hnew pid hpid]
      omega
    · intro e' he' pid hpid
      have := hall e' he' pid hpid
      omega
    · intro _ e' he' pid _ hbefore hafter
      have := hall e' he' pid hbefore
      rw [hnew pid hafter] at this
      omega

/-- The configuration of the running process was set by an event of that process. -/
def Configured (trace : List NodeEvent) (node : Node) : Prop :=
  ∀ process config, node.agent = some process → process.config = some config →
    ∃ earlier e later, trace = earlier ++ e :: later ∧ (∃ pid, e.op = .configure pid config) ∧
      e.before.runs process.pid = true

theorem Configured.step (h : Configured trace e.before) :
    Configured (trace ++ [e]) (e.after nodeSemantics) := by
  intro process config hagent hconfig
  have hextend : e.before.agent = some process → ∃ earlier e' later,
      trace ++ [e] = earlier ++ e' :: later ∧ (∃ pid, e'.op = .configure pid config) ∧
        e'.before.runs process.pid = true := by
    intro hbefore
    obtain ⟨earlier, e', later, rfl, hop, hruns⟩ := h process config hbefore hconfig
    exact ⟨earlier, e', later ++ [e], by simp, hop, hruns⟩
  cases hop : e.op with
  | configure pid set =>
    have hmap : (e.before.agent.map fun process => { process with config := some set }) =
        some process := by
      rw [← hagent, Event.after, hop]
      rfl
    obtain ⟨old, hold, rfl⟩ := Option.map_eq_some_iff.mp hmap
    cases hconfig
    exact ⟨trace, e, [], rfl, ⟨pid, hop⟩, Node.runs_iff.mpr (by rw [hold]; rfl)⟩
  | start | restart =>
    rw [Event.after, hop] at hagent
    cases hagent
    cases hconfig
  | stop =>
    rw [Event.after, hop] at hagent
    cases hagent
  | _ =>
    rw [Event.after, hop] at hagent
    exact hextend hagent

/-! ## Truthful observations -/

section Runs
variable {env : Installer.Env} {init : Node} {trace : List NodeEvent}
  {cfg : Config Node NodeOp NodeReply NodeCall NodeValue}
  {earlier later : List NodeEvent} {e : NodeEvent}

section
variable (run : NodeRun env init trace cfg) (hinit : init.agent = none)
include run hinit

theorem processInv (h : trace = earlier ++ e :: later) : ProcessInv earlier e.before := by
  have hstart : ProcessInv [] init := by
    have hnone : ∀ pid, init.runs pid = true → False := by
      intro pid h
      rw [Node.runs, hinit] at h
      cases h
    exact ⟨fun pid h => (hnone pid h).elim, by simp, by simp⟩
  exact run.evolves_before (J := ProcessInv) hstart (fun _ _ _ h => h.step) h

theorem configured (h : trace = earlier ++ e :: later) : Configured earlier e.before := by
  have hstart : Configured [] init := by
    intro process config hagent
    rw [hinit] at hagent
    cases hagent
  exact run.evolves_before (J := Configured) hstart (fun _ _ _ h => h.step) h

/-- In a calm run, what a process has read as its active file is the active file as long as
it runs. -/
theorem active_of_read (hcalm : CalmRun trace)
    (h : trace = earlier ++ e :: later) {pid id : Nat} (hruns : e.before.runs pid = true)
    {first : Node} (hread : (first, .read (.agent pid) .active) ∈ ownSteps id earlier) :
    first.files .active = e.before.files .active := by
  obtain ⟨seen, hseen, -, rfl, hop⟩ := mem_ownSteps.mp hread
  have hsub : CalmRun earlier := fun a b c habc => hcalm a b (c ++ e :: later) (by simp [h, habc])
  obtain ⟨before, after, hsplit⟩ := append_of_mem hseen
  have htrace : trace = before ++ seen :: (after ++ e :: later) := by simp [h, hsplit]
  have hready := (run.follows (P := NodeCall.Next) (fun c _ => nodeCall_follows env c) htrace).2
  rw [hop] at hready
  exact (processInv run hinit h).active hsub seen hseen pid hop hready hruns

/-- In a calm run a running process uses the profile of the active file if there is one. -/
theorem config_of_active (hcalm : CalmRun trace)
    (h : trace = earlier ++ e :: later) {process : Process} {config : DeployConfig}
    (hagent : e.before.agent = some process) (hconfig : process.config = some config)
    {wrapper : ProfileWrapper} (hactive : readWrapper (e.before.files .active) =
      .ok (some wrapper)) :
    config = applyProfileOverlay wrapper.profile := by
  have hruns : e.before.runs process.pid = true := Node.runs_iff.mpr (by rw [hagent]; rfl)
  obtain ⟨before, set, after, hset, ⟨owner, hop⟩, hsetRuns⟩ :=
    configured run hinit h process config hagent hconfig
  have htrace : trace = before ++ set :: (after ++ e :: later) := by simp [h, hset]
  obtain ⟨hnext, hready⟩ := run.follows (P := NodeCall.Next) (fun c _ => nodeCall_follows env c)
    htrace
  rw [hop] at hnext hready
  obtain ⟨deploy, first, second, hcall, hown, rfl⟩ := NodeCall.next_configure hnext
  -- the configuring process is the one that runs
  have howner : owner = process.pid := by
    obtain ⟨running, hrunning, hpid⟩ := (Option.any_eq_true _ _).mp hready
    rw [Bool.and_eq_true, decide_eq_true_eq] at hpid
    rw [Node.runs_iff, hrunning] at hsetRuns
    exact hpid.1.symm.trans (Option.some.inj hsetRuns)
  subst howner
  have hsub : ∀ {step}, step ∈ ownSteps set.id before → step ∈ ownSteps set.id earlier := by
    rintro ⟨s, op⟩ hstep
    obtain ⟨e', he', hfacts⟩ := mem_ownSteps.mp hstep
    exact mem_ownSteps.mpr ⟨e', hset ▸ mem_append_left _ he', hfacts⟩
  have hfirst : first.files .active = e.before.files .active :=
    active_of_read run hinit hcalm h hruns (hsub (hown ▸ by simp [readBoth]))
  -- the state file was read from a node with the same active file
  obtain ⟨read, hread, hid, rfl, hreadOp⟩ := mem_ownSteps.mp
    (show (second, NodeOp.read (.agent process.pid) .state) ∈ ownSteps set.id before from
      hown ▸ by simp [readBoth])
  obtain ⟨start, rest, hstart⟩ := append_of_mem hread
  have hsplit : trace = start ++ read :: (rest ++ set :: (after ++ e :: later)) := by
    simp [h, hset, hstart]
  obtain ⟨hreadNext, hreadReady⟩ := run.follows (P := NodeCall.Next)
    (fun c _ => nodeCall_follows env c) hsplit
  have hreadCall : read.call = .startAgent process.pid deploy := by
    rw [← hcall]
    refine run.call_eq ?_ ?_ hid <;> simp [h, hset, hstart]
  have hsecond : read.before.files .active = e.before.files .active := by
    rw [hreadCall, hreadOp] at hreadNext
    rcases hreadNext with hreadNext | ⟨seen, hseen, -⟩ | ⟨_, _, _, hreadNext⟩
    · cases hreadNext
    · have hmem : (seen, NodeOp.read (.agent process.pid) .active) ∈ ownSteps read.id start :=
        hseen ▸ by simp
      rw [hreadOp] at hreadReady
      rw [← active_of_read run hinit hcalm hsplit hreadReady hmem]
      refine active_of_read run hinit hcalm h hruns (hsub ?_)
      obtain ⟨e', he', hid', hfacts⟩ := mem_ownSteps.mp hmem
      exact mem_ownSteps.mpr ⟨e', hstart ▸ mem_append_left _ he', hid' ▸ hid, hfacts⟩
    · cases hreadNext
  have hload := (hcalm start read _ hsplit).start_loadable _ _ hreadCall hreadOp
  rw [hfirst]
  have hfailed := hload wrapper (hsecond ▸ hactive)
  rw [hsecond] at hfailed
  obtain ⟨data, -, hdecode⟩ := readWrapper_eq_ok.mp hactive
  simp only [loadConfigFromEnv, loadActiveProfile_active hactive]
  exact if_pos ⟨hfailed, decodeProfileWrapper_revision_pos hdecode⟩

end

/-- In every calm run that starts with no agent, whatever the files hold, each observation
`applied` names the profile the sending process uses. -/
theorem applied_observation_truthful (run : NodeRun env init trace cfg)
    (hinit : init.agent = none) (hcalm : CalmRun trace) : ∀ e ∈ trace, Truthful e := by
  intro e he pid observation hop happlied
  obtain ⟨earlier, later, hsplit⟩ := append_of_mem he
  obtain ⟨hnext, hready⟩ := run.follows (P := NodeCall.Next)
    (fun c _ => nodeCall_follows env c) hsplit
  rw [hop] at hnext hready
  obtain ⟨first, second, hown, rfl⟩ := NodeCall.next_send hnext
  obtain ⟨process, hagent, hprocess⟩ := (Option.any_eq_true _ _).mp hready
  rw [Bool.and_eq_true, decide_eq_true_eq] at hprocess
  obtain ⟨rfl, hset⟩ := hprocess
  obtain ⟨config, hconfig⟩ := Option.isSome_iff_exists.mp hset
  have hruns : e.before.runs process.pid = true := Node.runs_iff.mpr (by rw [hagent]; rfl)
  have hfirst : first.files .active = e.before.files .active :=
    active_of_read run hinit hcalm hsplit hruns
      (show (first, NodeOp.read (.agent process.pid) .active) ∈ ownSteps e.id earlier from
        hown ▸ by simp [readBoth])
  obtain ⟨wrapper, hwrapper, hrevision⟩ := loadActiveProfile_applied happlied
  rw [hfirst] at hwrapper
  refine ⟨wrapper, hwrapper, hrevision.symm, ?_⟩
  rw [hagent, ← config_of_active run hinit hcalm hsplit hagent hconfig hwrapper, ← hconfig]

end Runs

/-! ## One installation -/

/-- `Node.Loadable` as a test. -/
def Node.loadable (node : Node) : Bool :=
  match readWrapper (node.files .active) with
  | .ok (some _) => !(loadActiveProfile (node.files .active) (node.files .state)).failed
  | _ => true

/-- `Calm` as a test. -/
def calm (earlier : List NodeEvent) (e : NodeEvent) : Bool :=
  (earlier.all fun seen =>
    match seen.op with
    | .read (.agent pid) .active =>
      !e.before.runs pid || (e.after nodeSemantics).files .active == e.before.files .active
    | _ => true) &&
  match e.call, e.op with
  | .startAgent _ _, .read _ .state => e.before.loadable
  | _, _ => true

theorem calm_sound {earlier : List NodeEvent} (h : calm earlier e = true) : Calm earlier e := by
  rw [calm, Bool.and_eq_true, all_eq_true] at h
  refine ⟨?_, ?_⟩
  · intro seen hseen pid hop hruns
    have hkept := h.1 seen hseen
    simpa [hop, hruns] using hkept
  · intro pid env hcall hop
    have hload := h.2
    rw [hcall, hop] at hload
    intro wrapper hwrapper
    rw [Node.loadable, hwrapper] at hload
    simpa using hload

/-- `CalmRun` as a test, with the events before those given. -/
def calmRun (earlier : List NodeEvent) : List NodeEvent → Bool
  | [] => true
  | e :: later => calm earlier e && calmRun (earlier ++ [e]) later

theorem calmRun_sound (h : calmRun [] trace = true) : CalmRun trace := by
  -- the events that were passed are part of the trace
  have hall : ∀ (later past earlier : List NodeEvent) (e : NodeEvent) (rest : List NodeEvent),
      calmRun past later = true → later = earlier ++ e :: rest → Calm (past ++ earlier) e := by
    intro later
    induction later with
    | nil => simp
    | cons next later ih =>
      intro past earlier e rest hcheck hsplit
      rw [calmRun, Bool.and_eq_true] at hcheck
      cases earlier with
      | nil =>
        cases hsplit
        rw [append_nil]
        exact calm_sound hcheck.1
      | cons first earlier =>
        obtain ⟨rfl, htail⟩ := cons.inj hsplit
        have hrest := ih (past ++ [next]) earlier e rest hcheck.2 htail
        rwa [append_assoc, singleton_append] at hrest
  exact fun earlier e later hsplit => hall trace [] earlier e later h hsplit

/-- The task payload of the document `sampleDocument`. -/
def samplePayload : StrMap :=
  StrMap.ofList [(revisionKey, ascii "7"),
    (profileJsonB64Key, Base64.encode Installer.sampleDocument)]

/-- The agent stages a profile, the installer puts it in place and the new agent starts
when it has finished. -/
def installedCalls : List NodeCall :=
  [.boot, .startAgent 0 bareConfig, .apply 0 samplePayload .none, .applyProfile fun _ => false,
    .startAgent 1 bareConfig, .heartbeat 1 true]

def installedRun : List NodeEvent × Config Node NodeOp NodeReply NodeCall NodeValue :=
  Run.serialRun (nodeSystem quietEnv) (.fresh []) installedCalls

/-- What the last event sends. -/
def lastSent (trace : List NodeEvent) : Option AgentProfileObservation :=
  match trace.getLast?.map Event.op with
  | some (.send _ observation) => observation
  | _ => none

-- one evaluation of the run for everything that is read off it
theorem installedRun_checks :
    (Run.serialReady (nodeSystem quietEnv) ([], ⟨.fresh [], []⟩) installedCalls &&
      calmRun [] installedRun.1 && lastSent installedRun.1 == some ⟨.applied, 7, []⟩) = true := by
  decide +kernel

theorem applied_observation_truthful_installed :
    lastSent installedRun.1 = some ⟨.applied, 7, []⟩ ∧ CalmRun installedRun.1 ∧
      ∀ e ∈ installedRun.1, Truthful e := by
  have hchecks := installedRun_checks
  rw [Bool.and_eq_true, Bool.and_eq_true, beq_iff_eq] at hchecks
  obtain ⟨⟨hready, hcalm⟩, hsent⟩ := hchecks
  have hrun : NodeRun quietEnv (.fresh []) installedRun.1 installedRun.2 :=
    Run.serialRun_run installedCalls (fun _ _ => trivial) hready
  exact ⟨hsent, calmRun_sound hcalm, applied_observation_truthful hrun rfl (calmRun_sound hcalm)⟩

/-- The same calls, with the new agent starting before the installer has written the active
file. -/
def earlyStart : List (Run.Choice NodeCall) :=
  .invoke .boot :: .step 0 ::
  .invoke (.startAgent 0 bareConfig) :: List.replicate 3 (.step 1) ++
  .invoke (.apply 0 samplePayload .none) :: List.replicate 5 (.step 2) ++
  .invoke (.applyProfile fun _ => false) :: List.replicate 11 (.step 3) ++
  .invoke (.startAgent 1 bareConfig) :: List.replicate 3 (.step 4) ++
  List.replicate 5 (.step 3) ++
  .invoke (.heartbeat 1 true) :: List.replicate 3 (.step 5)

/-- The event sends `applied` while the process uses another profile. -/
def deceives (e : NodeEvent) : Bool :=
  match e.op, readWrapper (e.before.files .active) with
  | .send _ (some observation), .ok (some wrapper) =>
    observation.state == .applied &&
      e.before.agent.all fun process => process.config != some (applyProfileOverlay wrapper.profile)
  | _, _ => false

theorem not_truthful_of_deceives (h : deceives e = true) : ¬ Truthful e := by
  intro htrue
  rw [deceives] at h
  split at h
  · rename_i pid observation wrapper hop hwrapper
    rw [Bool.and_eq_true, beq_iff_eq] at h
    obtain ⟨other, hother, -, hagent⟩ := htrue pid observation hop h.1
    obtain rfl : other = wrapper := by simpa [hwrapper] using hother.symm
    simp [hagent] at h
  · cases h

theorem applied_observation_untruthful :
    ∃ trace cfg, NodeRun quietEnv (.fresh []) trace cfg ∧ ∃ e ∈ trace, ¬ Truthful e := by
  obtain ⟨trace, cfg, run, e, he, hdeceives⟩ : ∃ trace cfg, NodeRun quietEnv (.fresh []) trace cfg ∧
      ∃ e ∈ trace, deceives e = true :=
    Run.exists_scheduled earlyStart (fun _ _ => trivial) (by decide +kernel)
  exact ⟨trace, cfg, run, e, he, not_truthful_of_deceives hdeceives⟩

end HeyServer.Agent
