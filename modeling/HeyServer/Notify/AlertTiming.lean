import HeyServer.Notify.AlertRules
import HeyServer.Uptime.StateManager

/-!
# When alerts are dispatched

The alert checker lists the rules, then evaluates the enabled ones one after the other. The
start of a breach is remembered by rule id, the last alert is looked up in the history.
Rules are edited while a check is under way.

## Implementation notes

An evaluation reads the clock once; before every step an arbitrary time passes. A disabled
rule that a check skips is logged as an observation that did not trigger.
-/

namespace HeyServer.Notify
open Lib List Option RowTable
open Uptime (rfc3339 minutes)

/-- A row of `alert_history` without the message -/
structure AlertHistory where
  ruleID : Nat
  ruleName : Bytes
  type : Bytes
  value : ℚ
  firedAt : Int

/-- A rule as a check found it. -/
structure Observation where
  time : Int
  id : Nat
  rule : AlertRule
  triggered : Bool
  deriving DecidableEq

/-- An alert, with the row its rule has at that time. -/
structure Dispatch where
  time : Int
  id : Nat
  current : Option AlertRule
  deriving DecidableEq

inductive AlertEvent
  | observed (o : Observation)
  | dispatched (d : Dispatch)
  deriving DecidableEq

namespace AlertEvent

def time : AlertEvent → Int
  | observed o => o.time
  | dispatched d => d.time

def dispatch? : AlertEvent → Option Dispatch
  | observed _ => none
  | dispatched d => some d

theorem dispatch?_eq_some {e : AlertEvent} {d : Dispatch} :
    e.dispatch? = some d ↔ e = dispatched d := by
  cases e <;> simp [dispatch?]

end AlertEvent

/-- The tables, the memory of the checker, the rules it has still to evaluate, and what
happened so far. -/
structure AlertChecker where
  rules : RowTable AlertRule
  history : List AlertHistory
  breachStart : Nat → Option Int
  pending : List (Nat × AlertRule)
  clock : Int
  log : List AlertEvent

inductive AlertStep
  | create (rule : AlertRule)
  | update (id : Nat) (rule : AlertRule)
  | delete (id : Nat)
  | checkAll (listFails : Bool)
  | evaluate (readings : Readings) (readFails insertFails : Bool)
  | prune (fails : Bool)

/-- `Create` and `Update` replace a cooldown that is not positive. -/
def AlertRule.withCooldown (rule : AlertRule) : AlertRule :=
  if rule.cooldownMins ≤ 0 then { rule with cooldownMins := 15 } else rule

namespace AlertChecker
variable (toLower : Bytes → Bytes) (s : AlertChecker)

def start : AlertChecker := ⟨.empty, [], fun _ => none, [], 0, []⟩

def create (rule : AlertRule) : AlertChecker :=
  { s with rules := s.rules.insert rule.withCooldown }

variable (id : Nat)

def update (rule : AlertRule) : AlertChecker :=
  { s with rules := s.rules.update (fun key _ => key = id) fun _ => rule.withCooldown }

def delete : AlertChecker :=
  { s with rules := s.rules.delete fun key _ => key = id }

/-- `checkAll` up to its loop, when the one before has ended. -/
def checkAll : AlertChecker :=
  if s.pending = [] then
    { s with
      pending := s.rules.select fun _ rule => rule.enabled
      log := s.log ++ (s.rules.select fun _ rule => !rule.enabled).map fun row =>
        .observed ⟨s.clock, row.1, row.2, false⟩ }
  else s

/-- `LastFiredAt` -/
def lastFiredAt : Option Int :=
  ((s.history.filter fun h => h.ruleID = id).map AlertHistory.firedAt).max?

/-- The part of `evaluate` after a breach that has lasted long enough. -/
def fire (rule : AlertRule) (value : ℚ) (readFails insertFails : Bool) : AlertChecker :=
  let lastFired := if readFails then none else s.lastFiredAt id
  if lastFired.any fun t => s.clock - t * 1000000000 < minutes rule.cooldownMins then s
  else
    let entry : AlertHistory := ⟨id, rule.name, rule.type, value, rfc3339 s.clock⟩
    { s with
      history := if insertFails then s.history else s.history ++ [entry]
      log := s.log ++ [.dispatched ⟨s.clock, id, s.rules.get? id⟩] }

/-- `evaluate` of a rule as it was listed. -/
def evaluateRule (readings : Readings) (readFails insertFails : Bool) (id : Nat)
    (rule : AlertRule) : AlertChecker :=
  let (value, triggered) := checkRule toLower readings rule
  let s := { s with log := s.log ++ [AlertEvent.observed ⟨s.clock, id, rule, triggered⟩] }
  if triggered then
    let began := (s.breachStart id).getD s.clock
    let s := { s with breachStart := Function.update s.breachStart id (some began) }
    if s.clock - began < minutes rule.durationMins then s
    else s.fire id rule value readFails insertFails
  else { s with breachStart := Function.update s.breachStart id none }

/-- The next turn of the loop of `checkAll`. -/
def evaluate (readings : Readings) (readFails insertFails : Bool) : AlertChecker :=
  match s.pending with
  | [] => s
  | (id, rule) :: rest =>
    { s with pending := rest }.evaluateRule toLower readings readFails insertFails id rule

/-- `PruneOlderThan` thirty days. -/
def prune : AlertChecker :=
  { s with
    history := s.history.filter fun h =>
      !decide (h.firedAt < rfc3339 (s.clock - minutes (30 * 24 * 60))) }

/-- One step after some nanoseconds. -/
def step (after : Nat) (a : AlertStep) : AlertChecker :=
  let s := { s with clock := s.clock + after }
  match a with
  | .create rule => s.create rule
  | .update id rule => s.update id rule
  | .delete id => s.delete id
  | .checkAll listFails => if listFails then s else s.checkAll
  | .evaluate readings readFails insertFails => s.evaluate toLower readings readFails insertFails
  | .prune fails => if fails then s else s.prune

def run (steps : List (Nat × AlertStep)) : AlertChecker :=
  steps.foldl (fun s a => s.step toLower a.1 a.2) s

end AlertChecker

/-! ## The property and the condition -/

/-- A dispatch is for a rule that is enabled as it stands, was observed triggered just now and
at every evaluation during its duration, and comes after the cooldown of every earlier one. -/
def Timely (earlier : List AlertEvent) : AlertEvent → Prop
  | .observed _ => True
  | .dispatched d => ∃ rule, d.current = some rule ∧ rule.enabled = true ∧
      .observed ⟨d.time, d.id, rule, true⟩ ∈ earlier ∧
      (∀ o, .observed o ∈ earlier → o.id = d.id → d.time - minutes rule.durationMins < o.time →
        o.rule = rule ∧ o.triggered = true) ∧
      ∀ d', .dispatched d' ∈ earlier → d'.id = d.id →
        minutes rule.cooldownMins ≤ d.time - d'.time

/-- A time in the fraction of a second that a cooldown loses because the history keeps whole
seconds. -/
def Truncated (fired cooldown now : Int) : Prop :=
  rfc3339 fired * 1000000000 + cooldown ≤ now ∧ now < fired + cooldown

/-- The condition on a step: a rule is not updated during a breach, nor updated or deleted
between its listing and its evaluation; the history is read and written without fault, and
no rule is evaluated in the last fraction of a second of its cooldown. -/
def Calm (s : AlertChecker) (after : Nat) : AlertStep → Prop
  | .create _ => True
  | .update id _ => s.breachStart id = none ∧ id ∉ s.pending.map Prod.fst
  | .delete id => id ∉ s.pending.map Prod.fst
  | .checkAll _ => True
  | .evaluate _ readFails insertFails =>
    readFails = false ∧ insertFails = false ∧
      ∀ next, s.pending.head? = some next → ∀ d, .dispatched d ∈ s.log → d.id = next.1 →
        ¬ Truncated d.time (minutes next.2.cooldownMins) (s.clock + after)
  | .prune _ => True

/-! ## The invariant -/

/-- As long as the steps are calm. -/
structure Sound (s : AlertChecker) : Prop where
  /-- what is to be evaluated is what the table has -/
  pending_current : ∀ p ∈ s.pending, s.rules.get? p.1 = some p.2 ∧ p.2.enabled = true
  breach_key : ∀ id began, s.breachStart id = some began → id ≤ s.rules.seq
  breach_enabled : ∀ id began rule, s.breachStart id = some began → s.rules.get? id = some rule →
    rule.enabled = true
  /-- since a breach began, the rule was observed as it is and triggered -/
  breach_observed : ∀ id began rule, s.breachStart id = some began → s.rules.get? id = some rule →
    ∀ o, .observed o ∈ s.log → o.id = id → began < o.time → o.rule = rule ∧ o.triggered = true
  past : ∀ e ∈ s.log, e.time ≤ s.clock
  /-- every alert is in the history or was pruned from it -/
  fired : ∀ d, .dispatched d ∈ s.log →
    (∃ h ∈ s.history, h.ruleID = d.id ∧ h.firedAt = rfc3339 d.time) ∨
      d.time < s.clock - minutes (30 * 24 * 60)
  timely : AtEach Timely s.log

theorem Sound.start : Sound .start := by
  constructor <;> simp [AlertChecker.start]

theorem rfc3339_lt {a b : Int} (h : rfc3339 a < rfc3339 b) : a < b := by
  unfold rfc3339 at h
  omega

namespace Sound
variable {toLower : Bytes → Bytes} {s : AlertChecker} (h : Sound s)
include h

theorem tick (after : Nat) : Sound { s with clock := s.clock + after } where
  pending_current := h.pending_current
  breach_key := h.breach_key
  breach_enabled := h.breach_enabled
  breach_observed := h.breach_observed
  past e he := Int.le_trans (h.past e he) (by simp)
  fired d hd := by
    rcases h.fired d hd with hkept | hold
    · exact .inl hkept
    · right
      show d.time < s.clock + after - minutes (30 * 24 * 60)
      omega
  timely := h.timely

theorem create (rule : AlertRule) : Sound (s.create rule) := by
  -- the new key is larger than any the checker knows
  have hget : ∀ id, id ≤ s.rules.seq → (s.create rule).rules.get? id = s.rules.get? id := by
    intro id hid
    rw [AlertChecker.create, get?_insert, if_neg (by omega)]
  refine ⟨?_, ?_, ?_, ?_, h.past, h.fired, h.timely⟩
  · intro p hp
    obtain ⟨hcurrent, henabled⟩ := h.pending_current p hp
    exact ⟨(hget p.1 (get?_le_seq hcurrent)).trans hcurrent, henabled⟩
  · intro id began hbegan
    exact Nat.le_succ_of_le (h.breach_key id began hbegan)
  · intro id began rule' hbegan hrule
    rw [hget id (h.breach_key id began hbegan)] at hrule
    exact h.breach_enabled id began rule' hbegan hrule
  · intro id began rule' hbegan hrule
    rw [hget id (h.breach_key id began hbegan)] at hrule
    exact h.breach_observed id began rule' hbegan hrule

/-- An edit of rows that are neither in breach nor pending. -/
theorem edit {rules : RowTable AlertRule} (hseq : rules.seq = s.rules.seq)
    (hpending : ∀ p ∈ s.pending, rules.get? p.1 = s.rules.get? p.1)
    (hbreach : ∀ id began rule, s.breachStart id = some began → rules.get? id = some rule →
      s.rules.get? id = some rule) : Sound { s with rules } where
  pending_current p hp := by
    obtain ⟨hcurrent, henabled⟩ := h.pending_current p hp
    exact ⟨(hpending p hp).trans hcurrent, henabled⟩
  breach_key id began hbegan := hseq ▸ h.breach_key id began hbegan
  breach_enabled id began rule hbegan hrule :=
    h.breach_enabled id began rule hbegan (hbreach id began rule hbegan hrule)
  breach_observed id began rule hbegan hrule :=
    h.breach_observed id began rule hbegan (hbreach id began rule hbegan hrule)
  past := h.past
  fired := h.fired
  timely := h.timely

variable {id : Nat} {rule : AlertRule}

theorem update (hbreach : s.breachStart id = none)
    (hpending : id ∉ s.pending.map Prod.fst) (rule : AlertRule) : Sound (s.update id rule) := by
  have hget : ∀ key, key ≠ id → (s.update id rule).rules.get? key = s.rules.get? key := by
    intro key hkey
    rw [AlertChecker.update, get?_update]
    simp [hkey]
  refine h.edit rfl (fun p hp => hget p.1 ?_) ?_
  · rintro rfl
    exact hpending (mem_map_of_mem hp)
  · intro key began rule' hbegan hrule
    have hkey : key ≠ id := by
      rintro rfl
      rw [hbreach] at hbegan
      cases hbegan
    exact (hget key hkey).symm.trans hrule

theorem delete (hpending : id ∉ s.pending.map Prod.fst) : Sound (s.delete id) := by
  refine h.edit rfl (fun p hp => ?_) ?_
  · have hkey : p.1 ≠ id := by
      rintro rfl
      exact hpending (mem_map_of_mem hp)
    rw [get?_delete]
    cases s.rules.get? p.1 <;> simp [hkey]
  · intro key began rule hbegan hrule
    rw [get?_delete] at hrule
    exact (filter_eq_some_iff.mp hrule).1

theorem prune : Sound s.prune where
  pending_current := h.pending_current
  breach_key := h.breach_key
  breach_enabled := h.breach_enabled
  breach_observed := h.breach_observed
  past := h.past
  fired d hd := by
    rcases h.fired d hd with ⟨entry, hentry, hid, hfired⟩ | hold
    · by_cases hcut : rfc3339 d.time < rfc3339 (s.clock - minutes (30 * 24 * 60))
      · exact .inr (rfc3339_lt hcut)
      · rw [← hfired] at hcut
        exact .inl ⟨entry, mem_filter.mpr ⟨hentry, by simpa using hcut⟩, hid, hfired⟩
    · exact .inr hold
  timely := h.timely

theorem checkAll : Sound s.checkAll := by
  unfold AlertChecker.checkAll
  split_ifs
  swap
  · exact h
  refine ⟨?_, h.breach_key, h.breach_enabled, ?_, ?_, ?_, ?_⟩
  · rintro ⟨id, rule⟩ hp
    have hlisted : (id, rule) ∈ s.rules.select fun _ rule => rule.enabled := hp
    exact mem_select.mp hlisted
  · intro id began rule hbegan hrule o ho hid hlater
    rcases mem_append.mp ho with hold | hnew
    · exact h.breach_observed id began rule hbegan hrule o hold hid hlater
    · -- a rule in breach is enabled, so it is not among those skipped
      obtain ⟨⟨key, skipped⟩, hskipped, heq⟩ := mem_map.mp hnew
      obtain ⟨hget, hdisabled⟩ := mem_select.mp hskipped
      cases heq
      cases hid
      have henabled := h.breach_enabled key began skipped hbegan hget
      rw [henabled] at hdisabled
      cases hdisabled
  · exact forall_mem_append.mpr ⟨h.past, forall_mem_map.mpr fun _ _ => Int.le_refl _⟩
  · intro d hd
    rcases mem_append.mp hd with hold | hnew
    · exact h.fired d hold
    · obtain ⟨row, -, heq⟩ := mem_map.mp hnew
      cases heq
  · refine h.timely.append fun e he earlier => ?_
    obtain ⟨row, -, rfl⟩ := mem_map.mp he
    trivial

/-- An evaluation is the last of a breach, or none. -/
theorem observed {since : Option Int} {triggered : Bool}
    (hsince : ∀ began, since = some began → s.rules.get? id = some rule ∧ rule.enabled = true ∧
      triggered = true ∧ ∀ o, .observed o ∈ s.log → o.id = id → began < o.time →
        o.rule = rule ∧ o.triggered = true) : Sound { s with
      log := s.log ++ [.observed ⟨s.clock, id, rule, triggered⟩]
      breachStart := Function.update s.breachStart id since } := by
  have hcases : ∀ key began, Function.update s.breachStart id since key = some began →
      key = id ∧ since = some began ∨ key ≠ id ∧ s.breachStart key = some began := by
    intro key began hbegan
    rw [Function.update_apply] at hbegan
    split_ifs at hbegan with hkey
    · exact .inl ⟨hkey, hbegan⟩
    · exact .inr ⟨hkey, hbegan⟩
  refine ⟨h.pending_current, ?_, ?_, ?_, forall_mem_snoc h.past (Int.le_refl _), ?_,
    atEach_concat.mpr ⟨h.timely, trivial⟩⟩
  · intro key began hbegan
    rcases hcases key began hbegan with ⟨rfl, hnow⟩ | ⟨-, hbegan⟩
    · exact s.rules.get?_le_seq (hsince began hnow).1
    · exact h.breach_key key began hbegan
  · intro key began rule' hbegan hrule
    rcases hcases key began hbegan with ⟨rfl, hnow⟩ | ⟨-, hbegan⟩
    · obtain ⟨hcurrent, henabled, -⟩ := hsince began hnow
      exact Option.some.inj (hcurrent.symm.trans hrule) ▸ henabled
    · exact h.breach_enabled key began rule' hbegan hrule
  · intro key began rule' hbegan hrule o ho hid hlater
    rcases mem_append.mp ho with hold | hnew
    · rcases hcases key began hbegan with ⟨rfl, hnow⟩ | ⟨-, hbegan⟩
      · obtain ⟨hcurrent, -, -, hobserved⟩ := hsince began hnow
        cases hcurrent.symm.trans hrule
        exact hobserved o hold hid hlater
      · exact h.breach_observed key began rule' hbegan hrule o hold hid hlater
    · cases mem_singleton.mp hnew
      rcases hcases key began hbegan with ⟨rfl, hnow⟩ | ⟨hkey, -⟩
      · obtain ⟨hcurrent, -, htriggered, -⟩ := hsince began hnow
        exact ⟨Option.some.inj (hcurrent.symm.trans hrule), htriggered⟩
      · exact absurd hid.symm hkey
  · exact fun d hd => h.fired d (by simpa using hd)

/-- An evaluation that triggers starts a breach or continues it. -/
theorem breached (hcurrent : s.rules.get? id = some rule) (henabled : rule.enabled = true) :
    Sound { s with
      log := s.log ++ [.observed ⟨s.clock, id, rule, true⟩]
      breachStart := Function.update s.breachStart id
        (some ((s.breachStart id).getD s.clock)) } := by
  refine h.observed fun began hbegan => ⟨hcurrent, henabled, rfl, ?_⟩
  intro o ho hid hlater
  cases hbegan
  cases hsince : s.breachStart id with
  | none =>
    -- the breach begins now, and nothing was observed later
    rw [hsince, getD_none] at hlater
    exact absurd (h.past _ ho) (Int.not_le.mpr hlater)
  | some since =>
    rw [hsince, getD_some] at hlater
    exact h.breach_observed id since rule hsince hcurrent o ho hid hlater

/-- The lookup in the history passes only after the cooldown of every alert. -/
theorem cooled {cooldown : Int} (hweek : cooldown ≤ 10080) (hpassed : (s.lastFiredAt id).any
      (fun t => s.clock - t * 1000000000 < minutes cooldown) = false)
    {d : Dispatch} (hd : .dispatched d ∈ s.log) (hid : d.id = id)
    (hwhole : ¬ Truncated d.time (minutes cooldown) s.clock) :
      minutes cooldown ≤ s.clock - d.time := by
  rcases h.fired d hd with ⟨entry, hentry, hrule, hfired⟩ | hold
  · have hmem : rfc3339 d.time ∈
        (s.history.filter fun h => h.ruleID = id).map AlertHistory.firedAt :=
      mem_map.mpr ⟨entry, mem_filter.mpr ⟨hentry, by simp [hrule, hid]⟩, hfired⟩
    obtain ⟨last, hlast⟩ := isSome_iff_exists.mp
      (isSome_max?_iff.mpr (ne_nil_of_mem hmem) : (s.lastFiredAt id).isSome)
    have hle : rfc3339 d.time ≤ last := (max?_eq_some_iff.mp hlast).2 _ hmem
    rw [AlertChecker.lastFiredAt, hlast] at hpassed
    simp only [any_some, decide_eq_false_iff_not] at hpassed
    unfold Truncated at hwhole
    omega
  · unfold minutes at hold ⊢
    omega

/-- The condition under which an evaluation gets past the cooldown. -/
theorem fire {began : Int} (value : ℚ)
    (hcurrent : s.rules.get? id = some rule) (henabled : rule.enabled = true)
    (hnow : .observed ⟨s.clock, id, rule, true⟩ ∈ s.log) (hbegan : s.breachStart id = some began)
    (hlasted : ¬ s.clock - began < minutes rule.durationMins) (hweek : rule.cooldownMins ≤ 10080)
    (hwhole : ∀ d, .dispatched d ∈ s.log → d.id = id →
      ¬ Truncated d.time (minutes rule.cooldownMins) s.clock) :
    Sound (s.fire id rule value false false) := by
  unfold AlertChecker.fire
  dsimp only
  rw [if_neg Bool.false_ne_true, if_neg Bool.false_ne_true]
  split_ifs with hcooling
  · exact h
  have htimely : Timely s.log (.dispatched ⟨s.clock, id, s.rules.get? id⟩) := by
    refine ⟨rule, hcurrent, henabled, hnow, ?_, ?_⟩
    · intro o ho hid hlater
      have hsince : began < o.time := by
        dsimp only at hlater
        omega
      exact h.breach_observed id began rule hbegan hcurrent o ho hid hsince
    · intro d hd hid
      exact h.cooled hweek (Bool.eq_false_iff.mpr hcooling) hd hid (hwhole d hd hid)
  refine ⟨h.pending_current, h.breach_key, h.breach_enabled, ?_, ?_, ?_,
    atEach_concat.mpr ⟨h.timely, htimely⟩⟩
  · intro key began' rule' hbegan' hrule o ho
    exact h.breach_observed key began' rule' hbegan' hrule o (by simpa using ho)
  · exact forall_mem_snoc h.past (Int.le_refl _)
  · intro d hd
    rcases mem_append.mp hd with hold | hnew
    · rcases h.fired d hold with ⟨entry, hentry, hsame⟩ | hpruned
      · exact .inl ⟨entry, mem_append_left _ hentry, hsame⟩
      · exact .inr hpruned
    · cases mem_singleton.mp hnew
      exact .inl ⟨_, mem_append_right _ (mem_singleton_self _), rfl, rfl⟩

theorem evaluateRule (hcurrent : s.rules.get? id = some rule) (henabled : rule.enabled = true)
    (hwhole : ∀ d, .dispatched d ∈ s.log → d.id = id →
      ¬ Truncated d.time (minutes rule.cooldownMins) s.clock) (readings : Readings) :
    Sound (s.evaluateRule toLower readings false false id rule) := by
  unfold AlertChecker.evaluateRule
  dsimp only
  by_cases htriggered : (checkRule toLower readings rule).2 = true
  swap
  · rw [if_neg htriggered, Bool.eq_false_iff.mpr htriggered]
    exact h.observed fun _ hnone => by cases hnone
  rw [if_pos htriggered, htriggered]
  have hbreached := h.breached hcurrent henabled
  split_ifs with hshort
  · exact hbreached
  refine hbreached.fire _ hcurrent henabled (mem_append_right _ (mem_singleton_self _))
    (Function.update_self ..) hshort (bounds_of_triggered htriggered).2.2 ?_
  exact fun d hd hid => hwhole d (by simpa using hd) hid

theorem evaluate (hwhole : ∀ next, s.pending.head? = some next → ∀ d, .dispatched d ∈ s.log →
    d.id = next.1 →
      ¬ Truncated d.time (minutes next.2.cooldownMins) s.clock) (readings : Readings) :
    Sound (s.evaluate toLower readings false false) := by
  unfold AlertChecker.evaluate
  split
  · exact h
  · rename_i id rule rest hpending
    obtain ⟨hcurrent, henabled⟩ := h.pending_current (id, rule) (hpending ▸ mem_cons_self)
    have hrest : Sound { s with pending := rest } :=
      ⟨fun p hp => h.pending_current p (hpending ▸ mem_cons_of_mem _ hp),
        h.breach_key, h.breach_enabled, h.breach_observed, h.past, h.fired, h.timely⟩
    have hnext : s.pending.head? = some (id, rule) := by rw [hpending, head?_cons]
    exact hrest.evaluateRule hcurrent henabled (hwhole (id, rule) hnext) readings

/-- Every calm step. -/
theorem step {after : Nat} {a : AlertStep} (hcalm : Calm s after a) :
    Sound (s.step toLower after a) := by
  have hticked := h.tick after
  cases a with
  | create rule => exact hticked.create rule
  | update id rule => exact hticked.update hcalm.1 hcalm.2 rule
  | delete id => exact hticked.delete hcalm
  | checkAll listFails =>
    cases listFails with
    | true => exact hticked
    | false => exact hticked.checkAll
  | prune fails =>
    cases fails with
    | true => exact hticked
    | false => exact hticked.prune
  | evaluate readings readFails insertFails =>
    obtain ⟨rfl, rfl, hwhole⟩ := hcalm
    exact hticked.evaluate hwhole readings

end Sound

/-- If every step is calm, every alert is timely. -/
theorem alerts_timely (toLower : Bytes → Bytes) (steps : List (Nat × AlertStep))
    (hcalm : AtEach (fun earlier a => Calm
      (AlertChecker.start.run toLower earlier) a.1 a.2) steps) :
    AtEach Timely (AlertChecker.start.run toLower steps).log := by
  have hsound : Sound (AlertChecker.start.run toLower steps) :=
    hcalm.foldl Sound.start fun _ _ h hlast => h.step hlast
  exact hsound.timely

instance (fired cooldown now : Int) : Decidable (Truncated fired cooldown now) :=
  inferInstanceAs (Decidable (_ ∧ _))

instance (s : AlertChecker) (after : Nat) : (a : AlertStep) → Decidable (Calm s after a)
  | .create _ | .checkAll _ | .prune _ => .isTrue trivial
  | .update id _ =>
    inferInstanceAs (Decidable (s.breachStart id = none ∧ id ∉ s.pending.map Prod.fst))
  | .delete id => inferInstanceAs (Decidable (id ∉ s.pending.map Prod.fst))
  | .evaluate _ readFails insertFails =>
    decidable_of_iff
      (readFails = false ∧ insertFails = false ∧ ∀ next ∈ s.pending.head?.toList,
        ∀ d ∈ s.log.filterMap AlertEvent.dispatch?, d.id = next.1 →
          ¬ Truncated d.time (minutes next.2.cooldownMins) (s.clock + after))
      (by simp [Calm, AlertEvent.dispatch?_eq_some])

/-- A processor load over ninety percent, for so many minutes. -/
def busyRule (durationMins cooldownMins : Int) : AlertRule :=
  ⟨ascii "busy", ascii "cpu", some 90, durationMins, [], true, cooldownMins⟩

/-- The host with some processor load. -/
def loadOf (cpu : ℚ) : Readings := ⟨some ⟨cpu, 0, []⟩, fun _ => none, fun _ => true, 0⟩

def second : Nat := 1000000000

/-- The load stays high for two checks, and the alert comes with the second. -/
def steadyBreach : List (Nat × AlertStep) :=
  [(0, .create (busyRule 1 15)), (0, .checkAll false), (0, .evaluate (loadOf 95) false false),
    (60 * second, .checkAll false), (0, .evaluate (loadOf 97) false false)]

theorem alerts_timely_steadyBreach :
    .dispatched ⟨60 * second, 1, some (busyRule 1 15)⟩ ∈
        (AlertChecker.start.run id steadyBreach).log ∧
      AtEach Timely (AlertChecker.start.run id steadyBreach).log := by
  have hcalm : AtEach (fun earlier a => Calm (AlertChecker.start.run id earlier) a.1 a.2)
      steadyBreach := by
    decide +kernel
  exact ⟨by decide +kernel, alerts_timely id steadyBreach hcalm⟩

/-- The rule is disabled during a breach and enabled again. -/
def pausedBreach : List (Nat × AlertStep) :=
  [(0, .create (busyRule 5 15)), (0, .checkAll false), (0, .evaluate (loadOf 95) false false),
    (0, .update 1 { busyRule 5 15 with enabled := false }), (60 * second, .checkAll false),
    (0, .update 1 (busyRule 5 15)), (240 * second, .checkAll false),
    (0, .evaluate (loadOf 95) false false)]

/-- The first alert does not get into the history. -/
def lostHistory : List (Nat × AlertStep) :=
  [(0, .create (busyRule 0 15)), (0, .checkAll false), (0, .evaluate (loadOf 95) false true),
    (60 * second, .checkAll false), (0, .evaluate (loadOf 95) false false)]

/-- The paused rule fires although it was disabled four minutes before, and the alerts that
the history does not have are a minute apart. -/
theorem alerts_not_timely :
    ¬ AtEach Timely (AlertChecker.start.run id pausedBreach).log ∧
      ¬ AtEach Timely (AlertChecker.start.run id lostHistory).log := by
  constructor
  · have hlog : (AlertChecker.start.run id pausedBreach).log =
        [.observed ⟨0, 1, busyRule 5 15, true⟩,
          .observed ⟨60 * second, 1, { busyRule 5 15 with enabled := false }, false⟩,
          .observed ⟨300 * second, 1, busyRule 5 15, true⟩] ++
          .dispatched ⟨300 * second, 1, some (busyRule 5 15)⟩ :: [] := by
      decide +kernel
    intro h
    obtain ⟨rule, hcurrent, -, -, hwindow, -⟩ := h _ _ _ hlog
    cases hcurrent
    have hpaused := (hwindow ⟨60 * second, 1, { busyRule 5 15 with enabled := false }, false⟩
      (by simp) rfl (by decide)).2
    cases hpaused
  · have hlog : (AlertChecker.start.run id lostHistory).log =
        [.observed ⟨0, 1, busyRule 0 15, true⟩,
          .dispatched ⟨0, 1, some (busyRule 0 15)⟩,
          .observed ⟨60 * second, 1, busyRule 0 15, true⟩] ++
          .dispatched ⟨60 * second, 1, some (busyRule 0 15)⟩ :: [] := by
      decide +kernel
    intro h
    obtain ⟨rule, hcurrent, -, -, -, hcooldown⟩ := h _ _ _ hlog
    cases hcurrent
    have hapart := hcooldown ⟨0, 1, some (busyRule 0 15)⟩ (by simp) rfl
    revert hapart
    decide

end HeyServer.Notify
