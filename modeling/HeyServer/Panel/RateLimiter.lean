import HeyServer.Lib.Interleaving
import HeyServer.Lib.Utf8

/-!
# Rate limits and login bans

The limiter keeps a record for each address and kind of limit: a token bucket, the time
it was last seen, failed logins and the end of a ban. A periodic task deletes records
by the time they were last seen, the ban with them.

## Implementation notes

The token bucket is a parameter. A call reads the clock once; the clock never goes
back. A run is a list of calls with their times, from any state of the limiter.
-/

namespace HeyServer.Panel
open Lib List Option

inductive LimitType
  | login | api | general | mutate | webhook
  deriving DecidableEq

def LimitType.all : List LimitType := [.login, .api, .general, .mutate, .webhook]

/-- `rate.NewLimiter`, with the interval of `rate.Every`, and `Allow` at a time. -/
structure TokenBucket (B : Type) where
  newLimiter : (interval : Int) → (burst : Nat) → B
  allow : B → Int → B × Bool

structure ClientState (B : Type) where
  limiter : B
  lastSeen : Int
  failures : Nat
  bannedUntil : Option Int

/-- Times are in milliseconds. -/
structure RateLimiter (B : Type) where
  clients : Bytes → Option (LimitType → Option (ClientState B))
  limits : LimitType → Int
  bursts : LimitType → Nat
  maxFailures : Nat
  banDuration : Int
  cleanupTTL : Int

def newRateLimiter {B : Type} : RateLimiter B where
  clients _ := none
  limits
    | .login => 12000
    | .api => 600
    | .general => 300
    | .mutate => 2000
    | .webhook => 2500
  bursts
    | .login => 5
    | .api => 20
    | .general => 30
    | .mutate => 5
    | .webhook => 3
  maxFailures := 10
  banDuration := 15 * 60000
  cleanupTTL := 5 * 60000

namespace ClientState
variable {B : Type}

/-- `!cs.bannedUntil.IsZero() && time.Now().Before(cs.bannedUntil)` -/
def banned (cs : ClientState B) (now : Int) : Bool :=
    cs.bannedUntil.any fun deadline => now < deadline

end ClientState

namespace RateLimiter
variable {B : Type} (bucket : TokenBucket B) (rl : RateLimiter B) (ip : Bytes) (lt : LimitType)

/-- The record of an address and a kind of limit. -/
def record? : Option (ClientState B) :=
  (rl.clients ip).bind fun types => types lt

def store (cs : ClientState B) : RateLimiter B :=
  let types := (rl.clients ip).getD fun _ => none
  { rl with clients := fun key =>
      if key = ip then some fun kind => if kind = lt then some cs else types kind
      else rl.clients key }

variable (now : Int)

def getOrCreate : ClientState B :=
  (rl.record? ip lt).getD ⟨bucket.newLimiter (rl.limits lt) (rl.bursts lt), now, 0, none⟩

def allow : RateLimiter B × Bool :=
  let cs := rl.getOrCreate bucket ip lt now
  if cs.banned now then (rl.store ip lt cs, false)
  else
    let (limiter, ok) := bucket.allow cs.limiter now
    (rl.store ip lt { cs with lastSeen := now, limiter := limiter }, ok)

def recordFailure : RateLimiter B × Bool :=
  let cs := rl.getOrCreate bucket ip .login now
  if rl.maxFailures ≤ cs.failures + 1 then
    (rl.store ip .login
      { cs with lastSeen := now, failures := 0, bannedUntil := some (now + rl.banDuration) }, true)
  else (rl.store ip .login { cs with lastSeen := now, failures := cs.failures + 1 }, false)

def recordSuccess : RateLimiter B :=
  match rl.record? ip .login with
  | some cs => rl.store ip .login { cs with failures := 0, bannedUntil := none }
  | none => rl

/-- The ban and what is left of it. -/
def isBanned : Bool × Int :=
  match (rl.record? ip .login).bind (·.bannedUntil) with
  | some deadline => if now < deadline then (true, deadline - now) else (false, 0)
  | none => (false, 0)

/-- `cs.lastSeen.Before(threshold)` -/
def stale (cs : ClientState B) : Bool := cs.lastSeen < now - rl.cleanupTTL

/-- One tick of `cleanup`; an address without records goes too. -/
def cleanup : RateLimiter B :=
  { rl with clients := fun ip =>
      (rl.clients ip).bind fun types =>
        let kept := fun lt => (types lt).filter fun cs => !rl.stale now cs
        if LimitType.all.all fun lt => (kept lt).isNone then none else some kept }

end RateLimiter

/-! ## Runs -/

inductive LimiterCall
  | allow (ip : Bytes) (lt : LimitType)
  | recordFailure (ip : Bytes)
  | recordSuccess (ip : Bytes)
  | isBanned (ip : Bytes)
  | cleanup
  deriving DecidableEq

namespace RateLimiter
variable {B : Type} (bucket : TokenBucket B)

def step (rl : RateLimiter B) : Int × LimiterCall → RateLimiter B
  | (now, .allow ip lt) => (rl.allow bucket ip lt now).1
  | (now, .recordFailure ip) => (rl.recordFailure bucket ip now).1
  | (_, .recordSuccess ip) => rl.recordSuccess ip
  | (_, .isBanned _) => rl
  | (now, .cleanup) => rl.cleanup now

/-- The limiter after a list of calls. -/
def run (rl : RateLimiter B) (calls : List (Int × LimiterCall)) : RateLimiter B :=
  calls.foldl (step bucket) rl

end RateLimiter

/-- The clock does not go back, from `start` on. -/
def Chronological (start : Int) (calls : List (Int × LimiterCall)) : Prop :=
  (start :: calls.map Prod.fst).Pairwise (· ≤ ·)

/-! ## Records -/

namespace RateLimiter
variable {B : Type} {bucket : TokenBucket B} {rl : RateLimiter B} (rl : RateLimiter B)

theorem record?_store (ip key : Bytes) (lt kind : LimitType) (cs : ClientState B) :
    (rl.store ip lt cs).record? key kind =
      if key = ip ∧ kind = lt then some cs else rl.record? key kind := by
  by_cases hkey : key = ip
  · subst hkey
    by_cases hkind : kind = lt
    · simp [store, record?, hkind]
    · cases hclients : rl.clients key <;> simp [store, record?, hkind, hclients]
  · simp [store, record?, hkey]

/-- A tick deletes the stale records and no others. -/
theorem record?_cleanup (ip : Bytes) (lt : LimitType) (now : Int) :
    (rl.cleanup now).record? ip lt = (rl.record? ip lt).filter fun cs => !rl.stale now cs := by
  rw [record?, record?]
  cases hclients : rl.clients ip with
  | none => simp [cleanup, hclients]
  | some types =>
    simp only [cleanup, hclients, bind_some]
    split_ifs with hall
    · -- the address goes: this record went with the others
      have hnone : ∀ kind ∈ LimitType.all,
          ((types kind).filter fun cs => !rl.stale now cs).isNone := by
        simpa using hall
      have hmem : lt ∈ LimitType.all := by cases lt <;> decide
      exact (isNone_iff_eq_none.mp (hnone lt hmem)).symm
    · rfl

@[simp] theorem banDuration_step (call : Int × LimiterCall) :
    (rl.step bucket call).banDuration = rl.banDuration := by
  obtain ⟨now, call⟩ := call
  cases call with
  | allow ip lt =>
    rw [step, allow]
    split_ifs
    · rfl
    · rfl
  | recordFailure ip =>
    rw [step, recordFailure]
    split_ifs
    · rfl
    · rfl
  | recordSuccess ip =>
    rw [step, recordSuccess]
    cases rl.record? ip .login with
    | none | some => rfl
  | isBanned | cleanup => rfl

end RateLimiter

/-! ## Bans -/

namespace RateLimiter
variable {B : Type} {bucket : TokenBucket B} {rl : RateLimiter B} {ip : Bytes} {deadline : Int}

/-- The address is banned for logins until the deadline at least. -/
def BannedUntil (rl : RateLimiter B) (ip : Bytes) (deadline : Int) : Prop :=
  ∃ cs, rl.record? ip .login = some cs ∧ ∃ last, cs.bannedUntil = some last ∧ deadline ≤ last

theorem BannedUntil.refuses (h : rl.BannedUntil ip deadline) {now : Int} (hnow : now < deadline) :
    (rl.isBanned ip now).1 = true ∧ (rl.allow bucket ip .login now).2 = false := by
  obtain ⟨cs, hrecord, last, hlast, hle⟩ := h
  have hbefore : now < last := by omega
  constructor
  · rw [isBanned, hrecord, bind_some, hlast]
    simp [hbefore]
  · have hbanned : (rl.getOrCreate bucket ip .login now).banned now = true := by
      simp [getOrCreate, hrecord, ClientState.banned, hlast, hbefore]
    simp [allow, hbanned]

theorem BannedUntil.store_other (h : rl.BannedUntil ip deadline) {key : Bytes} {lt : LimitType}
    (hkey : ¬ (ip = key ∧ .login = lt)) (cs : ClientState B) :
    (rl.store key lt cs).BannedUntil ip deadline := by
  rw [BannedUntil, record?_store, if_neg hkey]
  exact h

theorem BannedUntil.store_self {cs : ClientState B} {last : Int}
    (hlast : cs.bannedUntil = some last)
    (hle : deadline ≤ last) : (rl.store ip .login cs).BannedUntil ip deadline := by
  rw [BannedUntil, record?_store, if_pos ⟨rfl, rfl⟩]
  exact ⟨cs, rfl, last, hlast, hle⟩

section
variable (h : rl.BannedUntil ip deadline)
include h

theorem BannedUntil.allow (key : Bytes) (lt : LimitType) (now : Int) :
    (rl.allow bucket key lt now).1.BannedUntil ip deadline := by
  rw [RateLimiter.allow]
  by_cases hkey : ip = key ∧ .login = lt
  · obtain ⟨rfl, rfl⟩ := hkey
    obtain ⟨cs, hrecord, last, hlast, hle⟩ := h
    have hcs : rl.getOrCreate bucket ip .login now = cs := by rw [getOrCreate, hrecord, getD_some]
    simp only [hcs]
    split_ifs
    · exact store_self hlast hle
    · exact store_self hlast hle
  · dsimp only
    split_ifs
    · exact h.store_other hkey _
    · exact h.store_other hkey _

theorem BannedUntil.recordFailure (key : Bytes) {now : Int}
    (hnow : deadline ≤ now + rl.banDuration) :
    (rl.recordFailure bucket key now).1.BannedUntil ip deadline := by
  rw [RateLimiter.recordFailure]
  by_cases hkey : ip = key
  · subst hkey
    obtain ⟨cs, hrecord, last, hlast, hle⟩ := h
    have hcs : rl.getOrCreate bucket ip .login now = cs := by rw [getOrCreate, hrecord, getD_some]
    simp only [hcs]
    split_ifs
    · exact store_self rfl hnow
    · exact store_self hlast hle
  · have hother : ¬ (ip = key ∧ LimitType.login = .login) := fun h => hkey h.1
    split_ifs
    · exact h.store_other hother _
    · exact h.store_other hother _

theorem BannedUntil.recordSuccess {key : Bytes} (hkey : ip ≠ key) :
    (rl.recordSuccess key).BannedUntil ip deadline := by
  rw [RateLimiter.recordSuccess]
  cases rl.record? key .login with
  | none => exact h
  | some cs => exact h.store_other (fun heq => hkey heq.1) _

theorem BannedUntil.cleanup {now : Int}
    (hfresh : ∀ cs ∈ rl.record? ip .login, rl.stale now cs = false) :
    (rl.cleanup now).BannedUntil ip deadline := by
  obtain ⟨cs, hrecord, hban⟩ := h
  refine ⟨cs, ?_, hban⟩
  rw [record?_cleanup, hrecord, filter_some, hfresh cs hrecord]
  rfl

end

/-- A tick, if it is one, does not find the login record of the address stale. -/
def Spares (rl : RateLimiter B) (ip : Bytes) (call : Int × LimiterCall) : Prop :=
  call.2 = .cleanup → ∀ cs ∈ rl.record? ip .login, rl.stale call.1 cs = false

/-- Every call keeps a ban, except a success of the same address and a tick that finds the
record stale. -/
theorem BannedUntil.step (h : rl.BannedUntil ip deadline) {call : Int × LimiterCall}
    (hnow : deadline ≤ call.1 + rl.banDuration) (hsuccess : call.2 ≠ .recordSuccess ip)
    (hspares : rl.Spares ip call) : (rl.step bucket call).BannedUntil ip deadline := by
  obtain ⟨now, call⟩ := call
  cases call with
  | allow key lt => exact h.allow key lt now
  | recordFailure key => exact h.recordFailure key hnow
  | recordSuccess key =>
    refine h.recordSuccess ?_
    rintro rfl
    exact hsuccess rfl
  | isBanned key => exact h
  | cleanup => exact h.cleanup (hspares rfl)

theorem run_append (rl : RateLimiter B) (calls : List (Int × LimiterCall))
    (call : Int × LimiterCall) :
    rl.run bucket (calls ++ [call]) = (rl.run bucket calls).step bucket call := by
  rw [run, foldl_append]
  rfl

@[simp] theorem banDuration_run (rl : RateLimiter B) (calls : List (Int × LimiterCall)) :
    (rl.run bucket calls).banDuration = rl.banDuration := by
  induction calls using reverseRecOn with
  | nil => rfl
  | append_singleton calls call ih => rw [run_append, banDuration_step, ih]

theorem BannedUntil.run (h : rl.BannedUntil ip deadline) {calls : List (Int × LimiterCall)}
    (hnow : ∀ call ∈ calls, deadline ≤ call.1 + rl.banDuration)
    (hsuccess : ∀ call ∈ calls, call.2 ≠ .recordSuccess ip)
    (hspares : AtEach (fun earlier call => (rl.run bucket earlier).Spares ip call) calls) :
    (rl.run bucket calls).BannedUntil ip deadline := by
  induction calls using reverseRecOn with
  | nil => exact h
  | append_singleton calls call ih =>
    obtain ⟨hearlier, hlast⟩ := of_forall_mem_snoc hnow
    obtain ⟨hothers, hother⟩ := of_forall_mem_snoc hsuccess
    have hkept := ih hearlier hothers hspares.init
    rw [run_append]
    refine hkept.step ?_ hother (hspares calls call [] rfl)
    rwa [banDuration_run]

/-- From now until the deadline, at every moment of the run, the address is banned and its
logins are refused. -/
def BanLasts (bucket : TokenBucket B) (rl : RateLimiter B) (ip : Bytes) (start deadline : Int)
    (calls : List (Int × LimiterCall)) : Prop :=
  ∀ earlier later, calls = earlier ++ later → ∀ now, start ≤ now →
    (∀ call ∈ earlier, call.1 ≤ now) → now < deadline →
      ((rl.run bucket earlier).isBanned ip now).1 = true ∧
        ((rl.run bucket earlier).allow bucket ip .login now).2 = false

/-- No tick before the deadline finds the login record of the address stale. -/
def SparedUntil (bucket : TokenBucket B) (rl : RateLimiter B) (ip : Bytes) (deadline : Int)
    (calls : List (Int × LimiterCall)) : Prop :=
  AtEach (fun earlier call => call.1 < deadline → (rl.run bucket earlier).Spares ip call) calls

instance (rl : RateLimiter B) (ip : Bytes) (call : Int × LimiterCall) :
    Decidable (rl.Spares ip call) :=
  inferInstanceAs (Decidable (call.2 = .cleanup → ∀ cs ∈ rl.record? ip .login, _))

instance (bucket : TokenBucket B) (rl : RateLimiter B) (ip : Bytes) (deadline : Int)
    (calls : List (Int × LimiterCall)) : Decidable (SparedUntil bucket rl ip deadline calls) :=
  inferInstanceAs (Decidable (AtEach _ _))

section Lasting
variable {start : Int} {calls : List (Int × LimiterCall)}

theorem le_of_chronological (h : Chronological start calls) : ∀ call ∈ calls, start ≤ call.1 :=
  fun _ hcall => rel_of_pairwise_cons h (mem_map_of_mem hcall)

/-- At a call, the clock has passed all calls before it. -/
theorem le_of_chronological_append {earlier later : List (Int × LimiterCall)}
    {call : Int × LimiterCall}
    (h : Chronological start (earlier ++ call :: later)) :
      ∀ before ∈ earlier, before.1 ≤ call.1 := by
  intro before hbefore
  have htimes := (pairwise_cons.mp h).2
  rw [map_append, pairwise_append] at htimes
  exact htimes.2.2 _ (mem_map_of_mem hbefore) _ (mem_map_of_mem mem_cons_self)

theorem banLasts_of_spared (hban : rl.BannedUntil ip deadline)
    (hdeadline : deadline ≤ start + rl.banDuration) (htimes : Chronological start calls)
    (hsuccess : ∀ call ∈ calls, call.2 ≠ .recordSuccess ip)
    (hspared : SparedUntil bucket rl ip deadline calls) :
      BanLasts bucket rl ip start deadline calls := by
  rintro earlier later rfl now hstart hearlier hnow
  have hmem : ∀ call ∈ earlier, call ∈ earlier ++ later := fun _ h => mem_append_left _ h
  refine BannedUntil.refuses (hban.run ?_
    (fun call hcall => hsuccess call (hmem call hcall)) ?_) hnow
  · intro call hcall
    have := le_of_chronological htimes call (hmem call hcall)
    omega
  · intro before call after hsplit
    refine hspared.init before call after hsplit ?_
    have := hearlier call (by simp [hsplit])
    omega

theorem spared_of_banLasts (htimes : Chronological start calls)
    (hlasts : BanLasts bucket rl ip start deadline calls) :
      SparedUntil bucket rl ip deadline calls := by
  rintro earlier ⟨now, call⟩ later rfl hnow rfl cs hcs
  by_contra hstale
  -- after this tick the record is gone, and with it the ban
  have hgone : ((rl.run bucket earlier).cleanup now).record? ip .login = none := by
    rw [record?_cleanup, mem_def.mp hcs, filter_some, Bool.of_not_eq_false hstale]
    rfl
  have hbanned := (hlasts (earlier ++ [(now, .cleanup)]) later (by simp) now
    (le_of_chronological htimes (now, .cleanup) (by simp)) ?_ hnow).1
  · rw [run_append] at hbanned
    exact absurd hbanned (by rw [step, isBanned, hgone]; exact Bool.false_ne_true)
  · exact forall_mem_append.mpr
      ⟨le_of_chronological_append htimes, forall_mem_singleton.mpr (le_refl _)⟩

end Lasting

/-- When a failure bans an address, from any state of the limiter, whatever calls from any
addresses, ticks and clock advances follow: as long as no success of that address is recorded,
the ban lasts its full time if and only if no tick before its end finds the login record stale. -/
theorem login_ban_lasts_iff (bucket : TokenBucket B) (rl : RateLimiter B) (ip : Bytes) (start : Int)
    (hban : (rl.recordFailure bucket ip start).2 = true) (calls : List (Int × LimiterCall))
    (htimes : Chronological start calls) (hsuccess : ∀ call ∈ calls, call.2 ≠ .recordSuccess ip) :
    BanLasts bucket (rl.recordFailure bucket ip start).1 ip start (start + rl.banDuration) calls ↔
      SparedUntil bucket (rl.recordFailure bucket ip start).1 ip
        (start + rl.banDuration) calls := by
  have hduration : (rl.recordFailure bucket ip start).1.banDuration = rl.banDuration :=
    banDuration_step rl (start, .recordFailure ip)
  constructor
  · exact spared_of_banLasts htimes
  · refine banLasts_of_spared ?_ (by rw [hduration]) htimes hsuccess
    rw [RateLimiter.recordFailure] at hban ⊢
    split_ifs at hban ⊢ with hmax
    exact BannedUntil.store_self rfl le_rfl

/-! ### Ten failures after a minute -/

/-- A bucket that never runs empty. -/
def openBucket : TokenBucket Unit := ⟨fun _ _ => (), fun b _ => (b, true)⟩

def attacker : Bytes := ascii "203.0.113.9"

/-- Nine failures, one minute after the start. -/
def nineFailures : RateLimiter Unit :=
  newRateLimiter.run openBucket (List.replicate 9 (60000, .recordFailure attacker))

/-- The first tick, and attempts before and after it. -/
def shortPause : List (Int × LimiterCall) :=
  [(120000, .allow attacker .login), (300000, .cleanup), (420000, .allow attacker .login)]

theorem login_ban_lasts_iff_short :
    (nineFailures.recordFailure openBucket attacker 60000).2 = true ∧
      BanLasts openBucket (nineFailures.recordFailure openBucket attacker 60000).1 attacker 60000
        (60000 + nineFailures.banDuration) shortPause := by
  have hban : (nineFailures.recordFailure openBucket attacker 60000).2 = true := by decide +kernel
  refine ⟨hban, (login_ban_lasts_iff openBucket nineFailures attacker 60000 hban shortPause ?_ ?_).mpr ?_⟩
  · rw [Chronological]
    decide
  · decide
  · decide +kernel

/-- The first two ticks. -/
def twoTicks : List (Int × LimiterCall) := [(300000, .cleanup), (600000, .cleanup)]

/-- Nine minutes into the ban the second tick deletes it. -/
theorem login_ban_cut_short :
    (nineFailures.recordFailure openBucket attacker 60000).2 = true ∧
      Chronological 60000 twoTicks ∧ (∀ call ∈ twoTicks, call.2 ≠ .recordSuccess attacker) ∧
      ¬ BanLasts openBucket (nineFailures.recordFailure openBucket attacker 60000).1 attacker 60000
        (60000 + nineFailures.banDuration) twoTicks := by
  refine ⟨by decide +kernel, ?_, by decide, ?_⟩
  · rw [Chronological]
    decide
  · intro hlasts
    have hbanned := (hlasts twoTicks [] (append_nil _).symm 600000 (by decide) (by decide)
      (by decide +kernel)).1
    revert hbanned
    decide +kernel

end RateLimiter

end HeyServer.Panel
