import HeyServer.Deploy.Staging
import HeyServer.Lib.Fallible

/-!
# Staging directories are apart

What the service compares are the cleaned paths of two targets with their links resolved. If the
kernel comes to the same directory along a stored path and along its cleaned form, then the
directories of a staging target and of any other target, or of the panel's data, do not contain each
other. A path that goes up again after a link need not have this property.

## Implementation notes

The invariant speaks about the comparisons the service has made; that they say something about the
kernel's directories is used once, at the end.
-/

namespace HeyServer.Deploy.Staging
open Lib Text List Option RowTable Service

/-! ## What is compared -/

variable {p q : List Bytes} {t : FileTree} {a b : Bytes}

theorem projectDirContains_absolute (hp : ∀ c ∈ p, isName c = true)
    (hq : ∀ c ∈ q, isName c = true) : projectDirContains (absolute p) (absolute q) = true ↔
    p <+: q := by
  rw [← rel_below_iff hp hq]
  simp [projectDirContains]

/-- Neither place lies at or below the other. -/
def Disjoint (p q : List Bytes) : Prop := ¬ p <+: q ∧ ¬ q <+: p

section Resolving
variable {t : FileTree} {path : Bytes} {p : List Bytes}

theorem names_of_lookup (h : t.lookup path = .found p) : ∀ c ∈ p, isName c = true := by
  have hends : t.Ends (t.lookup path) := FileTree.walk_ends _ t.root _
  rw [h] at hends
  exact FileTree.isName_of_mem (FileTree.Resolved.ne_none hends)

theorem resolveUp_ok {cleaned resolved : Bytes} {up : List Bytes}
    (h : t.evalSymlinks (absolute up.reverse) = .ok resolved) :
    resolveUp t cleaned up [] = .ok (clean resolved) := by
  cases up with
  | nil =>
    rw [reverse_nil] at h
    rw [resolveUp, h]
    rfl
  | cons name up =>
    rw [resolveUp, h]
    rfl

/-- Where the kernel comes to along the cleaned path is what the service compares. -/
theorem resolve_of_lookup (habs : isAbs path = true) (h : t.lookup (clean path) = .found p) :
    resolvePotentialProjectDir t path = .ok (absolute p) := by
  have heval : t.evalSymlinks (clean path) = .ok (absolute p) := by
    rw [FileTree.lookup] at h
    rw [FileTree.evalSymlinks, FileTree.walk_mono (show FileTree.kernelLinks ≤ 255 by decide)
      (by rw [h]; simp), h]
  rw [clean_eq_absolute habs, ← reverse_reverse (components path)] at heval
  rw [resolvePotentialProjectDir, isAbs_clean, habs, resolveUp_ok heval,
    clean_absolute (names_of_lookup h)]
  rfl

theorem resolve_clean (habs : isAbs path = true) :
    resolvePotentialProjectDir t (clean path) = resolvePotentialProjectDir t path := by
  have hcomponents : components (clean path) = components path := by
    rw [clean_eq_absolute habs, components_absolute (isName_of_mem_components habs)]
  rw [resolvePotentialProjectDir, resolvePotentialProjectDir, clean_clean habs, hcomponents]

/-- The kernel comes to the same place along the path and along its cleaned form. -/
def Direct (t : FileTree) (path : Bytes) : Prop :=
  ∀ p, t.lookup path = .found p → t.lookup (clean path) = .found p

section
variable (habs : isAbs path = true)
include habs

theorem direct_clean : Direct t (clean path) := by
  intro p hp
  rw [clean_clean habs]
  exact hp

/-- Without `..` the components that cleaning keeps are those a walk does not pass over. -/
theorem components_of_no_up (h : dotdot ∉ split 0x2F path) :
    components path = (split 0x2F path).filter (!FileTree.passed ·) := by
  have hpush : ∀ (parts kept : List Bytes), dotdot ∉ parts →
      parts.foldl (pushComponent true) kept =
        (parts.filter (!FileTree.passed ·)).reverse ++ kept := by
    intro parts
    induction parts with
    | nil => exact fun kept _ => rfl
    | cons c parts ih =>
      intro kept hparts
      rw [mem_cons, not_or] at hparts
      rw [foldl_cons, ih _ hparts.2]
      unfold pushComponent
      by_cases hskip : c = [] ∨ c = dot
      · rw [if_pos hskip, filter_cons_of_neg]
        simpa [FileTree.passed, or_iff_not_imp_left] using hskip
      · rw [if_neg hskip, if_neg (Ne.symm hparts.1),
          filter_cons_of_pos (by simpa [FileTree.passed] using hskip), reverse_cons,
          append_assoc]
        rfl
  rw [components, habs, hpush _ [] h, append_nil, reverse_reverse]

/-- A path without `..` is direct. -/
theorem direct_of_no_up (h : dotdot ∉ split 0x2F path) : Direct t path := by
  intro p hp
  have hnames := isName_of_mem_components habs
  rw [clean_eq_absolute habs, FileTree.lookup, FileTree.walk_absolute _
    fun c hc => (isName_iff.mp (hnames c hc)).2.2.2, components_of_no_up habs h]
  exact FileTree.walk_thinned _ (FileTree.thinned_filter _) hp

end

end Resolving

/-! ## What the checks establish -/

/-- The service has compared the two paths, or could not resolve one of them. -/
def Apart (t : FileTree) (a b : Bytes) : Prop :=
  ∀ r r', resolvePotentialProjectDir t a = .ok r → resolvePotentialProjectDir t b = .ok r' →
    projectDirsOverlap r r' = false

theorem Apart.symm (h : Apart t a b) : Apart t b a := by
  intro r r' hr hr'
  rw [projectDirsOverlap, Bool.or_comm]
  exact h r' r hr' hr

theorem Apart.clean_left (h : Apart t a b) (habs : isAbs a = true) : Apart t (clean a) b := by
  intro r r' hr
  rw [resolve_clean habs] at hr
  exact h r r' hr

/-- Directories of direct paths that the service found apart are disjoint. -/
theorem Apart.disjoint (h : Apart t a b)
    (ha : isAbs a = true) (hb : isAbs b = true) (hdirectA : Direct t a) (hdirectB : Direct t b)
    (hp : t.lookup a = .found p) (hq : t.lookup b = .found q) : Disjoint p q := by
  have hapart := h _ _ (resolve_of_lookup ha (hdirectA p hp)) (resolve_of_lookup hb (hdirectB q hq))
  obtain ⟨hpq, hqp⟩ := Bool.or_eq_false_iff.mp hapart
  constructor
  · intro hprefix
    rw [(projectDirContains_absolute (names_of_lookup hp) (names_of_lookup hq)).mpr hprefix] at hpq
    cases hpq
  · intro hprefix
    rw [(projectDirContains_absolute (names_of_lookup hq) (names_of_lookup hp)).mpr hprefix] at hqp
    cases hqp

theorem checkRows_eq_ok {candidate : Bytes} {unresolved overlaps : Nat → Bytes}
    {rows : List (Nat × Target)} (h : checkRows t candidate unresolved overlaps rows = .ok ()) :
    ∀ id row, (id, row) ∈ rows → ∀ r, resolvePotentialProjectDir t row.projectDir = .ok r →
      projectDirsOverlap candidate r = false := by
  fun_induction checkRows t candidate unresolved overlaps rows with
  | case1 =>
    intro id row hmem
    cases hmem
  | case2 | case3 => cases h
  | case4 _ _ _ _ hresolve hoverlap ih =>
    intro id row hmem r hr
    rcases mem_cons.mp hmem with heq | hmem
    · cases heq
      rw [← Except.ok.inj (hresolve.symm.trans hr)]
      exact Bool.eq_false_iff.mpr hoverlap
    · exact ih h id row hmem r hr

section Checks
variable {s : Service} {targets : RowTable Target} {exclude : Nat} {candidate : Bytes}

section
variable (h : s.validateIsolatedProjectDir targets exclude candidate = .ok ())
include h

/-- Both checks of a staging directory have passed. -/
theorem isolated_eq_ok {r : Bytes} (hr : resolvePotentialProjectDir s.tree candidate = .ok r) :
    s.checkDataDir r = .ok () ∧ ∃ unresolved overlaps,
      checkRows s.tree r unresolved overlaps (targets.select fun id _ => id ≠ exclude) =
        .ok () := by
  rw [validateIsolatedProjectDir, hr] at h
  obtain ⟨_, hdata, hrows⟩ := bind_eq_ok.mp h
  exact ⟨hdata, _, _, hrows⟩

theorem apart_dataDir_of_isolated {dir : Bytes} (hdir : s.dataDir = some dir) :
    Apart s.tree candidate dir := by
  intro r r' hr hr'
  obtain ⟨hdata, -⟩ := isolated_eq_ok h hr
  rw [checkDataDir, hdir] at hdata
  dsimp only at hdata
  rw [hr'] at hdata
  dsimp only at hdata
  split_ifs at hdata with hoverlap
  · cases hdata
  · exact Bool.eq_false_iff.mpr hoverlap

end

end Checks

/-! ## The invariant -/

/-- Every staging target was compared with every other target and with the data directory. -/
structure Separated (s : Service) (targets : RowTable Target) : Prop where
  positive : ∀ id row, targets.get? id = some row → id ≠ 0
  isAbs : ∀ id row, targets.get? id = some row → Text.isAbs row.projectDir = true
  direct : ∀ id row, targets.get? id = some row → Direct s.tree row.projectDir
  apart : ∀ i j row other, targets.get? i = some row → targets.get? j = some other → i ≠ j →
    row.environment = .staging → Apart s.tree row.projectDir other.projectDir
  data : ∀ id row dir, targets.get? id = some row → row.environment = .staging →
    s.dataDir = some dir → Apart s.tree row.projectDir dir

/-- What a row must meet to be stored under a key. -/
structure Fits (s : Service) (targets : RowTable Target) (id : Nat) (row : Target) : Prop where
  positive : id ≠ 0
  isAbs : Text.isAbs row.projectDir = true
  direct : Direct s.tree row.projectDir
  apart : ∀ j other, targets.get? j = some other → j ≠ id →
    row.environment = .staging ∨ other.environment = .staging →
      Apart s.tree row.projectDir other.projectDir
  data : ∀ dir, row.environment = .staging → s.dataDir = some dir → Apart s.tree row.projectDir dir

section Invariant
variable {s : Service} {targets targets' : RowTable Target}
  {id now : Nat} {row : Target} {fails : Bool}

section
variable (hs : Separated s targets)
include hs

/-- One row is written and the others stay. -/
theorem Separated.put (hput : ∀ j other, targets'.get? j = some other → (j = id ∧ other = row) ∨
      (j ≠ id ∧ targets.get? j = some other))
    (hfits : Fits s targets id row) : Separated s targets' where
  positive j other hother := by
    rcases hput j other hother with ⟨rfl, rfl⟩ | ⟨-, hold⟩
    · exact hfits.positive
    · exact hs.positive j other hold
  isAbs j other hother := by
    rcases hput j other hother with ⟨rfl, rfl⟩ | ⟨-, hold⟩
    · exact hfits.isAbs
    · exact hs.isAbs j other hold
  direct j other hother := by
    rcases hput j other hother with ⟨rfl, rfl⟩ | ⟨-, hold⟩
    · exact hfits.direct
    · exact hs.direct j other hold
  apart i j first second hfirst hsecond hij hstaging := by
    rcases hput i first hfirst with ⟨rfl, rfl⟩ | ⟨hi, hi'⟩
    · rcases hput j second hsecond with ⟨rfl, -⟩ | ⟨hj, hj'⟩
      · exact absurd rfl hij
      · exact hfits.apart j second hj' hj (.inl hstaging)
    · rcases hput j second hsecond with ⟨rfl, rfl⟩ | ⟨hj, hj'⟩
      · exact (hfits.apart i first hi' hi (.inr hstaging)).symm
      · exact hs.apart i j first second hi' hj' hij hstaging
  data j other dir hother hstaging hdir := by
    rcases hput j other hother with ⟨rfl, rfl⟩ | ⟨-, hold⟩
    · exact hfits.data dir hstaging hdir
    · exact hs.data j other dir hold hstaging hdir

theorem Separated.insert
    (hfits : Fits s targets (targets.seq + 1) row) : Separated s (targets.insert row) := by
  refine hs.put ?_ hfits
  intro j other hother
  rw [get?_insert] at hother
  split_ifs at hother with hj
  · exact .inl ⟨hj, (some.inj hother).symm⟩
  · exact .inr ⟨hj, hother⟩

theorem Separated.delete (drop : Nat → Target → Bool) : Separated s (targets.delete drop) := by
  have hold : ∀ {id row}, (targets.delete drop).get? id = some row →
      targets.get? id = some row := by
    intro id row hrow
    rw [get?_delete] at hrow
    exact (filter_eq_some_iff.mp hrow).1
  exact
    { positive := fun id row hrow => hs.positive id row (hold hrow)
      isAbs := fun id row hrow => hs.isAbs id row (hold hrow)
      direct := fun id row hrow => hs.direct id row (hold hrow)
      apart := fun i j row other hrow hother => hs.apart i j row other (hold hrow) (hold hother)
      data := fun id row dir hrow => hs.data id row dir (hold hrow) }

end

theorem separated_empty (s : Service) : Separated s .empty where
  positive _ _ h := by cases h
  isAbs _ _ h := by cases h
  direct _ _ h := by cases h
  apart _ _ _ _ h := by cases h
  data _ _ _ h := by cases h

theorem store_eq_ok (h : store fails targets = .ok targets') : targets' = targets :=
  (Except.ok.inj (ite_error_eq_ok.mp h).2).symm

/-- A target that passed its checks has an absolute project directory. -/
theorem isAbs_of_valid {checks : Checks} {name repoURL branch projectDir : Bytes}
    {kind : DeployKind}
    {composeFile deployScript : Bytes} {webhook : Bool}
    (h : validateDeployTarget checks name repoURL branch projectDir kind composeFile deployScript
      webhook = .ok ()) : isAbs projectDir = true := by
  obtain ⟨-, h⟩ := ite_error_eq_ok.mp h
  obtain ⟨-, h⟩ := ite_error_eq_ok.mp h
  obtain ⟨habs, -⟩ := ite_error_eq_ok.mp h
  simpa using habs

/-- A production row that passed its checks fits. -/
theorem fits_production (hs : Separated s targets) {exclude : Nat} (hid : id ≠ 0)
    (hexclude : exclude = id ∨ exclude = 0) (habs : isAbs row.projectDir = true)
    (hdirect : Direct s.tree row.projectDir) (hproduction : row.environment ≠ .staging)
    (h : s.validateProductionProjectDir targets exclude row.projectDir = .ok ()) :
    Fits s targets id row where
  positive := hid
  isAbs := habs
  direct := hdirect
  apart j other hother hj hstaging := by
    have hj' : j ≠ exclude := by
      rcases hexclude with rfl | rfl
      · exact hj
      · exact hs.positive j other hother
    intro r r' hr hr'
    rw [validateProductionProjectDir, hr] at h
    have hstaged := hstaging.resolve_left hproduction
    exact checkRows_eq_ok h j other (mem_select.mpr ⟨hother, by simp [hstaged, hj']⟩) r' hr'
  data _ hstaging := absurd hstaging hproduction

/-- A staging row whose directory passed its checks, as it is or cleaned, fits. -/
theorem fits_staging (hs : Separated s targets) {exclude : Nat} {candidate : Bytes}
    (hid : id ≠ 0) (hexclude : exclude = id ∨ exclude = 0) (habs : Text.isAbs candidate = true)
    (hrow : row.projectDir = candidate ∨ row.projectDir = clean candidate)
    (hdirect : Direct s.tree row.projectDir)
    (h : s.validateIsolatedProjectDir targets exclude candidate = .ok ()) :
      Fits s targets id row := by
  have hapart : ∀ b, Apart s.tree candidate b → Apart s.tree row.projectDir b := by
    intro b hb
    rcases hrow with hrow | hrow
    · rw [hrow]
      exact hb
    · rw [hrow]
      exact hb.clean_left habs
  constructor
  · exact hid
  · rcases hrow with hrow | hrow
    · rw [hrow]
      exact habs
    · rw [hrow, isAbs_clean]
      exact habs
  · exact hdirect
  · intro j other hother hj _
    apply hapart
    intro r r' hr hr'
    obtain ⟨-, unresolved, overlaps, hrows⟩ := isolated_eq_ok h hr
    refine checkRows_eq_ok hrows j other (mem_select.mpr ⟨hother, decide_eq_true ?_⟩) r' hr'
    rcases hexclude with rfl | rfl
    · exact hj
    · exact hs.positive j other hother
  · intro dir _ hdir
    exact hapart dir (apart_dataDir_of_isolated h hdir)

/-- A project directory that a call stores as it was given leads where its cleaned form leads. -/
def TargetCall.IsDirect (t : FileTree) : TargetCall → Prop
  | .create request _ _ => Direct t (trimSpace request.projectDir)
  | .update _ request _ _ _ => Direct t (trimSpace request.projectDir)
  | .createStaging _ _ _ _ _ => True
  | .delete _ _ _ => True

section
variable (hs : Separated s targets)
include hs

variable {request : TargetRequest}

theorem Separated.createTarget (hdirect : Direct s.tree (trimSpace request.projectDir))
    (h : s.createTarget targets request now fails = .ok targets') : Separated s targets' := by
  obtain ⟨_, hvalid, h⟩ := bind_eq_ok.mp h
  obtain ⟨_, hproduction, h⟩ := bind_eq_ok.mp h
  rw [store_eq_ok h]
  apply hs.insert
  refine fits_production hs (Nat.succ_ne_zero _) (.inr rfl)
    (isAbs_of_valid hvalid) hdirect ?_ hproduction
  intro hstaging
  cases hstaging

theorem Separated.createStagingTarget {source : Nat} {request : StagingRequest} {webhook : Bool}
    (h : s.createStagingTarget targets source request webhook now fails = .ok targets') :
    Separated s targets' := by
  obtain ⟨habs, h⟩ := ite_error_eq_ok.mp h
  have habs : Text.isAbs (trimSpace request.projectDir) = true := by
    rw [Bool.not_eq_true, Bool.or_eq_false_iff] at habs
    simpa using habs.2
  split at h
  · cases h
  · obtain ⟨-, h⟩ := ite_error_eq_ok.mp h
    obtain ⟨-, h⟩ := ite_error_eq_ok.mp h
    obtain ⟨_, -, h⟩ := bind_eq_ok.mp h
    obtain ⟨_, hisolated, h⟩ := bind_eq_ok.mp h
    rw [store_eq_ok h]
    apply hs.insert
    exact fits_staging hs (Nat.succ_ne_zero _) (.inr rfl) habs (.inr rfl)
      (direct_clean habs) hisolated

theorem Separated.setTarget {req : TargetRequest}
    {existing : Target} (hexisting : targets.get? id = some existing)
    (hfits : Fits s targets id { req.row now with
      environment := existing.environment, sourceTargetID := existing.sourceTargetID }) :
    Separated s (setTarget targets id req now) := by
  refine hs.put ?_ hfits
  intro j other hother
  rw [Staging.setTarget, get?_update] at hother
  obtain ⟨old, hold, heq⟩ := map_eq_some_iff.mp hother
  by_cases hj : j = id
  · rw [if_pos (decide_eq_true hj)] at heq
    rw [hj, hexisting] at hold
    rw [← some.inj hold] at heq
    exact .inl ⟨hj, heq.symm⟩
  · rw [if_neg (by simpa using hj)] at heq
    rw [← heq]
    exact .inr ⟨hj, hold⟩

theorem Separated.updateTarget {expectedUpdatedAt : Option Nat}
    (hdirect : Direct s.tree (trimSpace request.projectDir))
    (h : s.updateTarget targets id request expectedUpdatedAt now fails = .ok targets') :
    Separated s targets' := by
  rw [Service.updateTarget] at h
  split at h
  · rw [← Except.ok.inj h]
    exact hs
  · next existing hexisting =>
    have hid := hs.positive id existing hexisting
    obtain ⟨-, h⟩ := ite_error_eq_ok.mp h
    obtain ⟨-, h⟩ := ite_error_eq_ok.mp h
    obtain ⟨_, hvalid, h⟩ := bind_eq_ok.mp h
    have habs := isAbs_of_valid hvalid
    split_ifs at h with hstaging
    · obtain ⟨_, hisolated, h⟩ := bind_eq_ok.mp h
      rw [store_eq_ok h]
      apply hs.setTarget hexisting
      exact fits_staging hs hid (.inl rfl) habs (.inl rfl) hdirect hisolated
    · obtain ⟨_, hproduction, h⟩ := bind_eq_ok.mp h
      rw [store_eq_ok h]
      apply hs.setTarget hexisting
      exact fits_production hs hid (.inl rfl) habs hdirect hstaging hproduction

theorem Separated.step {c : TargetCall} (hc : c.IsDirect s.tree) :
    Separated s (s.step targets c) := by
  unfold Service.step
  cases h : s.call targets c with
  | error e => exact hs
  | ok targets' =>
    cases c with
    | create request now fails => exact hs.createTarget hc h
    | createStaging source request webhook now fails => exact hs.createStagingTarget h
    | update id request expectedUpdatedAt now fails => exact hs.updateTarget hc h
    | delete id domains fails =>
      obtain ⟨-, h⟩ := ite_error_eq_ok.mp h
      obtain ⟨-, h⟩ := ite_error_eq_ok.mp h
      rw [store_eq_ok h]
      exact hs.delete _

end

theorem separated_run {calls : List TargetCall} (hcalls : ∀ c ∈ calls, c.IsDirect s.tree) :
    Separated s (s.run calls) := by
  unfold run
  induction calls using reverseRecOn with
  | nil => exact separated_empty s
  | append_singleton calls c ih =>
    rw [foldl_append, foldl_cons, foldl_nil]
    apply Separated.step
    · exact ih fun c' hc' => hcalls c' (mem_append_left _ hc')
    · exact hcalls c (mem_append_right _ (mem_singleton_self c))

end Invariant

/-! ## The kernel's directories -/

/-- The kernel's directories of staging targets are disjoint from those of the other targets and
from the data directory. -/
structure Isolated (s : Service) (targets : RowTable Target) : Prop where
  others : ∀ i j row other p q, targets.get? i = some row → row.environment = .staging →
    targets.get? j = some other → i ≠ j → s.tree.directory row.projectDir = some p →
    s.tree.directory other.projectDir = some q → Disjoint p q
  data : ∀ i row dir p q, targets.get? i = some row → row.environment = .staging →
    s.configured = some dir → s.tree.directory row.projectDir = some p →
    s.tree.directory dir = some q → Disjoint p q

theorem lookup_of_directory {path : Bytes}
    (h : t.directory path = some p) : t.lookup path = .found p := by
  revert h
  fun_cases FileTree.directory t path with
  | case1 q hlookup hdir =>
    rintro ⟨⟩
    exact hlookup
  | _ => rintro ⟨⟩

/-- If every project directory that is stored as it was given, and the configured data directory,
lead where their cleaned forms lead, staging targets share no directory with anything else. -/
theorem staging_isolated (s : Service) (calls : List TargetCall)
    (hcalls : ∀ c ∈ calls, c.IsDirect s.tree)
    (hdata : ∀ dir, s.configured = some dir → Direct s.tree dir) : Isolated s (s.run calls) := by
  have hs := separated_run hcalls
  constructor
  · intro i j row other p q hrow hstaging hother hij hp hq
    have hapart := hs.apart i j row other hrow hother hij hstaging
    exact hapart.disjoint (hs.isAbs i row hrow) (hs.isAbs j other hother) (hs.direct i row hrow)
      (hs.direct j other hother) (lookup_of_directory hp) (lookup_of_directory hq)
  · intro i row dir p q hrow hstaging hdir hp hq
    have habs := s.isAbs_configured dir hdir
    have hclean : Apart s.tree row.projectDir (clean dir) :=
      hs.data i row (clean dir) hrow hstaging (congrArg (Option.map clean) hdir)
    have hapart : Apart s.tree row.projectDir dir := by
      intro r r' hr hr'
      apply hclean r r' hr
      rw [resolve_clean habs]
      exact hr'
    exact hapart.disjoint (hs.isAbs i row hrow) habs (hs.direct i row hrow) (hdata dir hdir)
      (lookup_of_directory hp) (lookup_of_directory hq)

/-! ## A link on the way up -/

def place (path : String) : List Bytes := FileTree.pathNames (ascii path)

/-- `/srv/link` leads into `/data`. -/
def linkedEntries : List (List Bytes × Node) :=
  [(place "/prod", .dir), (place "/panel", .dir), (place "/srv", .dir), (place "/srv/live", .dir),
    (place "/srv/link", .link (ascii "/data/deep")), (place "/data", .dir),
      (place "/data/deep", .dir),
    (place "/data/live", .dir)]

def linkedService : Service where
  tree := FileTree.ofEntries linkedEntries (by decide +kernel)
  checks := ⟨fun _ => true, fun _ => true⟩
  configured := some (ascii "/panel")
  isAbs_configured d hd := by
    cases hd
    rfl

/-- A production target, a staging target in `/data/live`, and a target whose directory is given by
`dir`. -/
def threeTargets (dir : String) : List TargetCall :=
  [.create ⟨ascii "shop", [], [], ascii "/prod", .unset, [], [], true⟩ 1 false,
    .createStaging 1 ⟨[], [], ascii "/data/./live/"⟩ true 2 false,
    .create ⟨ascii "blog", [], [], ascii dir, .unset, [], [], true⟩ 3 false]

/-- The last target stored. -/
def blog (dir : String) : Target :=
  ⟨ascii "blog", [], ascii "main", ascii dir, .production, none, .script, [], [], 3⟩

def shopStaging : Target :=
  ⟨ascii "shop Staging", [], ascii "main", ascii "/data/live", .staging, some 1, .script, [], [], 2⟩

theorem staging_isolated_plain :
    ((linkedService.run (threeTargets "/srv/live")).get? 2 = some shopStaging ∧
      (linkedService.run (threeTargets "/srv/live")).get? 3 = some (blog "/srv/live")) ∧
      Isolated linkedService (linkedService.run (threeTargets "/srv/live")) := by
  have hdirect : ∀ {path : Bytes}, isAbs path = true → dotdot ∉ split 0x2F path →
      Direct linkedService.tree path := direct_of_no_up
  refine ⟨by decide +kernel, staging_isolated linkedService _ ?_ ?_⟩
  · intro c hc
    rcases mem_cons.mp hc with rfl | hc
    · exact hdirect (by decide +kernel) (by decide +kernel)
    rcases mem_cons.mp hc with rfl | hc
    · trivial
    rw [mem_singleton.mp hc]
    exact hdirect (by decide +kernel) (by decide +kernel)
  · intro dir hdir
    cases hdir
    exact hdirect (by decide +kernel) (by decide +kernel)

/-- The cleaned path is `/srv/live`, the kernel comes to `/data/live`. -/
theorem staging_shares_directory :
    ¬ Isolated linkedService (linkedService.run (threeTargets "/srv/link/../live")) := by
  intro h
  have hstaging : (linkedService.run (threeTargets "/srv/link/../live")).get? 2 =
      some shopStaging := by
    decide +kernel
  have hblog : (linkedService.run (threeTargets "/srv/link/../live")).get? 3 =
      some (blog "/srv/link/../live") := by
    decide +kernel
  have hfirst : linkedService.tree.directory shopStaging.projectDir =
      some (place "/data/live") := by
    decide +kernel
  have hsecond : linkedService.tree.directory (blog "/srv/link/../live").projectDir =
      some (place "/data/live") := by
    decide +kernel
  exact (h.others 2 3 _ _ _ _ hstaging rfl hblog (by decide) hfirst hsecond).1 prefix_rfl

end HeyServer.Deploy.Staging
