import HeyServer.Lib.Affixes
import HeyServer.Lib.Fallible
import HeyServer.Lib.StrMap
import HeyServer.Lib.Text

/-!
# Deploy environments

The variables of a compose target are kept in a file of its own, one a line with the value in single
quotes. Setting or deleting a variable reads the file and writes it anew.

## Implementation notes

A map of strings is a `StrMap`; its entries are in the order in which the writer sorts the keys. The
mutex of the service makes a call one step, and the steps on files succeed. Whether
`configuredComposeTarget` accepts a target is a parameter that differs from call to call.
-/

namespace HeyServer.Deploy
open Lib Affixes Text List Function Except

inductive EnvironmentError
  /-- refused by `configuredComposeTarget` -/
  | target
  | storeUnavailable
  /-- `ErrInvalidEnvironmentVariable` with what follows it -/
  | invalidVariable (reason : Bytes)
  | invalidFileKey
  | invalidFileValue

def maxEnvironmentValueBytes : Nat := 65536

def isEnvironmentKeyByte (b : UInt8) : Bool :=
  (0x41 ≤ b && b ≤ 0x5A) || (0x61 ≤ b && b ≤ 0x7A) || (0x30 ≤ b && b ≤ 0x39) || b = 0x5F

def environmentKeyPattern (key : Bytes) : Bool :=
  key.head?.any (fun b => !(0x30 ≤ b && b ≤ 0x39)) && key.length ≤ 128 &&
    key.all isEnvironmentKeyByte

/-- The environment file of each target. -/
abbrev EnvironmentFiles := Int → Option Bytes

/-- `models.DeployEnvironment`: whether there is a file, and the sorted keys. -/
structure EnvironmentMetadata where
  configured : Bool
  keys : List Bytes

variable (values : StrMap)

def environmentMetadata (configured : Bool) : EnvironmentMetadata :=
  ⟨configured, values.entries.map Prod.fst⟩

/-- One turn of the loop in `readEnvironment`. -/
def readLine (line : Bytes) : Except EnvironmentError StrMap :=
  if line = [] then .ok values
  else
    match cut 0x3D line with
    | none => .error .invalidFileKey
    | some (key, encoded) =>
      if environmentKeyPattern key = false then .error .invalidFileKey
      else if encoded.length < 2 ∨ encoded.head? ≠ some 0x27 ∨ encoded.getLast? ≠ some 0x27 then
        .error .invalidFileValue
      else .ok (values.insert key (encoded.drop 1).dropLast)

def environmentLine (e : Bytes × Bytes) : Bytes := e.1 ++ 0x3D :: 0x27 :: e.2 ++ [0x27]

/-- The text that `writeEnvironment` builds. -/
def environmentText : Bytes :=
  values.entries.flatMap fun e => environmentLine e ++ [0x0A]

/-- A call on the environment of a target. -/
inductive EnvironmentCall
  | set (targetID : Int) (key value : Bytes)
  | delete (targetID : Int) (key : Bytes)

structure EnvironmentService where
  envDir : Bytes
  configuredComposeTarget : Int → Bool

namespace EnvironmentService
variable (s : EnvironmentService) (files : EnvironmentFiles) (targetID : Int)

def readEnvironment : Except EnvironmentError (StrMap × Bool) :=
  if s.envDir = [] then .error .storeUnavailable
  else
    match files targetID with
    | none => .ok (.empty, false)
    | some content => do
      let values ← (split 0x0A (trimSuffix content [0x0A])).foldlM readLine .empty
      return (values, true)

def writeEnvironment (values : StrMap) : Except EnvironmentError EnvironmentFiles :=
  if s.envDir = [] then .error .storeUnavailable
  else .ok (Function.update files targetID (some (environmentText values)))

/-- The checks with which both calls begin, and the key they go on with. -/
def checkedKey (key : Bytes) : Except EnvironmentError Bytes :=
  if s.configuredComposeTarget targetID = false then .error .target
  else if environmentKeyPattern (trimSpace key) = false then .error (.invalidVariable (ascii "key"))
  else .ok (trimSpace key)

def setEnvironmentVariable (key value : Bytes) :
    Except EnvironmentError (EnvironmentFiles × EnvironmentMetadata) := do
  let key ← s.checkedKey targetID key
  if maxEnvironmentValueBytes < value.length then
    .error (.invalidVariable (ascii "value exceeds 64 KiB"))
  else if containsAny value [0, 0x0D, 0x0A, 0x27] then
    .error (.invalidVariable (ascii "value contains an unsupported character"))
  else
    let (values, _) ← s.readEnvironment files targetID
    let files ← s.writeEnvironment files targetID (values.insert key value)
    return (files, environmentMetadata (values.insert key value) true)

def deleteEnvironmentVariable (key : Bytes) :
    Except EnvironmentError (EnvironmentFiles × EnvironmentMetadata) := do
  let key ← s.checkedKey targetID key
  let (values, exists_) ← s.readEnvironment files targetID
  if !exists_ then return (files, environmentMetadata values false)
  else if (values.erase key).size = 0 then
    return (Function.update files targetID none, environmentMetadata (values.erase key) false)
  else
    let files ← s.writeEnvironment files targetID (values.erase key)
    return (files, environmentMetadata (values.erase key) true)

def exec : EnvironmentCall → Except EnvironmentError (EnvironmentFiles × EnvironmentMetadata)
  | .set targetID key value => s.setEnvironmentVariable files targetID key value
  | .delete targetID key => s.deleteEnvironmentVariable files targetID key

/-- The files that accepted calls leave, starting without any. -/
inductive Accepted : List EnvironmentCall → EnvironmentFiles → Prop
  | nil : Accepted [] fun _ => none
  | snoc {calls files call files' metadata} (compose : Int → Bool) (before : Accepted calls files)
      (step : exec ⟨s.envDir, compose⟩ files call = .ok (files', metadata)) :
      Accepted (calls ++ [call]) files'

end EnvironmentService

namespace EnvironmentCall

def targetID : EnvironmentCall → Int
  | set targetID _ _ | delete targetID _ => targetID

/-- What a call makes of the variables. -/
def apply (m : Bytes → Option Bytes) : EnvironmentCall → Bytes → Option Bytes
  | set _ key value => Function.update m (trimSpace key) (some value)
  | delete _ key => Function.update m (trimSpace key) none

/-- The variables of a target after its calls. -/
def applied (calls : List EnvironmentCall) (targetID : Int) : Bytes → Option Bytes :=
  (calls.filter (·.targetID = targetID)).foldl apply fun _ => none

end EnvironmentCall

/-! ## Files -/

/-- An entry the service may store. -/
def Storable (e : Bytes × Bytes) : Prop := environmentKeyPattern e.1 = true ∧ 0x0A ∉ e.2

/-- The file in which the values are stored. -/
def fileOf : Option Bytes :=
  if values.entries = [] then none else some (environmentText values)

theorem not_mem_key {key : Bytes} (h : environmentKeyPattern key = true) {b : UInt8}
    (hb : isEnvironmentKeyByte b = false) : b ∉ key := by
  intro hmem
  have hall := all_eq_true.mp (Bool.and_eq_true_iff.mp h).2 b hmem
  rw [hb] at hall
  cases hall

theorem readLine_environmentLine {e : Bytes × Bytes} (h : Storable e) :
    readLine values (environmentLine e) = .ok (values.insert e.1 e.2) := by
  have hcut : cut 0x3D (environmentLine e) = some (e.1, 0x27 :: e.2 ++ [0x27]) := by
    have hkey : ∀ b ∈ e.1, decide (b ≠ 0x3D) = true := fun b hb =>
      decide_eq_true fun heq => not_mem_key h.1 (by decide) (heq ▸ hb)
    rw [cut, environmentLine, append_assoc, if_pos (by simp), takeWhile_append_of_pos hkey,
      dropWhile_append_of_pos hkey]
    simp
  rw [readLine, if_neg (by simp [environmentLine]), hcut]
  simp [h.1, getLast?_cons]

variable {l : List (Bytes × Bytes)}

theorem environmentText_eq (hne : l ≠ []) : l.flatMap (fun e => environmentLine e ++ [0x0A]) =
      join 0x0A (l.map environmentLine) ++ [0x0A] := by
  induction l with
  | nil => exact absurd rfl hne
  | cons e l ih =>
    cases l with
    | nil => simp [join]
    | cons next l =>
      rw [flatMap_cons, ih (cons_ne_nil _ _)]
      simp [join]

theorem foldlM_readLine (h : ∀ e ∈ l, Storable e) (values : StrMap) :
    (l.map environmentLine).foldlM readLine values =
      .ok (l.foldl (fun m e => m.insert e.1 e.2) values) := by
  induction l generalizing values with
  | nil => rfl
  | cons e l ih =>
    obtain ⟨he, hl⟩ := forall_mem_cons.mp h
    rw [map_cons, foldlM_cons, readLine_environmentLine values he]
    exact ih hl _

namespace EnvironmentService
variable {s : EnvironmentService} {files files' : EnvironmentFiles} {values : StrMap} {id : Int}

theorem readEnvironment_fileOf (hfile : files id = fileOf values)
    (hvalues : ∀ e ∈ values.entries, Storable e) : s.readEnvironment files id =
      if s.envDir = [] then .error .storeUnavailable else .ok (values, (files id).isSome) := by
  refine if_congr Iff.rfl rfl ?_
  rw [hfile, fileOf]
  split_ifs with hempty
  · exact congrArg (fun v => ok (v, false)) (StrMap.ext hempty.symm)
  · have hlines : ∀ line ∈ values.entries.map environmentLine, 0x0A ∉ line := by
      intro line hline
      obtain ⟨e, he, rfl⟩ := mem_map.mp hline
      have hkey := not_mem_key (hvalues e he).1 (b := 0x0A) (by decide)
      simp [environmentLine, hkey, (hvalues e he).2]
    dsimp only
    rw [environmentText, environmentText_eq hempty, trimSuffix_append,
      split_join (by simpa using hempty) hlines, foldlM_readLine hvalues]
    exact congrArg (fun v => ok (v, true)) (StrMap.ofList_entries values)

theorem checkedKey_ok {key key' : Bytes} (h : s.checkedKey id key = .ok key') :
    environmentKeyPattern key' = true ∧ key' = trimSpace key := by
  obtain ⟨hpattern, h⟩ := ite_error_eq_ok.mp (ite_error_eq_ok.mp h).2
  cases h
  exact ⟨by simpa using hpattern, rfl⟩

theorem writeEnvironment_then {metadata m : EnvironmentMetadata}
    (h : (do let files ← s.writeEnvironment files id values; return (files, m)) =
      Except.ok (files', metadata)) :
    Function.update files id (some (environmentText values)) = files' := by
  obtain ⟨_, hwrite, h⟩ := bind_eq_ok.mp h
  cases (ite_error_eq_ok.mp hwrite).2
  cases h
  rfl

/-- A call stores what it makes of the values, and in the file of its target only. -/
theorem exec_fileOf {call : EnvironmentCall} {metadata : EnvironmentMetadata}
    (h : s.exec files call = .ok (files', metadata))
    (hfile : files call.targetID = fileOf values) (hvalues : ∀ e ∈ values.entries, Storable e) :
    ∃ values', files' = Function.update files call.targetID (fileOf values') ∧
      values'.lookup = call.apply values.lookup ∧ ∀ e ∈ values'.entries, Storable e := by
  have hread {r} (h : s.readEnvironment files call.targetID = .ok r) :
      (values, (files call.targetID).isSome) = r :=
    ok.inj (ite_error_eq_ok.mp ((readEnvironment_fileOf hfile hvalues).symm.trans h)).2
  cases call with
  | set id key value =>
    obtain ⟨_, hkey, h⟩ := bind_eq_ok.mp h
    obtain ⟨hpattern, rfl⟩ := checkedKey_ok hkey
    obtain ⟨hplain, h⟩ := ite_error_eq_ok.mp (ite_error_eq_ok.mp h).2
    obtain ⟨_, hr, h⟩ := bind_eq_ok.mp h
    cases hread hr
    cases writeEnvironment_then h
    refine ⟨values.insert (trimSpace key) value, ?_, StrMap.lookup_insert _ _ _, fun e he => ?_⟩
    · have hne : (values.insert (trimSpace key) value).entries ≠ [] :=
        StrMap.insertEntry_ne_nil _ _ _
      rw [fileOf, if_neg hne]
      rfl
    · rcases StrMap.mem_insertEntry he with rfl | he
      · exact ⟨hpattern, fun hmem => hplain (any_eq_true.mpr ⟨_, hmem, rfl⟩)⟩
      · exact hvalues e he
  | delete id key =>
    obtain ⟨_, hkey, h⟩ := bind_eq_ok.mp h
    obtain ⟨-, rfl⟩ := checkedKey_ok hkey
    obtain ⟨_, hr, h⟩ := bind_eq_ok.mp h
    cases hread hr
    refine ⟨values.erase (trimSpace key), ?_, StrMap.lookup_erase _ _,
      fun e he => hvalues e (mem_filter.mp he).1⟩
    change (if (!(files id).isSome) = true then _ else _) = _ at h
    split_ifs at h with hexists hsize
    · cases h
      have hnone : files id = none := by simpa using hexists
      have hempty : values.entries = [] := by simpa [fileOf] using hfile.symm.trans hnone
      rw [fileOf, if_pos (by simp [StrMap.erase, hempty])]
      exact (update_eq_self_iff.mpr hnone.symm).symm
    · cases h
      rw [fileOf, if_pos (length_eq_zero_iff.mp hsize)]
      rfl
    · cases writeEnvironment_then h
      rw [fileOf, if_neg fun hnil => hsize (length_eq_zero_iff.mpr hnil)]
      rfl

/-- The file of each target holds the variables that its calls make. -/
theorem Accepted.stored {calls : List EnvironmentCall} (h : s.Accepted calls files) (id : Int) :
    ∃ values, files id = fileOf values ∧ values.lookup = EnvironmentCall.applied calls id ∧
      ∀ e ∈ values.entries, Storable e := by
  induction h generalizing id with
  | nil => exact ⟨.empty, rfl, rfl, by simp [StrMap.empty]⟩
  | @snoc calls files call files' metadata _ _ step ih =>
    obtain ⟨values, hfile, hlookup, hvalues⟩ := ih call.targetID
    obtain ⟨values', rfl, hlookup', hvalues'⟩ := exec_fileOf step hfile hvalues
    by_cases hid : call.targetID = id
    · subst hid
      refine ⟨values', update_self .., ?_, hvalues'⟩
      simp [hlookup', hlookup, EnvironmentCall.applied]
    · simpa [update_of_ne (Ne.symm hid), EnvironmentCall.applied, hid] using ih id

end EnvironmentService

theorem environment_is_map (s : EnvironmentService) (calls : List EnvironmentCall)
    (files : EnvironmentFiles) (h : s.Accepted calls files) :
    (∀ id, ∃ values, s.readEnvironment files id =
          (if s.envDir = [] then .error .storeUnavailable else .ok (values, (files id).isSome)) ∧
        values.lookup = EnvironmentCall.applied calls id ∧
        ((files id).isSome = true ↔ values.size ≠ 0)) ∧
      ∀ call files' metadata, s.exec files call = .ok (files', metadata) →
        ∀ id, id ≠ call.targetID → files' id = files id := by
  constructor
  · intro id
    obtain ⟨values, hfile, hlookup, hvalues⟩ := h.stored id
    refine ⟨values, EnvironmentService.readEnvironment_fileOf hfile hvalues, hlookup, ?_⟩
    by_cases hempty : values.entries = [] <;> simp [hfile, fileOf, StrMap.size, hempty]
  · intro call files' metadata step id hid
    obtain ⟨values, hfile, -, hvalues⟩ := h.stored call.targetID
    obtain ⟨values', rfl, -, -⟩ := EnvironmentService.exec_fileOf step hfile hvalues
    exact update_of_ne hid ..

theorem variable_set_and_deleted :
    ∃ files values, EnvironmentService.readEnvironment ⟨ascii "/d", fun _ => true⟩ files 7 =
        .ok (values, true) ∧
      values.lookup (ascii "A") = none ∧ values.lookup (ascii "B") = some (ascii "=1") := by
  obtain ⟨values, hread, hlookup, -⟩ := (environment_is_map ⟨ascii "/d", fun _ => true⟩
    [.set 7 (ascii " A") [], .set 7 (ascii "B") (ascii "=1"), .delete 7 (ascii "A")] _
    (.snoc (fun _ => true) (.snoc (fun _ => true) (.snoc (fun _ => true) .nil rfl) rfl) rfl)).1 7
  exact ⟨_, values, hread, congrFun hlookup _, congrFun hlookup _⟩

end HeyServer.Deploy
