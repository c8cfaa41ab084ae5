import HeyServer.Agent.CandidateAgreement

/-!
# Profile state files

The state file has two writers, the agent and the installer, and two readers,
the agent and, through the heartbeat, the hub. What either program writes is
read back as it was meant.

## Implementation notes

The failure path of the installer takes the revision from the existing state
file by pattern matching when the candidate gave none. `sedRevision` is that
match on any contents. The existing file is one that an earlier call of either
program left: a snapshot that is put back holds such contents, too.
-/

namespace HeyServer.Agent
open Lib Hub List Option Json Decimal Except Installer Decimal ProfileStateDocument

/-! ## Writers -/

/-- The text the agent's `writeState` puts in the state file. -/
def writeState (document : ProfileStateDocument) : Option Bytes :=
  let document :=
    if document.schemaVersion = 0 then { document with schemaVersion := profileSchemaVersion }
    else document
  if maxProfileDocumentBytes < document.marshal.length then none
  else some (document.marshal ++ [0x0A])

namespace Installer

/-- The codes `profile_write_state` accepts besides the empty one. -/
def stateErrorCodes : List ProfileErrorCode :=
  [.payloadInvalid, .payloadTooLarge, .revisionInvalid, .corrupt, .stateCorrupt, .storeFailed,
    .scheduleFailed]

/-- The pattern `''|0|*[!0-9]*` -/
def isBadRevision (revision : Bytes) : Bool :=
  revision = [] || revision = ascii "0" || !revision.all Json.isDigit

/-- The text `profile_write_state` puts in the state file, if it accepts its arguments. -/
def profileWriteState (state : LocalState) (revision errorCode : Bytes) : Option Bytes :=
  if isBadRevision revision then none
  else if errorCode ≠ [] ∧ ∀ known ∈ stateErrorCodes, errorCode ≠ known.text then none
  else
    let head := ascii "\x7b\"schema_version\":1,\"state\":\"" ++ state.text ++
      ascii "\",\"revision\":" ++ revision
    if errorCode ≠ [] then
      some (head ++ ascii ",\"error_code\":\"" ++ errorCode ++ ascii "\"\x7d\n")
    else some (head ++ ascii "\x7d\n")

def revisionKey : Bytes := ascii "\"revision\":"

/-- The digits after a `"revision":` that starts here. -/
def tailRevision (tail : Bytes) : Option Bytes :=
  if revisionKey.isPrefixOf tail ∧
      (tail.drop revisionKey.length).takeWhile Json.isDigit ≠ [] then
    some ((tail.drop revisionKey.length).takeWhile Json.isDigit)
  else none

/-- The digits after the last `"revision":` of a line that has digits after it. -/
def lineRevision (line : Bytes) : Option Bytes := (line.tails.filterMap tailRevision).getLast?

/-- `sed -n 's/.*"revision":\([0-9][0-9]*\).*/\1/p' | tail -n 1` -/
def sedRevision : Option Bytes → Bytes
  | none => []
  | some data => (((Text.split 0x0A data).filterMap lineRevision).getLast?).getD []

/-- The revision `profile_apply_fail` records: the one of the candidate, else the one of
the state file, else 1. -/
def failureRevision (profileRevision : Option Int) (stateFile : Option Bytes) : Bytes :=
  let revision := (profileRevision.map formatInt).getD (sedRevision stateFile)
  if isBadRevision revision then ascii "1" else revision

/-- The codes `profile_apply_fail` is called with. -/
def applyFailCodes : List ProfileErrorCode :=
  [.storeFailed, .payloadInvalid, .payloadTooLarge, .revisionInvalid, .corrupt, .scheduleFailed]

end Installer

/-- The writes of the state file with their arguments. -/
inductive StateWrite
  | agentPending (revision : Int)
  | agentFailed (revision : Int)
  | installerPending (revision : Int)
  | installerActive (revision : Int)
  | installerFailed (profileRevision : Option Int) (stateFile : Option Bytes)
      (code : ProfileErrorCode)

namespace StateWrite

/-- A revision of an accepted task payload. -/
def FromPayload (revision : Int) : Prop :=
  ∃ payload wrapper, decodeProfileTaskPayload payload = .ok wrapper ∧ wrapper.revision = revision

/-- A revision of an accepted candidate. -/
def FromCandidate (revision : Int) : Prop :=
  ∃ host data candidate, validateCandidate host data = .ok candidate ∧
    candidate.revision = revision

/-- State, revision text and code a write is called with. -/
def arguments : StateWrite → LocalState × Bytes × Bytes
  | agentPending revision => (.pendingRestart, formatInt revision, [])
  | agentFailed revision =>
    (.failed, formatInt revision, ProfileErrorCode.scheduleFailed.text)
  | installerPending revision => (.pendingRestart, formatInt revision, [])
  | installerActive revision => (.active, formatInt revision, [])
  | installerFailed profileRevision stateFile code =>
    (.failed, failureRevision profileRevision stateFile, code.text)

/-- The contents the write leaves in the state file. -/
def written : StateWrite → Option Bytes
  | agentPending revision => writeState ⟨profileSchemaVersion, .pendingRestart, revision, []⟩
  | agentFailed revision =>
    writeState ⟨profileSchemaVersion, .failed, revision, ProfileErrorCode.scheduleFailed.text⟩
  | installerPending revision =>
    profileWriteState .pendingRestart (formatInt revision) []
  | installerActive revision => profileWriteState .active (formatInt revision) []
  | installerFailed profileRevision stateFile code =>
    profileWriteState .failed (failureRevision profileRevision stateFile)
      code.text

/-- The calls the two programs make. A failure is recorded over no state file, or over one
that a call left. -/
inductive Called : StateWrite → Prop
  | agentPending {revision : Int} (h : FromPayload revision) : Called (.agentPending revision)
  | agentFailed {revision : Int} (h : FromPayload revision) : Called (.agentFailed revision)
  | installerPending {revision : Int} (h : FromCandidate revision) :
      Called (.installerPending revision)
  | installerActive {revision : Int} (h : FromCandidate revision) :
      Called (.installerActive revision)
  | firstFailed {profileRevision : Option Int} {code : ProfileErrorCode}
      (hrevision : ∀ revision ∈ profileRevision, FromCandidate revision)
      (hcode : code ∈ applyFailCodes) :
      Called (.installerFailed profileRevision none code)
  | failedOver {profileRevision : Option Int} {code : ProfileErrorCode} {before : StateWrite}
      (hrevision : ∀ revision ∈ profileRevision, FromCandidate revision)
      (hcode : code ∈ applyFailCodes) (hbefore : Called before) :
      Called (.installerFailed profileRevision before.written code)

/-- The agent reads the written file back as it was meant, and the hub accepts every
observation built from it. -/
def Readable (write : StateWrite) : Prop :=
  ∃ data document, write.written = some data ∧ readState (some data) = .ok (some document) ∧
    (document.state, formatInt document.revision, document.errorCode) = write.arguments ∧
    ∀ active, validateAgentProfileObservation
      (some (loadActiveProfile active (some data)).observation) = .ok ()

end StateWrite

/-! ## Observations -/

theorem isSafeProfileErrorCode_safe (code : Bytes) :
    isSafeProfileErrorCode (safeProfileErrorCode code ProfileErrorCode.storeFailed.text) =
      true := by
  rw [safeProfileErrorCode]
  split_ifs with h
  · obtain ⟨known, -, hknown⟩ := any_eq_true.mp h
    rw [of_decide_eq_true hknown]
    exact isSafeProfileErrorCode_text known
  · exact isSafeProfileErrorCode_text _

theorem validateAgentProfileObservation_ok {o : AgentProfileObservation}
    (hrevision : 0 ≤ o.revision)
    (hstate : ∀ text, o.state ≠ .other text) (hcode : isSafeProfileErrorCode o.errorCode = true) :
    validateAgentProfileObservation (some o) = .ok () := by
  rw [validateAgentProfileObservation, if_neg (Int.not_lt.mpr hrevision)]
  cases hs : o.state with
  | other text => exact absurd hs (hstate text)
  | _ => simp [hcode]

theorem readState_some_eq_ok {data : Bytes} {document : ProfileStateDocument} :
    readState (some data) = .ok (some document) ↔ decodeState data = .ok document := by
  rw [readState]
  cases decodeState data <;> simp [Except.map]

/-- The hub accepts every observation the agent can build. -/
theorem loadActiveProfile_observation_valid (active state : Option Bytes) :
    validateAgentProfileObservation (some (loadActiveProfile active state).observation) =
      .ok () := by
  have hempty : isSafeProfileErrorCode [] = true := rfl
  have hcorrupt := isSafeProfileErrorCode_text .corrupt
  have hstateCorrupt := isSafeProfileErrorCode_text .stateCorrupt
  have hdocument : ∀ document, readState state = .ok (some document) → 0 ≤ document.revision := by
    intro document h
    cases state with
    | none => cases h
    | some data =>
      have := (decodeState_eq_ok (readState_some_eq_ok.mp h)).1.2.1
      omega
  have hwrapper : ∀ wrapper, readWrapper active = .ok (some wrapper) → 0 ≤ wrapper.revision := by
    intro wrapper h
    obtain ⟨data, -, hdecode⟩ := readWrapper_eq_ok.mp h
    exact le_of_lt (decodeProfileWrapper_revision_pos hdecode)
  cases hactive : readWrapper active with
  | error e =>
    simp only [loadActiveProfile, hactive]
    exact validateAgentProfileObservation_ok (le_refl 0) (by simp) hcorrupt
  | ok wrapper =>
    cases hstate : readState state with
    | error e =>
      simp only [loadActiveProfile, hactive, hstate]
      refine validateAgentProfileObservation_ok ?_ (by simp) hstateCorrupt
      cases wrapper with
      | none => exact le_refl 0
      | some wrapper => exact hwrapper wrapper hactive
    | ok document =>
      cases document with
      | none =>
        cases wrapper with
        | none =>
          simp only [loadActiveProfile, hactive, hstate]
          exact validateAgentProfileObservation_ok (le_refl 0) (by simp) hempty
        | some wrapper =>
          simp only [loadActiveProfile, hactive, hstate]
          exact validateAgentProfileObservation_ok (hwrapper wrapper hactive) (by simp) hempty
      | some document =>
        have hrevision := hdocument document hstate
        have hfailed : validateAgentProfileObservation (some (failedObservation document)) =
            .ok () :=
          validateAgentProfileObservation_ok hrevision (by simp [failedObservation])
            (isSafeProfileErrorCode_safe _)
        have hpending := validateAgentProfileObservation_ok
          (o := ⟨.pendingRestart, document.revision, []⟩) hrevision (by simp) hempty
        cases hlocal : document.state with
        | pendingRestart | failed =>
          cases wrapper <;> simpa only [loadActiveProfile, hactive, hstate, hlocal]
        | active =>
          cases wrapper with
          | none =>
            simp only [loadActiveProfile, hactive, hstate, hlocal]
            exact validateAgentProfileObservation_ok hrevision (by simp) hstateCorrupt
          | some wrapper =>
            have hactiveRevision := hwrapper wrapper hactive
            simp only [loadActiveProfile, hactive, hstate, hlocal]
            split_ifs
            · exact validateAgentProfileObservation_ok hactiveRevision (by simp) hempty
            · exact validateAgentProfileObservation_ok hactiveRevision (by simp) hstateCorrupt

/-! ## Reading back -/

variable {document : ProfileStateDocument} {r : Int}

theorem ProfileStateDocument.Sound.code_known (h : document.Sound) :
    document.errorCode = [] ∨ ∃ known ∈ profileErrorCodes, document.errorCode = known.text := by
  by_cases hempty : document.errorCode = []
  · exact .inl hempty
  · have hsafe := h.2.2.2 hempty
    rw [safeProfileErrorCode] at hsafe
    split_ifs at hsafe with hany
    · obtain ⟨known, hmem, hknown⟩ := any_eq_true.mp hany
      exact .inr ⟨known, hmem, of_decide_eq_true hknown⟩
    · exact absurd hsafe.symm hempty

theorem sanitizedMembers_stateFields (schemaVersion : Int) (state : LocalState) (revision : Bytes)
    {errorCode : Bytes} (hcode : Utf8.sanitize errorCode = errorCode) :
    Json.sanitizedMembers (stateFields schemaVersion state revision errorCode) =
      stateFields schemaVersion state revision errorCode := by
  have hkey : ∀ k ∈ [ascii "schema_version", ascii "state", ascii "revision", ascii "error_code"],
      Utf8.sanitize k = k := by decide
  have hstate : Utf8.sanitize state.text = state.text := by cases state <;> decide
  simp only [forall_mem_cons] at hkey
  rw [stateFields]
  split_ifs
  · simp only [append_nil, sanitizedMembers, sanitized, hkey, hstate]
  · simp only [cons_append, nil_append, sanitizedMembers, sanitized, hkey, hstate, hcode]

theorem decodeStateFields_stateFields {state : LocalState} (hr : ValidRevision r)
    (errorCode : Bytes) :
    decodeStateFields (stateFields profileSchemaVersion state (formatInt r) errorCode) =
      some ⟨profileSchemaVersion, state, r, errorCode⟩ := by
  have hschema : parseInt (formatInt profileSchemaVersion) =
      some profileSchemaVersion := by decide
  generalize hfields : stateFields profileSchemaVersion state (formatInt r) errorCode = fields
  have hfirst : fields.lookup (ascii "schema_version") =
      some (.num (formatInt profileSchemaVersion)) := hfields ▸ rfl
  have hsecond : fields.lookup (ascii "state") = some (.str state.text) := hfields ▸ rfl
  have hthird : fields.lookup (ascii "revision") = some (.num (formatInt r)) :=
    hfields ▸ rfl
  have hlast : decodeErrorCode fields = some errorCode := by
    rw [decodeErrorCode, ← hfields, stateFields]
    split_ifs with hempty
    · rw [hempty]
      rfl
    · rfl
  simp [decodeStateFields, hfirst, hsecond, hthird, hlast, FromJson.fromJson, hschema,
    hr.parseInt_formatInt, LocalState.ofText_text]

/-- A state file is short but for its revision. -/
theorem stateText_length (state : LocalState) (revision : Bytes) {errorCode : Bytes}
    (hcode : errorCode = [] ∨ ∃ known ∈ profileErrorCodes, errorCode = known.text) :
    (Json.obj (stateFields profileSchemaVersion state revision errorCode)).encode.length ≤
      revision.length + 200 := by
  have hstate : (encodeString state.text).length ≤ 20 := by cases state <;> decide
  have hkeys : ∀ k ∈ [ascii "schema_version", ascii "state", ascii "revision", ascii "error_code"],
      (encodeString k).length ≤ 20 := by decide
  have hschema : (formatInt profileSchemaVersion).length = 1 := by decide
  simp only [forall_mem_cons] at hkeys
  rcases hcode with rfl | ⟨known, -, rfl⟩
  · rw [stateFields, if_pos rfl]
    simp only [append_nil, encode, encodeMembers, length_cons, length_append, length_nil, hschema]
    omega
  · have hknown : known.text ≠ [] ∧ (encodeString known.text).length ≤ 40 := by
      cases known <;> decide
    rw [stateFields, if_neg hknown.1]
    simp only [cons_append, nil_append, encode, encodeMembers,
      length_cons, length_append, length_nil, hschema]
    omega

theorem ProfileStateDocument.Sound.marshal_length
    (h : document.Sound) (hmax : document.revision ≤ maxInt64) :
    document.marshal.length ≤ 263 := by
  have hdigits := formatInt_length_le (le_trans (by decide) h.2.1) hmax
  have htext := stateText_length document.state (formatInt document.revision) h.code_known
  rw [marshal, h.1]
  omega

/-- The agent reads a sound document back, with or without the final newline. -/
theorem decodeState_marshal (hsound : document.Sound)
    (hmax : document.revision ≤ maxInt64) {rest : Bytes} (hrest : rest = [] ∨ rest = [0x0A]) :
    decodeState (document.marshal ++ rest) = .ok document := by
  obtain ⟨schemaVersion, state, r, errorCode⟩ := document
  obtain ⟨hschema, hpos, -, -⟩ := id hsound
  have hcode := hsound.code_known
  subst hschema
  have hvalid : ValidRevision r := ⟨hpos, hmax⟩
  have hsanitize : Utf8.sanitize errorCode = errorCode := by
    rcases hcode with rfl | ⟨known, -, rfl⟩
    · rfl
    · have hplain : PlainText known.text := by cases known <;> (rw [PlainText]; decide +kernel)
      exact Utf8.sanitize_of_valid _ (plainText_valid hplain)
  have hlen : (marshal ⟨profileSchemaVersion, state, r, errorCode⟩ ++
      rest).length ≤ maxProfileDocumentBytes := by
    have hmarshal := hsound.marshal_length hmax
    have htail : rest.length ≤ 1 := by
      rcases hrest with rfl | rfl <;> decide
    rw [length_append]
    simp only [maxProfileDocumentBytes]
    omega
  have hfits : fits maxNestingDepth
      (.obj (stateFields profileSchemaVersion state (formatInt r) errorCode)) = true := by
    rw [stateFields]
    split_ifs <;> simp [maxNestingDepth, fits, fitsMembers, isNumber_formatInt]
  have hparse : parse (marshal
      ⟨profileSchemaVersion, state, r, errorCode⟩ ++ rest) =
      some (.obj (stateFields profileSchemaVersion state (formatInt r) errorCode)) := by
    rw [marshal]
    rw [parse_encode_append _ hfits (by rcases hrest with rfl | rfl <;> simp [Json.Stops, isDigit])
      (by rcases hrest with rfl | rfl <;> rfl), sanitized,
      sanitizedMembers_stateFields _ _ _ hsanitize]
  rw [decodeState, if_neg (Nat.not_lt.mpr hlen), hparse]
  simp only [decodeStateFields_stateFields hvalid]
  refine if_pos ⟨hsound, ?_⟩
  rcases hrest with rfl | rfl
  · exact .inl (append_nil _)
  · exact .inr rfl

/-! ## The arguments of the callers -/

theorem StateWrite.FromPayload.valid (h : FromPayload r) : ValidRevision r := by
  obtain ⟨payload, wrapper, hdecode, rfl⟩ := h
  obtain ⟨p, r, -, hr, -, -, rfl⟩ := (decodeProfileTaskPayload_ok_iff _ _).mp hdecode
  exact hr

theorem StateWrite.FromCandidate.valid (h : FromCandidate r) : ValidRevision r := by
  obtain ⟨host, data, candidate, haccept, rfl⟩ := h
  obtain ⟨-, haccept⟩ := ite_error_eq_ok.mp haccept
  obtain ⟨wrapper, -, haccept⟩ := bind_eq_ok.mp haccept
  obtain ⟨members, -, haccept⟩ := bind_eq_ok.mp haccept
  obtain ⟨schema, -, haccept⟩ := bind_eq_ok.mp haccept
  obtain ⟨-, haccept⟩ := ite_error_eq_ok.mp haccept
  obtain ⟨revision, -, haccept⟩ := bind_eq_ok.mp haccept
  obtain ⟨hrange, haccept⟩ := ite_error_eq_ok.mp haccept
  obtain ⟨raw, -, haccept⟩ := bind_eq_ok.mp haccept
  obtain ⟨fields, -, haccept⟩ := bind_eq_ok.mp haccept
  obtain ⟨profile, -, haccept⟩ := bind_eq_ok.mp haccept
  obtain ⟨-, haccept⟩ := ite_error_eq_ok.mp haccept
  rw [← ok.inj haccept]
  rw [not_or, Int.not_lt, Int.not_lt] at hrange
  exact hrange

namespace Installer

theorem isBadRevision_formatInt {r : Int} (hr : ValidRevision r) :
    isBadRevision (formatInt r) = false := by
  have hnum := formatNat_numeral r.natAbs
  have hne : r.natAbs ≠ 0 := by
    have := hr.1
    omega
  have hneg : ¬ r < 0 := by
    have := hr.1
    omega
  have hzero : formatNat r.natAbs ≠ ascii "0" := by
    intro h
    exact hnum.leading hne 0x30 (by rw [h]; rfl) rfl
  rw [formatInt, if_neg hneg, isBadRevision]
  simp [hnum.nonempty, hnum.digits, hzero]

variable {errorCode tail : Bytes}

/-- Both writers put the same text in the file. -/
theorem profileWriteState_eq {state : LocalState} {r : Int} (hr : ValidRevision r)
    (hcode : errorCode = [] ∨ ∃ known ∈ stateErrorCodes, errorCode = known.text) :
    profileWriteState state (formatInt r) errorCode =
      some (marshal ⟨profileSchemaVersion, state, r, errorCode⟩ ++ [0x0A]) := by
  have hbad := isBadRevision_formatInt hr
  rw [profileWriteState, if_neg (by simp [hbad]), marshal]
  generalize formatInt r = revision
  -- with the appends nested to the right both texts unfold to the same bytes around the revision
  rcases hcode with rfl | ⟨known, hmem, rfl⟩
  · rw [if_neg (by simp)]
    cases state <;>
      simp only [ne_eq, not_true_eq_false, if_false, if_true, stateFields, encode,
        encodeMembers, cons_append, nil_append, append_assoc] <;>
      rfl
  · have hnone : ¬ ∀ known' ∈ stateErrorCodes, known.text ≠ known'.text := by
      intro h
      exact h known hmem rfl
    have hempty : known.text ≠ [] := by cases known <;> decide
    have hstring : encodeString known.text = 0x22 :: (known.text ++ [0x22]) := by
      cases known <;> rfl
    rw [if_neg (by simp only [not_and]; exact fun _ => hnone)]
    cases state <;>
      simp only [if_pos hempty, if_neg hempty, stateFields, encode, hstring,
        encodeMembers, cons_append, nil_append, append_assoc] <;>
      rfl

/-! ### The revision in the state file -/

theorem lineRevision_cons (b : UInt8) (line : Bytes) :
    lineRevision (b :: line) = (lineRevision line).or (tailRevision (b :: line)) := by
  rw [lineRevision, lineRevision, tails_cons, filterMap_cons]
  cases tailRevision (b :: line) with
  | none => rw [or_none]
  | some digits =>
    rw [getLast?_cons]
    cases (line.tails.filterMap tailRevision).getLast? <;> rfl

theorem lineRevision_append {line digits : Bytes} (front : Bytes)
    (h : lineRevision line = some digits) : lineRevision (front ++ line) = some digits := by
  induction front with
  | nil => exact h
  | cons b front ih => rw [cons_append, lineRevision_cons, ih, some_or]

theorem lineRevision_digits_append {digits back : Bytes} (hdigits : digits.all Json.isDigit = true)
    (hback : lineRevision back = none) : lineRevision (digits ++ back) = none := by
  induction digits with
  | nil => exact hback
  | cons b digits ih =>
    obtain ⟨hb, hdigits⟩ := Bool.and_eq_true_iff.mp hdigits
    have hquote : b ≠ 0x22 := by
      rintro rfl
      cases hb
    have hstart : revisionKey.isPrefixOf (b :: (digits ++ back)) = false := by
      simp [revisionKey, ascii, isPrefixOf, hquote.symm]
    rw [cons_append, lineRevision_cons, ih hdigits, none_or, tailRevision, hstart]
    rfl

/-- The digits of the only revision of a line. -/
theorem lineRevision_eq (front : Bytes) {digits back : Bytes}
    (hdigits : digits.all Json.isDigit = true)
    (hne : digits ≠ []) (hback : lineRevision back = none)
    (hstop : ∀ b ∈ back.head?, Json.isDigit b = false) :
    lineRevision (front ++ (revisionKey ++ (digits ++ back))) = some digits := by
  have htake : (digits ++ back).takeWhile Json.isDigit = digits := by
    rw [takeWhile_append_of_pos (all_eq_true.mp hdigits)]
    cases back with
    | nil => simp
    | cons b back => simp [hstop b rfl]
  have hkey : tailRevision (revisionKey ++ (digits ++ back)) = some digits := by
    rw [tailRevision, drop_left, htake, if_pos ⟨by simp, hne⟩]
  have hnone := lineRevision_digits_append hdigits hback
  have hrest : lineRevision (ascii "revision\":" ++ (digits ++ back)) = none := by
    generalize digits ++ back = rest at hnone
    simp [ascii, lineRevision_cons, hnone, tailRevision, revisionKey, isPrefixOf]
  refine lineRevision_append front ?_
  have hcons := lineRevision_cons 0x22 (ascii "revision\":" ++ (digits ++ back))
  rw [hrest, none_or] at hcons
  exact hcons.trans hkey

/-- The revision is followed by a text without another one. -/
theorem marshal_eq {document : ProfileStateDocument} (h : document.Sound) :
    ∃ front back, document.marshal =
        front ++ (revisionKey ++ (formatInt document.revision ++ back)) ∧
      0x0A ∉ front ∧ 0x0A ∉ back ∧ lineRevision back = none ∧
      ∀ b ∈ back.head?, Json.isDigit b = false := by
  obtain ⟨schemaVersion, state, r, errorCode⟩ := document
  have hcode := h.code_known
  obtain ⟨rfl, -⟩ := h
  refine ⟨ascii "\x7b\"schema_version\":1,\"state\":\"" ++ state.text ++ ascii "\",", ?_⟩
  have hfront : 0x0A ∉ ascii "\x7b\"schema_version\":1,\"state\":\"" ++ state.text ++
      ascii "\"," := by
    cases state <;> decide
  rw [marshal]
  dsimp only at hcode ⊢
  generalize formatInt r = revision
  rcases hcode with rfl | ⟨known, -, rfl⟩
  · refine ⟨ascii "\x7d", ?_, hfront, by decide, by decide, by decide +kernel⟩
    cases state <;>
      simp only [if_true, stateFields, encode, encodeMembers, cons_append, nil_append,
        append_assoc] <;>
      rfl
  · have hempty : known.text ≠ [] := by cases known <;> decide
    refine ⟨ascii ",\"error_code\":" ++ (encodeString known.text ++ ascii "\x7d"), ?_, hfront,
      ?_, ?_, ?_⟩
    · cases state <;>
        simp only [if_neg hempty, stateFields, encode, encodeMembers, cons_append, nil_append,
          append_assoc] <;>
        rfl
    all_goals cases known <;> decide +kernel

/-- The pattern finds the revision of a sound document. -/
theorem sedRevision_marshal {document : ProfileStateDocument} (h : document.Sound) :
    sedRevision (some (document.marshal ++ [0x0A])) = formatInt document.revision := by
  have hnum := formatNat_numeral document.revision.natAbs
  have hformat : formatInt document.revision = formatNat document.revision.natAbs :=
    if_neg (Int.not_lt.mpr (le_trans (by decide) h.2.1))
  obtain ⟨front, back, hmarshal, hfront, hback, hnone, hstop⟩ := marshal_eq h
  rw [hformat] at hmarshal ⊢
  have hline : 0x0A ∉ document.marshal := by
    have hdigits : 0x0A ∉ formatNat document.revision.natAbs := fun hmem => by
      cases all_eq_true.mp hnum.digits 0x0A hmem
    have hkey : 0x0A ∉ revisionKey := by decide
    simp only [hmarshal, mem_append, not_or]
    exact ⟨hfront, hkey, hdigits, hback⟩
  have hrevision := lineRevision_eq front hnum.digits hnum.nonempty hnone hstop
  rw [sedRevision, Text.split_append, Text.split_of_not_mem hline, hmarshal]
  have hempty : lineRevision [] = none := rfl
  simp only [Text.split, cons_append, nil_append, filterMap_cons, hrevision, hempty, filterMap_nil]
  rfl

end Installer

/-! ## Written files are readable -/

namespace StateWrite

variable {document : ProfileStateDocument}

/-- The write leaves the document with its arguments. -/
structure Leaves (write : StateWrite) (document : ProfileStateDocument) : Prop where
  sound : document.Sound
  max : document.revision ≤ maxInt64
  written : write.written = some (document.marshal ++ [0x0A])
  arguments : (document.state, formatInt document.revision, document.errorCode) =
    write.arguments

theorem sound_without_code {state : LocalState} {r : Int} (hr : ValidRevision r) :
    Sound ⟨profileSchemaVersion, state, r, []⟩ :=
  ⟨rfl, hr.1, fun _ => rfl, fun h => absurd rfl h⟩

theorem sound_failed {r : Int} (hr : ValidRevision r) (code : ProfileErrorCode)
    (hcode : code ∈ profileErrorCodes) :
    Sound ⟨profileSchemaVersion, .failed, r, code.text⟩ := by
  refine ⟨rfl, hr.1, fun h => absurd rfl h, fun _ => ?_⟩
  exact if_pos (any_eq_true.mpr ⟨code, hcode, decide_eq_true rfl⟩)

theorem writeState_eq (hsound : document.Sound) (hmax : document.revision ≤ maxInt64) :
    writeState document = some (document.marshal ++ [0x0A]) := by
  have hlen := hsound.marshal_length hmax
  have hschema : document.schemaVersion ≠ 0 := by
    rw [hsound.1]
    decide
  rw [writeState]
  simp only [if_neg hschema]
  refine if_neg (Nat.not_lt.mpr (le_trans hlen ?_))
  decide

/-- The document a failure with a canonical revision leaves. -/
theorem installerFailed_document {profileRevision : Option Int} {stateFile : Option Bytes}
    {code : ProfileErrorCode} {r : Int} (hr : ValidRevision r) (hcode : code ∈ applyFailCodes)
    (hrevision : failureRevision profileRevision stateFile = formatInt r) :
    (installerFailed profileRevision stateFile code).Leaves
      ⟨profileSchemaVersion, .failed, r, code.text⟩ := by
  have hknown : ∀ code ∈ applyFailCodes,
      code ∈ profileErrorCodes ∧ code ∈ stateErrorCodes := by decide
  obtain ⟨hagent, hinstaller⟩ := hknown code hcode
  refine ⟨sound_failed hr _ hagent, hr.2, ?_, ?_⟩
  · rw [written, hrevision]
    exact profileWriteState_eq hr (.inr ⟨code, hinstaller, rfl⟩)
  · rw [arguments, hrevision]

/-- Every call leaves a sound document. -/
theorem Called.leaves {write : StateWrite} (h : write.Called) :
    ∃ document, write.Leaves document := by
  have hcandidate : ∀ (r : Int) (stateFile : Option Bytes), FromCandidate r →
      failureRevision (some r) stateFile = formatInt r := by
    intro r stateFile hr
    simp only [failureRevision, map_some, getD_some, isBadRevision_formatInt hr.valid]
    rfl
  induction h with
  | agentPending h =>
    have hsound := @sound_without_code .pendingRestart _ h.valid
    exact ⟨_, hsound, h.valid.2, writeState_eq hsound h.valid.2, rfl⟩
  | agentFailed h =>
    have hsound := sound_failed h.valid .scheduleFailed (by decide)
    exact ⟨_, hsound, h.valid.2, writeState_eq hsound h.valid.2, rfl⟩
  | installerPending h | installerActive h =>
    exact ⟨_, sound_without_code h.valid, h.valid.2, profileWriteState_eq h.valid (.inl rfl), rfl⟩
  | @firstFailed profileRevision code hrevision hcode =>
    cases profileRevision with
    | some r =>
      have hr := hrevision r rfl
      exact ⟨_, installerFailed_document hr.valid hcode (hcandidate r _ hr)⟩
    | none => exact ⟨_, installerFailed_document (by decide : ValidRevision 1) hcode rfl⟩
  | @failedOver profileRevision code before hrevision hcode _ ih =>
    cases profileRevision with
    | some r =>
      have hr := hrevision r rfl
      exact ⟨_, installerFailed_document hr.valid hcode (hcandidate r _ hr)⟩
    | none =>
      -- the pattern finds the revision of the earlier call
      obtain ⟨document, hsound, hmax, hwritten, -⟩ := ih
      have hvalid : ValidRevision document.revision := ⟨hsound.2.1, hmax⟩
      refine ⟨_, installerFailed_document hvalid hcode ?_⟩
      simp only [failureRevision, map_none, getD_none, hwritten,
        sedRevision_marshal hsound, isBadRevision_formatInt hvalid]
      rfl

/-- What the programs write to the state file is read back with the same state, revision and
code and gives observations the hub accepts. -/
theorem state_file_readable (write : StateWrite) (hcalled : write.Called) : write.Readable := by
  obtain ⟨document, hsound, hmax, hwritten, harguments⟩ := hcalled.leaves
  refine ⟨_, document, hwritten, ?_, harguments, fun active => ?_⟩
  · exact readState_some_eq_ok.mpr (decodeState_marshal hsound hmax (.inr rfl))
  · exact loadActiveProfile_observation_valid active _

/-- The failure of an unreadable candidate, recorded over the state file of an apply of
revision 5. -/
theorem state_file_readable_over_pending :
    (installerFailed none (agentPending 5).written .payloadInvalid).Readable := by
  have hpayload : FromPayload 5 := by
    refine ⟨_, _, (decodeProfileTaskPayload_ok_iff _ _).mpr
      ⟨emptyAgentProfile, 5, rfl, by decide, by decide +kernel, rfl, rfl⟩, rfl⟩
  exact state_file_readable _ (.failedOver (by simp) (by decide) (.agentPending hpayload))

end StateWrite

end HeyServer.Agent
