import HeyServer.Hub.Profile

/-!
# Agent hub: profile codec

Normalization is idempotent and leaves plain ASCII paths, so a normalized
profile survives its JSON form, its apply document and its task payload.
-/

namespace HeyServer.Hub
open Lib List Json Decimal

/-! ## Normal form -/

/-- A path the hub accepts is plain ASCII. -/
def PlainText (value : Bytes) : Prop := ∀ b ∈ value, b.toNat < 0x80

theorem plainText_valid {value : Bytes} (h : PlainText value) : Utf8.valid value :=
  Utf8.valid_of_ascii value h

theorem validateOptionalProfilePath_plain {value : Bytes} {file : Bool}
    (h : validateOptionalProfilePath value file = .ok ()) : PlainText value := by
  by_cases hempty : value = []
  · simp [PlainText, hempty]
  · rw [validateOptionalProfilePath, if_neg hempty] at h
    obtain ⟨_, -, h⟩ := bind_eq_ok.mp h
    split_ifs at h with hclean hsafe
    simp only [matchesProfileSafePath, Bool.not_eq_false, Bool.and_eq_true] at hsafe
    intro b hb
    have hbyte := all_eq_true.mp hsafe.2 b hb
    simp only [isProfileSafePathByte, Bool.or_eq_true, Bool.and_eq_true, decide_eq_true_eq] at hbyte
    rcases hbyte with (((((((h | h) | h) | rfl) | rfl) | rfl) | rfl) | rfl) | rfl
    · omega
    · omega
    · omega
    all_goals decide

/-- A root that passes the checks of the loop on its own. -/
def ValidRoot (root : Bytes) : Prop :=
  validateOptionalProfilePath root false = .ok () ∧ root ≠ []

theorem checkProfileRoots_ok_iff (seen roots : List Bytes) : checkProfileRoots seen roots = .ok () ↔
      (∀ root ∈ roots, ValidRoot root) ∧ roots.Nodup ∧ ∀ root ∈ roots, root ∉ seen := by
  induction roots generalizing seen with
  | nil => simp [checkProfileRoots]
  | cons root rest ih =>
    rw [forall_mem_cons, fresh_cons_iff, and_and_and_comm, ← ih, checkProfileRoots, bind_eq_ok]
    constructor
    · rintro ⟨u, hvalid, h⟩
      split_ifs at h with hempty hseen
      exact ⟨⟨⟨hvalid, hempty⟩, hseen⟩, h⟩
    · rintro ⟨⟨⟨hvalid, hempty⟩, hseen⟩, h⟩
      refine ⟨(), hvalid, ?_⟩
      rw [if_neg hempty, if_neg hseen, h]

theorem normalizeProfileRoots_ok_iff (raw roots : List Bytes) :
    normalizeProfileRoots raw = .ok roots ↔
      raw.length ≤ maxProfileWriteRoots ∧ (∀ root ∈ raw, ValidRoot root) ∧ raw.Nodup ∧
        roots = raw.insertionSort (· ≤ ·) := by
  rw [normalizeProfileRoots, ite_error_eq_ok, Nat.not_lt, bind_eq_ok]
  simp only [pure, Except.pure, Except.ok.injEq]
  constructor
  · rintro ⟨hlen, ⟨⟩, hcheck, rfl⟩
    obtain ⟨hvalid, hnodup, -⟩ := (checkProfileRoots_ok_iff _ _).mp hcheck
    exact ⟨hlen, hvalid, hnodup, rfl⟩
  · rintro ⟨hlen, hvalid, hnodup, rfl⟩
    exact ⟨hlen, (), (checkProfileRoots_ok_iff _ _).mpr ⟨hvalid, hnodup, by simp⟩, rfl⟩

/-- Sorted roots are their own normal form. -/
theorem normalizeProfileRoots_idem {raw roots : List Bytes}
    (h : normalizeProfileRoots raw = .ok roots) : normalizeProfileRoots roots = .ok roots := by
  rw [normalizeProfileRoots_ok_iff] at h ⊢
  obtain ⟨hlen, hvalid, hnodup, rfl⟩ := h
  refine ⟨?_, ?_, ?_, ?_⟩
  · rwa [length_insertionSort]
  · intro root hroot
    exact hvalid root ((mem_insertionSort _).mp hroot)
  · exact (perm_insertionSort _ raw).nodup_iff.mpr hnodup
  · exact (pairwise_insertionSort (· ≤ ·) raw).insertionSort_eq.symm

theorem normalizeAgentProfile_ok_iff (p q : AgentProfile) : normalizeAgentProfile p = .ok q ↔
      validateProfileDependencies p = .ok () ∧
      validateOptionalProfilePath p.deployPlansFile true = .ok () ∧
      validateOptionalProfilePath p.deployAcmeWebroot false = .ok () ∧
      ∃ roots, normalizeProfileRoots p.deployWriteRoots = .ok roots ∧
        q = { p with deployWriteRoots := roots } := by
  simp only [normalizeAgentProfile, bind_eq_ok, pure, Except.pure, Except.ok.injEq]
  constructor
  · rintro ⟨_, h1, _, h2, _, h3, roots, h4, rfl⟩
    exact ⟨h1, h2, h3, roots, h4, rfl⟩
  · rintro ⟨h1, h2, h3, roots, h4, rfl⟩
    exact ⟨(), h1, (), h2, (), h3, roots, h4, rfl⟩

/-- A profile that normalization leaves as it is. -/
def AgentProfile.Normalized (p : AgentProfile) : Prop := normalizeAgentProfile p = .ok p

variable {p : AgentProfile}

/-- Normalizing twice is normalizing once. -/
theorem normalizeAgentProfile_normalized {q : AgentProfile}
    (h : normalizeAgentProfile p = .ok q) : q.Normalized := by
  obtain ⟨hdeps, hplans, hacme, roots, hroots, rfl⟩ := (normalizeAgentProfile_ok_iff p q).mp h
  exact (normalizeAgentProfile_ok_iff _ _).mpr
    ⟨hdeps, hplans, hacme, roots, normalizeProfileRoots_idem hroots, rfl⟩

/-- The texts of a normalized profile are plain ASCII. -/
structure AgentProfile.Plain (p : AgentProfile) : Prop where
  plansFile : PlainText p.deployPlansFile
  acmeWebroot : PlainText p.deployAcmeWebroot
  writeRoots : ∀ root ∈ p.deployWriteRoots, PlainText root

theorem AgentProfile.Normalized.plain (h : p.Normalized) : p.Plain := by
  obtain ⟨-, hplans, hacme, roots, hroots, -⟩ := (normalizeAgentProfile_ok_iff p p).mp h
  refine ⟨validateOptionalProfilePath_plain hplans, validateOptionalProfilePath_plain hacme, ?_⟩
  intro root hroot
  have hvalid := ((normalizeProfileRoots_ok_iff _ _).mp hroots).2.1 root hroot
  exact validateOptionalProfilePath_plain hvalid.1

/-! ## JSON -/

theorem sanitizedItems_plain {roots : List Bytes} (h : ∀ root ∈ roots, PlainText root) :
    Json.sanitizedItems (roots.map .str) = roots.map .str := by
  induction roots with
  | nil => rfl
  | cons root rest ih =>
    have hroot := Utf8.sanitize_of_valid root (plainText_valid (h root (by simp)))
    simp only [map_cons, sanitizedItems, sanitized, hroot]
    rw [ih fun r hr => h r (by simp [hr])]

theorem fitsItems_strings (depth : Nat) (roots : List Bytes) :
    Json.fitsItems depth (roots.map .str) = true := by
  induction roots with
  | nil => rfl
  | cons root rest ih => simp [fitsItems, fits, ih]

theorem AgentProfile.Plain.sanitized_toJson (h : p.Plain) : p.toJson.sanitized = p.toJson := by
  have hplans := Utf8.sanitize_of_valid _ (plainText_valid h.plansFile)
  have hacme := Utf8.sanitize_of_valid _ (plainText_valid h.acmeWebroot)
  have hkey : ∀ k ∈ agentProfileFields, Utf8.sanitize k = k := by decide
  simp only [agentProfileFields, forall_mem_cons] at hkey
  simp only [AgentProfile.toJson, sanitized, sanitizedMembers, hplans, hacme,
    sanitizedItems_plain h.writeRoots, hkey]

theorem AgentProfile.fits_toJson (p : AgentProfile) (depth : Nat) :
    Json.fits (depth + 2) p.toJson = true := by
  simp [AgentProfile.toJson, fits, fitsMembers, fitsItems_strings]

theorem AgentProfile.Plain.parse_marshal (h : p.Plain) : Json.parse p.marshal = some p.toJson := by
  rw [AgentProfile.marshal, parse_encode _ (p.fits_toJson 9998), h.sanitized_toJson]

theorem decodeProfileRoots_strings (roots : List Bytes) :
    decodeProfileRoots (.arr (roots.map .str)) = .ok roots := by
  induction roots with
  | nil => rfl
  | cons root rest ih =>
    simp only [decodeProfileRoots] at ih ⊢
    rw [map_cons, mapM_cons, ih]
    rfl

/-- Decoding the JSON form of a profile gives the profile back. -/
theorem decodeAgentProfile_toJson (p : AgentProfile) (legacy : Bool) :
    decodeAgentProfile p.toJson legacy = .ok p := by
  have hroots := decodeProfileRoots_strings p.deployWriteRoots
  cases legacy with
  | false | true => exact congrArg (fun r => r >>= _) hroots

/-! ## The apply document -/

/-- A revision an apply document can carry. -/
def ValidRevision (revision : Int) : Prop := 1 ≤ revision ∧ revision ≤ Decimal.maxInt64

instance (revision : Int) : Decidable (ValidRevision revision) :=
  inferInstanceAs (Decidable (_ ∧ _))

/-- A stored profile is read back. -/
theorem decodePersistedAgentProfile_marshal (h : p.Normalized) :
    decodePersistedAgentProfile p.marshal = .ok p := by
  rw [decodePersistedAgentProfile, h.plain.parse_marshal]
  exact decodeAgentProfile_toJson p true

theorem ValidRevision.parseInt_formatInt {r : Int} (h : ValidRevision r) :
    Decimal.parseInt (Decimal.formatInt r) = some r :=
  Decimal.parseInt_formatInt (le_trans (by decide) h.1) h.2

theorem AgentProfile.Plain.parse_document (h : p.Plain) (r : Int) :
    Json.parse (applyDocument p r).marshal = some (applyDocument p r).toJson := by
  have hfits : fits maxNestingDepth (applyDocument p r).toJson = true := by
    simp [applyDocument, ProfileApplyDocument.toJson, maxNestingDepth, fits,
      fitsMembers, isNumber_formatInt, p.fits_toJson]
  have hkey : ∀ k ∈ [ascii "schema_version", ascii "revision", ascii "profile"],
      Utf8.sanitize k = k := by decide
  simp only [forall_mem_cons] at hkey
  rw [ProfileApplyDocument.marshal, parse_encode _ hfits]
  simp only [applyDocument, ProfileApplyDocument.toJson, sanitized, sanitizedMembers,
    h.sanitized_toJson, hkey]

theorem fromJson_int_range {value : Json} {i : Int} (h : FromJson.fromJson value = some i) :
    Decimal.minInt64 ≤ i ∧ i ≤ Decimal.maxInt64 := by
  cases value with
  | num literal => exact parseInt_range h
  | _ => cases h

theorem ProfileApplyDocument.marshal_ne_nil (d : ProfileApplyDocument) : d.marshal ≠ [] := by
  simp [ProfileApplyDocument.marshal, ProfileApplyDocument.toJson, encode]

theorem decodeProfileApplyDocument_marshal {r : Int} (hnormal : p.Normalized)
    (hrevision : ValidRevision r)
    (hlen : (applyDocument p r).marshal.length ≤ maxProfileJsonBytes) :
    decodeProfileApplyDocument (applyDocument p r).marshal = .ok (applyDocument p r) := by
  have hstrict : decodeStrictJsonObject (applyDocument p r).marshal =
      .ok [(ascii "schema_version", .num (formatInt profileApplySchemaVersion)),
        (ascii "revision", .num (formatInt r)), (ascii "profile", p.toJson)] := by
    rw [decodeStrictJsonObject, hnormal.plain.parse_document]
    rfl
  have hread : ∀ {fields : Fields} {field : Bytes} {i : Int}, ValidRevision i →
      fields.lookup field = some (.num (formatInt i)) →
      decodeRequiredJsonField Int fields field = .ok i := by
    intro fields field i hi hlookup
    simp only [decodeRequiredJsonField, hlookup, FromJson.fromJson, readInt, hi.parseInt_formatInt]
  rw [decodeProfileApplyDocument, if_neg (by
    rw [not_or]
    exact ⟨ProfileApplyDocument.marshal_ne_nil _, Nat.not_lt.mpr hlen⟩)]
  refine bind_eq_ok.mpr ⟨_, hstrict, bind_eq_ok.mpr ⟨(), rfl, bind_eq_ok.mpr
    ⟨profileApplySchemaVersion, orFail_eq_ok.mpr (hread (by decide) rfl), ?_⟩⟩⟩
  refine bind_eq_ok.mpr ⟨r, orFail_eq_ok.mpr (hread hrevision rfl), ?_⟩
  rw [if_neg (Int.not_lt.mpr hrevision.1)]
  refine bind_eq_ok.mpr ⟨_, rfl, bind_eq_ok.mpr ⟨p, decodeAgentProfile_toJson p false,
    bind_eq_ok.mpr ⟨p, hnormal, ?_⟩⟩⟩
  exact if_neg (not_not.mpr rfl)

/-- The documents the decoder accepts are the canonical texts of normalized profiles, and
each is decoded to what it was made from. -/
theorem decodeProfileApplyDocument_ok_iff (data : Bytes) (d : ProfileApplyDocument) :
    decodeProfileApplyDocument data = .ok d ↔
      d = applyDocument d.profile d.revision ∧ d.profile.Normalized ∧
        ValidRevision d.revision ∧ data = d.marshal ∧ data.length ≤ maxProfileJsonBytes := by
  constructor
  · intro h
    unfold decodeProfileApplyDocument at h
    split_ifs at h with hsize
    obtain ⟨fields, hfields, h⟩ := bind_eq_ok.mp h
    obtain ⟨⟨⟩, honly, h⟩ := bind_eq_ok.mp h
    obtain ⟨schema, hschema, h⟩ := bind_eq_ok.mp h
    split_ifs at h with hversion
    obtain ⟨revision, hrevision, h⟩ := bind_eq_ok.mp h
    split_ifs at h with hpos
    obtain ⟨raw, hraw, h⟩ := bind_eq_ok.mp h
    obtain ⟨profile, hprofile, h⟩ := bind_eq_ok.mp h
    obtain ⟨normalized, hnormal, h⟩ := bind_eq_ok.mp h
    split_ifs at h with hcanonical
    cases h
    obtain ⟨value, -, hvalue⟩ := decodeRequiredJsonField_ok (orFail_eq_ok.mp hrevision)
    refine ⟨?_, normalizeAgentProfile_normalized hnormal, ⟨by simpa using hpos, ?_⟩, ?_, ?_⟩
    · simp only [applyDocument, not_not.mp hversion]
    · exact (fromJson_int_range hvalue).2
    · exact (not_not.mp hcanonical).symm
    · rw [not_or] at hsize
      exact Nat.not_lt.mp hsize.2
  · rintro ⟨hd, hnormal, hrevision, rfl, hlen⟩
    generalize d.profile = p at hd hnormal
    generalize d.revision = r at hd hrevision
    subst hd
    exact decodeProfileApplyDocument_marshal hnormal hrevision hlen

theorem canonicalProfileApplyDocument_ok_iff (p q : AgentProfile) (r : Int) (document : Bytes) :
    canonicalProfileApplyDocument p r = .ok (q, document) ↔
      1 ≤ r ∧ normalizeAgentProfile p = .ok q ∧ document = (applyDocument q r).marshal ∧
        document.length ≤ maxProfileJsonBytes := by
  rw [canonicalProfileApplyDocument, ite_error_eq_ok, Int.not_lt, bind_eq_ok]
  constructor
  · rintro ⟨hr, n, hn, h⟩
    split_ifs at h with hlen
    cases h
    exact ⟨hr, hn, rfl, Nat.not_lt.mp hlen⟩
  · rintro ⟨hr, hn, rfl, hlen⟩
    exact ⟨hr, q, hn, if_neg (Nat.not_lt.mpr hlen)⟩

/-! ## The task payload -/

/-- The payload that carries the document of a profile under a revision. -/
def applyPayload (profile : AgentProfile) (revision : Int) : StrMap :=
  payloadMap (Base64.encode (applyDocument profile revision).marshal) (Decimal.formatInt revision)

theorem encodedDocument_length {document : Bytes} (h : document.length ≤ maxProfileJsonBytes) :
    (Base64.encode document).length ≤ maxProfileEncodedBytes := by
  rw [Base64.encode_length, maxProfileEncodedBytes]
  omega

theorem profileApplyTaskPayload_ok_iff (p q : AgentProfile) (r : Int) (text : Bytes) :
    profileApplyTaskPayload p r = .ok (q, text) ↔ 1 ≤ r ∧ normalizeAgentProfile p = .ok q ∧
        (applyDocument q r).marshal.length ≤ maxProfileJsonBytes ∧
          text = (applyPayload q r).marshal := by
  rw [profileApplyTaskPayload, ite_error_eq_ok, Int.not_lt, bind_eq_ok]
  constructor
  · rintro ⟨hpos, ⟨n, document⟩, hdocument, h⟩
    obtain ⟨-, hn, rfl, hlen⟩ := (canonicalProfileApplyDocument_ok_iff _ _ _ _).mp hdocument
    simp only at h
    split_ifs at h with hsize
    cases h
    exact ⟨hpos, hn, hlen, rfl⟩
  · rintro ⟨hpos, hn, hlen, rfl⟩
    refine ⟨hpos, _, (canonicalProfileApplyDocument_ok_iff _ _ _ _).mpr ⟨hpos, hn, rfl, hlen⟩, ?_⟩
    refine if_neg ?_
    rw [not_or]
    exact ⟨Nat.not_lt.mpr hlen, Nat.not_lt.mpr (encodedDocument_length hlen)⟩

/-- Payloads of plain texts parse to their two members. -/
theorem decodeStrictJsonObject_payloadMap {encoded revision : Bytes} (he : PlainText encoded)
    (hr : PlainText revision) : decodeStrictJsonObject (payloadMap encoded revision).marshal =
      .ok [(profileJsonB64Key, .str encoded), (revisionKey, .str revision)] := by
  rw [decodeStrictJsonObject, StrMap.parse_marshal]
  simp only [payloadMap, map_cons, map_nil,
    Utf8.sanitize_of_valid _ (plainText_valid he), Utf8.sanitize_of_valid _ (plainText_valid hr)]
  rfl

/-- The payloads the hub accepts under a revision are those that carry the document of some
normalized profile under it. -/
theorem profileApplyPayloadRevision_ok_iff (payload : Bytes) (r : Int) :
    profileApplyPayloadRevision payload = .ok r ↔
      ∃ p : AgentProfile, p.Normalized ∧ ValidRevision r ∧
        (applyDocument p r).marshal.length ≤ maxProfileJsonBytes ∧
        payload = (applyPayload p r).marshal := by
  constructor
  · intro h
    obtain ⟨fields, -, h⟩ := bind_eq_ok.mp h
    split_ifs at h with hsize
    obtain ⟨revisionValue, -, h⟩ := bind_eq_ok.mp h
    obtain ⟨encoded, -, h⟩ := bind_eq_ok.mp h
    split_ifs at h with hcanonical
    cases hparse : parseInt revisionValue with
    | none => simp [hparse] at h
    | some revision =>
      simp only [hparse] at h
      split_ifs at h with hrevision
      cases hdecode : Base64.decode encoded with
      | none => simp [hdecode] at h
      | some profileJson =>
        simp only [hdecode] at h
        split_ifs at h with hencoded
        obtain ⟨d, hd, h⟩ := bind_eq_ok.mp h
        split_ifs at h with hsame
        cases h
        rw [orFail_eq_ok, decodeProfileApplyDocument_ok_iff] at hd
        obtain ⟨hshape, hnormal, hvalid, hjson, hlen⟩ := hd
        rw [not_or, not_not] at hrevision hencoded
        rw [not_not] at hcanonical hsame
        rw [hsame] at hshape hvalid
        rw [hjson, hshape] at hencoded
        rw [hjson, hshape] at hlen
        refine ⟨d.profile, hnormal, hvalid, hlen, ?_⟩
        rw [applyPayload, hencoded.1, hrevision.2, hcanonical]
  · rintro ⟨p, hnormal, hvalid, hlen, rfl⟩
    have hfields := decodeStrictJsonObject_payloadMap
      (Base64.encode_ascii (applyDocument p r).marshal) (formatInt_ascii r)
    refine bind_eq_ok.mpr ⟨_, hfields, ?_⟩
    refine bind_eq_ok.mpr ⟨_, rfl, bind_eq_ok.mpr ⟨_, rfl, ?_⟩⟩
    rw [applyPayload, if_neg (not_not.mpr rfl), hvalid.parseInt_formatInt]
    simp only
    rw [if_neg (by simpa using hvalid.1), Base64.decode_encode]
    have hdoc := decodeProfileApplyDocument_marshal hnormal hvalid hlen
    have hbase := encodedDocument_length hlen
    simp only
    rw [if_neg (by simp [ProfileApplyDocument.marshal_ne_nil, hlen, hbase])]
    refine bind_eq_ok.mpr ⟨_, orFail_eq_ok.mpr hdoc, ?_⟩
    exact if_neg (not_not.mpr rfl)

end HeyServer.Hub
