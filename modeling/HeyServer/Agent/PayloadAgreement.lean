import HeyServer.Agent.ProfileWrapper
import HeyServer.Hub.ProfileCodec

/-!
# Hub and agent read the same apply payloads

The hub and the agent have a decoder each. Both accept exactly the canonical
documents of normalized profiles, and exactly the payloads that carry one.
-/

namespace HeyServer.Agent
open Lib Hub List Decimal ProfileApplyDocument

variable (wrapper : ProfileWrapper)

/-- The hub's document with the contents of a wrapper. -/
def ProfileWrapper.document : ProfileApplyDocument :=
  ⟨wrapper.schemaVersion, wrapper.revision, wrapper.profile⟩

theorem ProfileWrapper.encode_toJson : wrapper.toJson.encode = wrapper.document.marshal := rfl

variable {wrapper : ProfileWrapper}

theorem marshalProfileWrapper_ok_iff (data : Bytes) : marshalProfileWrapper wrapper = .ok data ↔
      ∃ p, normalizeAgentProfile wrapper.profile = .ok p ∧
        wrapper.schemaVersion = profileSchemaVersion ∧ 1 ≤ wrapper.revision ∧
        data = (applyDocument p wrapper.revision).marshal ∧
          data.length ≤ maxProfileDocumentBytes := by
  simp only [marshalProfileWrapper, ite_error_eq_ok, bind_eq_ok, orInvalid_eq_ok, not_or, not_not,
    Int.not_le, Nat.not_lt]
  constructor
  · rintro ⟨⟨hschema, hpos⟩, p, hp, hlen, hdata⟩
    cases hdata
    refine ⟨p, hp, hschema, hpos, ?_, hlen⟩
    rw [ProfileWrapper.encode_toJson, ProfileWrapper.document, hschema]
    rfl
  · rintro ⟨p, hp, hschema, hpos, rfl, hlen⟩
    rw [hschema]
    exact ⟨⟨rfl, hpos⟩, p, hp, hlen, rfl⟩

theorem integer_formatInt {i : Int} (hi : ValidRevision i) (wrong : WrapperError) :
    integer (.num (Decimal.formatInt i)) wrong = .ok i := by
  simp only [integer, FromJson.fromJson, readInt, hi.parseInt_formatInt]

variable {p : AgentProfile}

theorem strictJsonObject_document (h : p.Plain) (r : Int) :
    strictJsonObject (applyDocument p r).marshal =
      .ok [(ascii "schema_version", .num (Decimal.formatInt profileSchemaVersion)),
        (ascii "revision", .num (Decimal.formatInt r)), (ascii "profile", p.toJson)] := by
  rw [strictJsonObject, h.parse_document]
  rfl

/-- The agent accepts the canonical document of every normalized profile. -/
theorem decodeProfileWrapper_marshal {r : Int} (hnormal : p.Normalized)
    (hrevision : ValidRevision r)
    (hlen : (applyDocument p r).marshal.length ≤ maxProfileDocumentBytes) :
    decodeProfileWrapper (applyDocument p r).marshal = .ok ⟨profileSchemaVersion, r, p⟩ := by
  have hpos : ¬ r ≤ 0 := by
    have := hrevision.1
    omega
  have hmarshal : marshalProfileWrapper ⟨profileSchemaVersion, r, p⟩ =
      .ok (applyDocument p r).marshal :=
    (marshalProfileWrapper_ok_iff _).mpr ⟨p, hnormal, rfl, hrevision.1, rfl, hlen⟩
  rw [decodeProfileWrapper, if_neg (by
    rw [not_or]
    exact ⟨marshal_ne_nil _, Nat.not_lt.mpr hlen⟩)]
  refine bind_eq_ok.mpr ⟨_, strictJsonObject_document hnormal.plain r, ?_⟩
  refine bind_eq_ok.mpr ⟨_, rfl, bind_eq_ok.mpr ⟨profileSchemaVersion,
    integer_formatInt (by decide) _, ?_⟩⟩
  refine bind_eq_ok.mpr ⟨_, rfl, bind_eq_ok.mpr ⟨r, integer_formatInt hrevision _, ?_⟩⟩
  rw [if_neg hpos]
  refine bind_eq_ok.mpr ⟨_, rfl, bind_eq_ok.mpr
    ⟨p, orInvalid_eq_ok.mpr (decodeAgentProfile_toJson p false), bind_eq_ok.mpr
      ⟨p, orInvalid_eq_ok.mpr hnormal, bind_eq_ok.mpr ⟨_, hmarshal, ?_⟩⟩⟩⟩
  exact if_neg (not_not.mpr rfl)

/-- The two document decoders accept the same texts with the same contents. -/
theorem decodeProfileWrapper_ok_iff (data : Bytes) (wrapper : ProfileWrapper) :
    decodeProfileWrapper data = .ok wrapper ↔
      decodeProfileApplyDocument data = .ok wrapper.document := by
  rw [decodeProfileApplyDocument_ok_iff]
  constructor
  · intro h
    unfold decodeProfileWrapper at h
    split_ifs at h with hsize
    obtain ⟨fields, -, h⟩ := bind_eq_ok.mp h
    split_ifs at h with hfields
    obtain ⟨schemaRaw, -, h⟩ := bind_eq_ok.mp h
    obtain ⟨schema, -, h⟩ := bind_eq_ok.mp h
    split_ifs at h with hschema
    obtain ⟨revisionRaw, -, h⟩ := bind_eq_ok.mp h
    obtain ⟨revision, hrevision, h⟩ := bind_eq_ok.mp h
    split_ifs at h with hpos
    obtain ⟨profileRaw, -, h⟩ := bind_eq_ok.mp h
    obtain ⟨profile, -, h⟩ := bind_eq_ok.mp h
    obtain ⟨normalized, hnormal, h⟩ := bind_eq_ok.mp h
    obtain ⟨canonical, hcanonical, h⟩ := bind_eq_ok.mp h
    split_ifs at h with hsame
    cases h
    have hnormal := normalizeAgentProfile_normalized (orInvalid_eq_ok.mp hnormal)
    obtain ⟨p, hp, -, hone, htext, hlen⟩ := (marshalProfileWrapper_ok_iff _).mp hcanonical
    cases hp.symm.trans hnormal
    rw [not_not] at hsame
    refine ⟨rfl, hnormal, ⟨hone, ?_⟩, hsame.trans htext, hsame ▸ hlen⟩
    unfold integer at hrevision
    split at hrevision
    next hvalue =>
      cases hrevision
      exact (fromJson_int_range hvalue).2
    · cases hrevision
  · rintro ⟨hshape, hnormal, hrevision, rfl, hlen⟩
    rw [hshape] at hlen ⊢
    have hschema : wrapper.schemaVersion = profileSchemaVersion :=
      congrArg schemaVersion hshape
    rw [decodeProfileWrapper_marshal hnormal hrevision hlen, ← hschema]
    rfl

/-! ## Payloads -/

/-- A map with two entries whose keys are the payload's is a payload map. -/
theorem eq_payloadMap {payload : StrMap} {encoded revision : Bytes} (hsize : payload.size = 2)
    (hrevision : payload.lookup revisionKey = some revision)
    (hencoded : payload.lookup profileJsonB64Key = some encoded) :
    payload = payloadMap encoded revision := by
  obtain ⟨entries, sorted⟩ := payload
  obtain ⟨⟨k1, v1⟩, ⟨k2, v2⟩, rfl⟩ := length_eq_two.mp hsize
  have hlt : k1 < k2 := by simpa using sorted
  have hkeys : profileJsonB64Key < revisionKey := by decide
  simp only [StrMap.lookup, StrMap.lookup_cons_eq, lookup_nil] at hrevision hencoded
  split_ifs at hrevision hencoded with h1 h2 h3 h4 h5 h6
  · exact absurd (h2.trans h1.symm) hkeys.ne
  · exact absurd hlt (h1 ▸ h3 ▸ hkeys.asymm)
  · cases hrevision
    cases hencoded
    subst h4 h5
    rfl
  · exact absurd (h6.trans h4.symm) hkeys.ne

/-- The payloads the agent accepts are those that carry the document of some normalized
profile, and it reads that profile and its revision. -/
theorem decodeProfileTaskPayload_ok_iff (payload : StrMap) (wrapper : ProfileWrapper) :
    decodeProfileTaskPayload payload = .ok wrapper ↔
      ∃ (p : AgentProfile) (r : Int), p.Normalized ∧ ValidRevision r ∧
        (applyDocument p r).marshal.length ≤ maxProfileDocumentBytes ∧
        payload = applyPayload p r ∧ wrapper = ⟨profileSchemaVersion, r, p⟩ := by
  constructor
  · fun_cases decodeProfileTaskPayload payload
    case case13 hsize _ _ hencoded hrevision _ _ _ hcanonical _ decoded _ hencode _ wrapper hwrapper
        hsame =>
      rintro ⟨⟩
      rw [decodeProfileWrapper_ok_iff, decodeProfileApplyDocument_ok_iff] at hwrapper
      obtain ⟨hshape, hnormal, hvalid, hdata, hlen⟩ := hwrapper
      rw [not_or, not_not] at hcanonical
      rw [not_not] at hencode hsame hsize
      have hdocument : decoded = (applyDocument wrapper.profile wrapper.revision).marshal :=
        hdata.trans (congrArg marshal hshape)
      refine ⟨wrapper.profile, wrapper.revision, hnormal, hvalid, hdocument ▸ hlen, ?_, ?_⟩
      · rw [eq_payloadMap hsize hrevision hencoded, applyPayload, ← hdocument, hencode, hsame,
          hcanonical.2]
      · have hschema := congrArg schemaVersion hshape
        exact congrArg (ProfileWrapper.mk · wrapper.revision wrapper.profile) hschema
    all_goals rintro ⟨⟩
  · rintro ⟨p, r, hnormal, hvalid, hlen, rfl, rfl⟩
    have hpos : ¬ r ≤ 0 := by
      have := hvalid.1
      omega
    have hraw : formatInt r ≠ [] := by
      intro hnil
      have := hvalid.parseInt_formatInt
      rw [hnil] at this
      cases this
    have hbase : (Base64.encode (applyDocument p r).marshal).length ≤
        (maxProfileDocumentBytes + 2) / 3 * 4 := encodedDocument_length hlen
    have hencoded : Base64.encode (applyDocument p r).marshal ≠ [] := by
      intro hnil
      have := Base64.decode_encode (applyDocument p r).marshal
      rw [hnil] at this
      exact marshal_ne_nil _ (Option.some.inj this).symm
    have hlookups : (applyPayload p r).lookup revisionKey = some (formatInt r) ∧
        (applyPayload p r).lookup profileJsonB64Key =
          some (Base64.encode (applyDocument p r).marshal) := ⟨rfl, rfl⟩
    have hsize : (applyPayload p r).size = 2 := rfl
    rw [decodeProfileTaskPayload, if_neg (not_not.mpr hsize), hlookups.1, hlookups.2]
    simp only
    rw [if_neg (by simp [hraw, hencoded]), hvalid.parseInt_formatInt]
    simp only
    rw [if_neg (by simpa using hpos), if_neg (Nat.not_lt.mpr hbase), Base64.decode_encode]
    simp only
    rw [if_neg (not_not.mpr rfl), if_neg (Nat.not_lt.mpr hlen),
      decodeProfileWrapper_marshal hnormal hvalid hlen]
    exact if_neg (not_not.mpr rfl)

/-- Apply payloads are plain text, so only the map itself marshals to their JSON. -/
theorem applyPayload_ascii (p : AgentProfile) (r : Int) : (applyPayload p r).Ascii := by
  have hkeys : PlainText profileJsonB64Key ∧ PlainText revisionKey := by
    simp only [PlainText]
    decide +kernel
  intro entry hentry
  rcases mem_pair.mp hentry with rfl | rfl
  · exact ⟨hkeys.1, Base64.encode_ascii _⟩
  · exact ⟨hkeys.2, formatInt_ascii r⟩

/-- Hub and agent accept the same payload maps under the same revisions. -/
theorem profileApplyPayloadRevision_marshal_iff (payload : StrMap) (r : Int) :
    profileApplyPayloadRevision payload.marshal = .ok r ↔
      ∃ wrapper, decodeProfileTaskPayload payload = .ok wrapper ∧ wrapper.revision = r := by
  simp only [profileApplyPayloadRevision_ok_iff, decodeProfileTaskPayload_ok_iff]
  constructor
  · rintro ⟨p, hnormal, hvalid, hlen, hpayload⟩
    have heq := StrMap.eq_of_marshal_eq hpayload (applyPayload_ascii p r)
    exact ⟨_, ⟨p, r, hnormal, hvalid, hlen, heq, rfl⟩, rfl⟩
  · rintro ⟨_, ⟨p, _, hnormal, hvalid, hlen, rfl, rfl⟩, rfl⟩
    exact ⟨p, hnormal, hvalid, hlen, rfl⟩

/-- What `CreateProfileApplyTask` stores, read back from its column and decoded. -/
theorem decodeProfileTaskPayload_created {p q : AgentProfile} {r : Int}
    (hnormal : normalizeAgentProfile p = .ok q) (hvalid : ValidRevision r)
    (hlen : (applyDocument q r).marshal.length ≤ maxProfileJsonBytes) :
    ∃ text payload, profileApplyTaskPayload p r = .ok (q, text) ∧
      StrMap.unmarshal text = some payload ∧
      decodeProfileTaskPayload payload = .ok ⟨profileSchemaVersion, r, q⟩ := by
  refine ⟨_, applyPayload q r,
    (profileApplyTaskPayload_ok_iff p q r _).mpr ⟨hvalid.1, hnormal, hlen, rfl⟩, ?_, ?_⟩
  · exact StrMap.unmarshal_marshal_of_valid (applyPayload_ascii q r).valid
  · exact (decodeProfileTaskPayload_ok_iff _ _).mpr
      ⟨q, r, normalizeAgentProfile_normalized hnormal, hvalid, hlen, rfl, rfl⟩

/-- An accepted document is the canonical text of what it decodes to. -/
theorem decodeProfileApplyDocument_canonical {data : Bytes} {d : ProfileApplyDocument}
    (h : decodeProfileApplyDocument data = .ok d) :
    canonicalProfileApplyDocument d.profile d.revision = .ok (d.profile, data) := by
  obtain ⟨hshape, hnormal, hvalid, hdata, hlen⟩ := (decodeProfileApplyDocument_ok_iff _ _).mp h
  have htext : data = (applyDocument d.profile d.revision).marshal :=
    hdata.trans (congrArg marshal hshape)
  exact (canonicalProfileApplyDocument_ok_iff _ _ _ _).mpr ⟨hvalid.1, hnormal, htext, htext ▸ hlen⟩

/-- Hub and agent read the same profiles and revisions out of the same payloads, the agent reads
what the hub writes, and each decoder accepts a document in its canonical text only. -/
theorem hub_agent_payload_agreement :
    (∀ (payload : StrMap) (r : Int), profileApplyPayloadRevision payload.marshal = .ok r ↔
      ∃ wrapper, decodeProfileTaskPayload payload = .ok wrapper ∧ wrapper.revision = r) ∧
    (∀ (payload : StrMap) (wrapper : ProfileWrapper),
      decodeProfileTaskPayload payload = .ok wrapper →
        ∃ text, Base64.decode (payload.get profileJsonB64Key) = some text ∧
          decodeProfileApplyDocument text = .ok wrapper.document ∧ wrapper.profile.Normalized) ∧
    (∀ (p q : AgentProfile) (r : Int), normalizeAgentProfile p = .ok q → ValidRevision r →
      (applyDocument q r).marshal.length ≤ maxProfileJsonBytes →
        ∃ text payload, profileApplyTaskPayload p r = .ok (q, text) ∧
          StrMap.unmarshal text = some payload ∧
          decodeProfileTaskPayload payload = .ok ⟨profileSchemaVersion, r, q⟩) ∧
    (∀ (data : Bytes) (d : ProfileApplyDocument), decodeProfileApplyDocument data = .ok d →
      canonicalProfileApplyDocument d.profile d.revision = .ok (d.profile, data)) ∧
    (∀ (data data' : Bytes) (d d' : ProfileApplyDocument), data ≠ data' →
      decodeProfileApplyDocument data = .ok d → decodeProfileApplyDocument data' = .ok d' →
        (d.revision, d.profile) ≠ (d'.revision, d'.profile)) ∧
    (∀ (data : Bytes) (wrapper : ProfileWrapper), decodeProfileWrapper data = .ok wrapper ↔
      decodeProfileApplyDocument data = .ok wrapper.document) := by
  refine ⟨profileApplyPayloadRevision_marshal_iff, ?_,
    fun _ _ _ => decodeProfileTaskPayload_created,
    fun _ _ => decodeProfileApplyDocument_canonical, ?_, decodeProfileWrapper_ok_iff⟩
  · intro payload wrapper h
    obtain ⟨p, r, hnormal, hvalid, hlen, rfl, rfl⟩ := (decodeProfileTaskPayload_ok_iff _ _).mp h
    refine ⟨(applyDocument p r).marshal, Base64.decode_encode _, ?_, hnormal⟩
    exact decodeProfileApplyDocument_marshal hnormal hvalid hlen
  · intro data data' d d' hne h h' heq
    obtain ⟨hrevision, hprofile⟩ := Prod.mk.inj heq
    have hcanonical := decodeProfileApplyDocument_canonical h
    rw [hrevision, hprofile] at hcanonical
    have hpair := Except.ok.inj (hcanonical.symm.trans (decodeProfileApplyDocument_canonical h'))
    exact hne (congrArg Prod.snd hpair)

/-- Plans, a web root and two roots to write to. -/
def deployProfile : AgentProfile :=
  ⟨true, true, true, false, ascii "/etc/hserver/plans.json", ascii "/var/www/acme",
    [ascii "/srv/api", ascii "/srv/web"]⟩

theorem hub_agent_payload_agreement_deployProfile :
    ∃ text payload, profileApplyTaskPayload deployProfile 1 = .ok (deployProfile, text) ∧
      StrMap.unmarshal text = some payload ∧
      decodeProfileTaskPayload payload = .ok ⟨profileSchemaVersion, 1, deployProfile⟩ :=
  hub_agent_payload_agreement.2.2.1 deployProfile deployProfile 1 (by decide +kernel) (by decide)
    (by decide +kernel)

end HeyServer.Agent
