import HeyServer.Agent.CandidateParser

/-!
# Installer and agent read the same candidates

The path rules of the installer and of the hub coincide. A document the agent
wrote is re-encoded byte for byte, so the next active file is the candidate.
-/

namespace HeyServer.Agent.Installer
open Lib Hub List Option Json Decimal Except

/-! ## Paths -/

variable {value : Bytes} {items : List Bytes} {p : AgentProfile} {host : Host}

/-- Below one leading slash the two normal forms are the same. -/
theorem normpath_eq_clean (habs : Text.isAbs value = true)
    (hsingle : ¬ [slash, slash].isPrefixOf value = true) : normpath value = Text.clean value := by
  have hne : value ≠ [] := by
    rintro rfl
    cases habs
  rw [normpath, if_neg hne, Text.clean]
  simp only [habs, Bool.not_eq_true _ ▸ hsingle, Bool.not_true, Bool.false_and, Bool.false_eq_true,
    if_false, if_true, replicate_one, singleton_append]
  exact if_neg (cons_ne_nil _ _)

theorem validateOptionalProfilePath_ok_iff (hne : value ≠ []) (file : Bool) :
    validateOptionalProfilePath value file = .ok () ↔
      (Utf8.valid value = true ∧ value.length ≤ maxProfilePathBytes ∧
        value.any (fun b => b = 0x0D || b = 0x0A || b = 0x00) = false) ∧
      (value ≠ [slash] ∧ Text.isAbs value = true ∧ Text.clean value = value) ∧
      matchesProfileSafePath value = true ∧ ¬ (file = true ∧ value.getLast? = some slash) := by
  have hstring : validateProfileString value "profile path" = .ok () ↔
      Utf8.valid value = true ∧ value.length ≤ maxProfilePathBytes ∧
        value.any (fun b => b = 0x0D || b = 0x0A || b = 0x00) = false := by
    rw [validateProfileString, ite_error_eq_ok, and_iff_left rfl]
    simp only [Bool.or_eq_true, Bool.not_eq_true', decide_eq_true_eq, not_or, Bool.not_eq_false,
      Nat.not_lt, Bool.not_eq_true, and_assoc]
  rw [validateOptionalProfilePath, if_neg hne, bind_eq_ok]
  constructor
  · rintro ⟨⟨⟩, hok, h⟩
    split_ifs at h with hclean hsafe hfile
    simp only [not_or, Bool.not_eq_false, not_not] at hclean
    exact ⟨hstring.mp hok, hclean, (Bool.not_eq_false _).mp hsafe, hfile⟩
  · rintro ⟨hok, ⟨hroot, habs, hclean⟩, hsafe, hfile⟩
    refine ⟨(), hstring.mpr hok, ?_⟩
    rw [if_neg (by simp [habs, hclean, show value ≠ [0x2F] from hroot]), if_neg (by simp [hsafe])]
    exact if_neg hfile

/-- The installer's path rule is the hub's. -/
theorem validatePath_iff (value : Bytes) (file : Bool) :
    validatePath value file = .ok () ↔ validateOptionalProfilePath value file = .ok () := by
  by_cases hne : value = []
  · subst hne
    exact iff_of_true rfl rfl
  rw [validateOptionalProfilePath_ok_iff hne, validatePath]
  constructor
  · intro h
    split_ifs at h with hvalid hbytes hshape hfile hsafe hnorm
    simp only [not_or, Nat.not_lt, Bool.not_eq_true,
      Bool.not_eq_false] at hbytes hshape hvalid hsafe
    rw [not_not, normpath_eq_clean hshape.2.1 (by simp [hshape.2.2])] at hnorm
    exact ⟨⟨hvalid, hbytes⟩, ⟨hshape.1, hshape.2.1, hnorm⟩, hsafe, hfile⟩
  · rintro ⟨⟨hvalid, hlen, hplain⟩, ⟨hroot, habs, hclean⟩, hsafe, hfile⟩
    have hsingle : ¬ [slash, slash].isPrefixOf value = true := by
      intro hprefix
      obtain ⟨rest, hrest⟩ := isPrefixOf_iff_prefix.mp hprefix
      exact Text.clean_ne_slashes hclean hrest.symm
    rw [if_neg (by simp [hvalid]), if_neg (by simp [hplain, Nat.not_lt.mpr hlen]), if_neg hne,
      if_neg (by
        rw [not_or, not_or]
        exact ⟨hroot, by simp [habs], hsingle⟩),
      if_neg hfile, if_neg (by simp [hsafe]),
      if_neg (by rw [not_not, normpath_eq_clean habs hsingle, hclean])]

/-! ## Strings -/

/-- A byte Go writes as it is, Python writes as it is. -/
theorem dumpByte_of_htmlSafe {b : UInt8} (h : Json.isHtmlSafe b = true) : dumpByte b = [b] := by
  refine forall_byte (P := fun b => isHtmlSafe b = true → dumpByte b = [b]) ?_ b h
  decide +kernel

theorem encodeChars_htmlSafe {s : Bytes} (h : ∀ b ∈ s, Json.isHtmlSafe b = true) :
    Json.encodeChars s = s := by
  induction s with
  | nil => rfl
  | cons b rest ih =>
    have hb := h b mem_cons_self
    have hascii : b.toNat < 0x80 := by
      simp only [isHtmlSafe, Bool.and_eq_true, decide_eq_true_eq] at hb
      exact hb.1.1.1.1.1.2
    have hrest := ih fun c hc => h c (mem_cons_of_mem _ hc)
    rw [encodeChars] at hrest ⊢
    rw [Utf8.pieces_cons_ascii hascii, flatMap_cons, hrest, encodePiece, if_pos hb]
    rfl

theorem dumpString_eq_encodeString {s : Bytes} (h : ∀ b ∈ s, Json.isHtmlSafe b = true) :
    dumpString s = Json.encodeString s := by
  have hdump : s.flatMap dumpByte = s :=
    (flatMap_congr fun b hb => dumpByte_of_htmlSafe (h b hb)).trans (flatMap_singleton' s)
  rw [dumpString, encodeString, encodeChars_htmlSafe h, hdump]

theorem htmlSafe_of_validPath {file : Bool} (h : validateOptionalProfilePath value file = .ok ()) :
    ∀ b ∈ value, Json.isHtmlSafe b = true := by
  by_cases hne : value = []
  · simp [hne]
  · obtain ⟨-, -, hsafe, -⟩ := (validateOptionalProfilePath_ok_iff hne file).mp h
    rw [matchesProfileSafePath, Bool.and_eq_true] at hsafe
    intro b hb
    refine forall_byte (P := fun b => isProfileSafePathByte b = true → isHtmlSafe b = true) ?_ b
      (all_eq_true.mp hsafe.2 b hb)
    decide +kernel

section
variable (h : ∀ s ∈ items, ∀ b ∈ s, Json.isHtmlSafe b = true)
include h

theorem dumpItems_strings : dumpItems (items.map .str) = Json.encodeItems (items.map .str) := by
  induction items with
  | nil => rfl
  | cons s items ih =>
    simp only [map_cons, dumpItems, dumps, encodeItems, encode,
      dumpString_eq_encodeString (h s mem_cons_self),
      ih fun t ht => h t (mem_cons_of_mem _ ht)]

theorem dumps_strings : dumps (.arr (items.map .str)) = Json.encode (.arr (items.map .str)) := by
  cases items with
  | nil => rfl
  | cons s items =>
    simp only [map_cons, dumps, encode, dumpString_eq_encodeString (h s mem_cons_self),
      dumpItems_strings fun t ht => h t (mem_cons_of_mem _ ht)]

end

/-- Both encoders write the same document of a normalized profile. -/
theorem dumps_document (hnormal : p.Normalized) (r : Int) :
    dumps (ProfileWrapper.toJson ⟨profileSchemaVersion, r, p⟩) = (applyDocument p r).marshal := by
  obtain ⟨-, hplans, hacme, roots, hroots, -⟩ := (normalizeAgentProfile_ok_iff p p).mp hnormal
  have hroot : ∀ root ∈ p.deployWriteRoots, ∀ b ∈ root, isHtmlSafe b = true := by
    intro root hroot
    exact htmlSafe_of_validPath (((normalizeProfileRoots_ok_iff _ _).mp hroots).2.1 root hroot).1
  have hkey : ∀ k ∈ wrapperFields ++ profileFields, dumpString k = encodeString k := by
    intro k hk
    refine dumpString_eq_encodeString ?_
    revert k
    decide +kernel
  simp only [wrapperFields, profileFields, cons_append, nil_append, forall_mem_cons] at hkey
  simp only [ProfileWrapper.toJson, AgentProfile.toJson, dumps, dumpMembers, hkey,
    dumpString_eq_encodeString (htmlSafe_of_validPath hplans),
    dumpString_eq_encodeString (htmlSafe_of_validPath hacme), dumps_strings hroot,
    ProfileApplyDocument.marshal, applyDocument, ProfileApplyDocument.toJson, encode,
    encodeMembers]
  rfl

/-! ## Candidates -/

theorem checkRoots_strings {deployPlansFile : Bytes} {roots : List Bytes}
    (h : checkRoots host deployPlansFile (items.map .str) = .ok roots) : roots = items := by
  induction items generalizing roots with
  | nil => exact (ok.inj h).symm
  | cons root items ih =>
    simp only [map_cons, checkRoots, Json.asText] at h
    split_ifs at h
    obtain ⟨-, -, h⟩ := bind_eq_ok.mp h
    obtain ⟨-, -, h⟩ := bind_eq_ok.mp h
    obtain ⟨rest, hrest, h⟩ := bind_eq_ok.mp h
    rw [← ok.inj h, ih hrest]

/-- The members of a profile object. -/
def profileMembers (p : AgentProfile) : Fields :=
  [(ascii "allowDeployRead", .bool p.allowDeployRead),
    (ascii "allowDeployActions", .bool p.allowDeployActions),
    (ascii "allowDeployDomainRead", .bool p.allowDeployDomainRead),
    (ascii "allowDeployDomainActions", .bool p.allowDeployDomainActions),
    (ascii "deployPlansFile", .str p.deployPlansFile),
    (ascii "deployAcmeWebroot", .str p.deployAcmeWebroot),
    (ascii "deployWriteRoots", .arr (p.deployWriteRoots.map .str))]

theorem field_eq_ok {α : Type} {read : Json → Option α} {members : Fields} {key : Bytes}
    {wrong : ProfileErrorCode} (value : Json) {a : α} (hlookup : members.lookup key = some value)
    (h : field read members key wrong = .ok a) : read value = some a := by
  rw [field, hlookup, bind_some] at h
  cases hread : read value with
  | none =>
    rw [hread] at h
    cases h
  | some b =>
    rw [hread] at h
    rw [ok.inj h]

/-- The profile the validator reads from the members of a normalized profile is that profile. -/
theorem checkProfile_members {q : AgentProfile} (hnormal : p.Normalized)
    (h : checkProfile host (profileMembers p) = .ok q) : q = p := by
  obtain ⟨-, -, -, roots, hroots, hp⟩ := (normalizeAgentProfile_ok_iff p p).mp hnormal
  have hsorted : p.deployWriteRoots.insertionSort (· ≤ ·) = p.deployWriteRoots := by
    rw [← ((normalizeProfileRoots_ok_iff _ _).mp hroots).2.2.2]
    exact (congrArg AgentProfile.deployWriteRoots hp).symm
  obtain ⟨read, hread, h⟩ := bind_eq_ok.mp h
  obtain ⟨actions, hactions, h⟩ := bind_eq_ok.mp h
  obtain ⟨domainRead, hdomainRead, h⟩ := bind_eq_ok.mp h
  obtain ⟨domainActions, hdomainActions, h⟩ := bind_eq_ok.mp h
  obtain ⟨plans, hplans, h⟩ := bind_eq_ok.mp h
  obtain ⟨-, -, h⟩ := bind_eq_ok.mp h
  obtain ⟨acme, hacme, h⟩ := bind_eq_ok.mp h
  obtain ⟨-, -, h⟩ := bind_eq_ok.mp h
  obtain ⟨-, -, h⟩ := bind_eq_ok.mp h
  obtain ⟨items, hitems, h⟩ := bind_eq_ok.mp h
  obtain ⟨-, h⟩ := ite_error_eq_ok.mp h
  obtain ⟨checked, hchecked, h⟩ := bind_eq_ok.mp h
  simp only [ite_error_eq_ok] at h
  obtain ⟨-, -, -, -, hq⟩ := h
  obtain rfl : p.allowDeployRead = read := some.inj (field_eq_ok (.bool _) rfl hread)
  obtain rfl : p.allowDeployActions = actions := some.inj (field_eq_ok (.bool _) rfl hactions)
  obtain rfl : p.allowDeployDomainRead = domainRead :=
    some.inj (field_eq_ok (.bool _) rfl hdomainRead)
  obtain rfl : p.allowDeployDomainActions = domainActions :=
    some.inj (field_eq_ok (.bool _) rfl hdomainActions)
  obtain rfl : p.deployPlansFile = plans := some.inj (field_eq_ok (.str _) rfl hplans)
  obtain rfl : p.deployAcmeWebroot = acme := some.inj (field_eq_ok (.str _) rfl hacme)
  obtain rfl : p.deployWriteRoots.map .str = items :=
    some.inj (field_eq_ok (.arr _) rfl hitems)
  rw [← ok.inj hq, checkRoots_strings hchecked, hsorted]

/-- An accepted document of a normalized profile is the canonical document. -/
theorem validateCandidate_document {r : Int} {c : Candidate} (hnormal : p.Normalized)
    (h : validateCandidate host (applyDocument p r).marshal = .ok c) :
    c = ⟨r, p, (applyDocument p r).marshal⟩ ∧ ValidRevision r := by
  rw [validateCandidate] at h
  split_ifs at h
  obtain ⟨value, hvalue, h⟩ := bind_eq_ok.mp h
  have hdocument : value = (applyDocument p r).toJson := by
    rw [loads, hnormal.plain.parse_document] at hvalue
    split at hvalue
    next hparse =>
      split_ifs at hvalue hparse
      rw [← ok.inj hvalue, ← some.inj hparse]
    · cases hvalue
  subst hdocument
  obtain ⟨members, hmembers, h⟩ := bind_eq_ok.mp h
  obtain rfl : [(ascii "schema_version", .num (formatInt profileApplySchemaVersion)),
      (ascii "revision", .num (formatInt r)), (ascii "profile", p.toJson)] = members :=
    ok.inj hmembers
  obtain ⟨schema, -, h⟩ := bind_eq_ok.mp h
  split_ifs at h
  obtain ⟨revision, hrevision, h⟩ := bind_eq_ok.mp h
  have hread := field_eq_ok (.num (formatInt r)) rfl hrevision
  rw [asInteger, integerLiteral_formatInt] at hread
  cases hread
  split_ifs at h with hrange
  rw [not_or, Int.not_lt, Int.not_lt] at hrange
  obtain ⟨raw, hraw, h⟩ := bind_eq_ok.mp h
  cases field_eq_ok p.toJson rfl hraw
  obtain ⟨fields, hfields, h⟩ := bind_eq_ok.mp h
  obtain rfl : profileMembers p = fields := ok.inj hfields
  obtain ⟨q, hq, h⟩ := bind_eq_ok.mp h
  have hcanonical : dumps (ProfileWrapper.toJson ⟨1, r, p⟩) = _ := dumps_document hnormal r
  rw [checkProfile_members hnormal hq] at h
  rw [hcanonical] at h
  obtain ⟨-, h⟩ := ite_error_eq_ok.mp h
  exact ⟨(ok.inj h).symm, hrange⟩

/-- Installer and agent agree on candidate profiles: a candidate the agent wrote and the
installer accepts is re-encoded byte for byte and decoded to the same revision and profile,
and both have the same path rule. -/
theorem installer_agent_candidate_agreement :
    (∀ (host : Host) (wrapper : ProfileWrapper) (data : Bytes) (candidate : Candidate),
      marshalProfileWrapper wrapper = .ok data → validateCandidate host data = .ok candidate →
      candidate.canonical = data ∧ candidate.revision = wrapper.revision ∧
        normalizeAgentProfile wrapper.profile = .ok candidate.profile ∧
        decodeProfileWrapper candidate.canonical =
          .ok ⟨profileSchemaVersion, candidate.revision, candidate.profile⟩) ∧
    ∀ (value : Bytes) (file : Bool),
      validatePath value file = .ok () ↔ validateOptionalProfilePath value file = .ok () := by
  refine ⟨?_, validatePath_iff⟩
  intro host wrapper data candidate hmarshal haccept
  obtain ⟨p, hp, -, hpos, rfl, hlen⟩ := (marshalProfileWrapper_ok_iff _).mp hmarshal
  have hnormal := normalizeAgentProfile_normalized hp
  obtain ⟨rfl, hvalid⟩ := validateCandidate_document hnormal haccept
  exact ⟨rfl, rfl, hp, decodeProfileWrapper_marshal hnormal hvalid hlen⟩

/-- A host without links and without protected files of its own. -/
def plainHost : Host where
  rootPrefix := []
  dynamicProtectedPaths := []
  readlink _ := .notLink
  realpath path := path

/-- A wrapper whose roots are not sorted. -/
def sampleWrapper : ProfileWrapper :=
  ⟨1, 7, ⟨true, true, false, false, ascii "/srv/plans.json", [], [ascii "/srv/b", ascii "/srv/a"]⟩⟩

/-- The document of `sampleWrapper`. -/
def sampleDocument : Bytes :=
  (applyDocument { sampleWrapper.profile with
    deployWriteRoots := [ascii "/srv/a", ascii "/srv/b"] } 7).marshal

theorem installer_agent_candidate_agreement_sample :
    ∃ candidate, validateCandidate plainHost sampleDocument = .ok candidate ∧
      candidate.canonical = sampleDocument ∧ candidate.revision = 7 := by
  have hmarshal : marshalProfileWrapper sampleWrapper = .ok sampleDocument := by decide +kernel
  have haccept : (validateCandidate plainHost sampleDocument).isOk = true := by decide +kernel
  cases h : validateCandidate plainHost sampleDocument with
  | error e =>
    rw [h] at haccept
    cases haccept
  | ok candidate =>
    obtain ⟨hcanonical, hrevision, -⟩ :=
      installer_agent_candidate_agreement.1 plainHost sampleWrapper sampleDocument candidate
        hmarshal h
    exact ⟨candidate, rfl, hcanonical, hrevision⟩

end HeyServer.Agent.Installer
