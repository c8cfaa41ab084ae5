import HeyServer.Hub.TaskRequests

/-!
# Keys of a task payload

`ValidateTaskRequest` counts the keys of a payload and checks the values it needs. A missing key
reads as the empty text, which every check refuses but the one for encoded file content.
-/

namespace HeyServer.Hub
open Lib List

/-- The keys each kind of task documents; the action decides about some of them. -/
def documentedKeys (kind : TaskKind) (payload : StrMap) : List String :=
  match kind with
  | .serviceStatus => ["service"]
  | .serviceAction => ["service", "action"]
  | .hostAction | .nginxAction => ["action"]
  | .processSignal => ["pid", "start_time", "signal"]
  | .diskCleanupExecute => ["targets"]
  | .logsRead => ["source", "lines"]
  | .containerAction => ["container", "action"]
  | .nginxConfigRead => ["name"]
  | .nginxConfigWrite => ["name", "content_b64", "checksum", "reload"]
  | .phpConfigRead => ["version", "pool"]
  | .phpConfigWrite => ["version", "pool", "content_b64", "checksum", "reload"]
  | .phpAction => ["version", "action"]
  | .pm2Logs => ["name", "lines"]
  | .pm2Action | .sslAction => ["name", "action"]
  | .cronCreate | .cronUpdate => ["job_b64", "revision"]
  | .cronDelete | .firewallDelete => ["id", "revision"]
  | .cronRun => ["id"]
  | .firewallAdd => ["rule_b64", "revision"]
  | .domainAction => ["config", "action"]
  | .databaseAction => ["engine", "action"]
  | .backupRun => ["plan"]
  | .filesBrowse | .filesRead => ["path"]
  | .filesWrite => ["path", "content_b64", "checksum"]
  | .deployAction => ["target", "action"]
  | .deployDomainInventory => ["target"]
  | .deployDomainHealth => ["target", "domain"]
  | .deployDomainAction =>
    if field payload "action" = ascii "ensure" then
      ["target", "domain", "action", "expected_revision"]
    else if field payload "action" = ascii "tls-enable" ∧ field payload "email" ≠ [] then
      ["target", "domain", "action", "email"]
    else ["target", "domain", "action"]
  | .agentUpdateAction =>
    if field payload "action" = ascii "upgrade" then ["action", "version"] else ["action"]
  | _ => []

def keys (payload : StrMap) : List Bytes := payload.entries.map Prod.fst

variable {env : Env} {kind : TaskKind} {payload : StrMap}

theorem mem_keys_of_field {key : String} (h : field payload key ≠ []) :
    ascii key ∈ keys payload := by
  by_contra hmem
  refine h ?_
  have hnone : payload.entries.lookup (ascii key) = none :=
    lookup_eq_none_iff.mpr fun e he => by
      simpa using fun heq => hmem (mem_map.mpr ⟨e, he, heq.symm⟩)
  rw [field, StrMap.get, StrMap.lookup, hnone]
  rfl

/-- No check but that of file content takes an empty text. -/
theorem checks_nil : ∀ check ∈ [validUnitName, validLogSource, validLineCount, validContainerName,
    validNginxConfigName, validSha256, validPhpVersion, validPhpPool, validPm2Name,
    validDiskCleanupTargets, validCronId, validFirewallId, validManagedAbsolutePath,
    validDeployDomainName, validReload, validContainerAction, validDeployAction,
    validDeployDomainAction, validPhpAction, validPm2Action, validDatabaseEngine,
    isOneOf ["test", "reload"], isOneOf ["enable", "disable"], isOneOf ["check", "renew"]],
    check [] = false := by
  decide

theorem checked_fields (hkind : isPanelTask kind = true)
    (h : checkTaskFields env kind payload = .ok ()) :
    payload.size = (documentedKeys kind payload).length ∧
      ∀ key ∈ documentedKeys kind payload, key ≠ "content_b64" → field payload key ≠ [] := by
  have hnil := checks_nil
  have hwords : ∀ word ∈ ["restart", "ensure", "absent", "upgrade", "rollback"],
      ascii word ≠ [] := by
    decide
  simp only [forall_mem_cons] at hnil hwords
  have hjob : ∀ requireId, validCronJobPayload [] requireId = false := fun _ => rfl
  have hrule : validFirewallRulePayload env [] = false := rfl
  cases kind with
  | profileApply | other => cases hkind
  | diskCleanupScan | containerList | nginxConfigList | phpInventory | pm2List | cronInventory
  | firewallInventory | domainInventory | sslInventory | databaseInventory | backupInventory
  | deployInventory | agentUpdateStatus | integrationStatus | metricsRead =>
    simp only [checkTaskFields, requireNoPayload] at h
    simpa [documentedKeys] using h
  | deployDomainAction =>
    simp only [checkTaskFields, checkDeployDomainAction, documentedKeys] at h ⊢
    split_ifs at h ⊢ with hensure hemail
    · simp only [bind_eq_ok, require_eq_ok, Bool.and_eq_true, decide_eq_true_eq, exists_const] at h
      grind
    · simp only [require_eq_ok, Bool.and_eq_true, decide_eq_true_eq] at h
      grind
    · simp only [require_eq_ok, Bool.and_eq_true, decide_eq_true_eq] at h
      grind
  | agentUpdateAction =>
    have hrelease : compareReleases [] [] ≠ .current := by decide
    simp only [checkTaskFields, checkAgentUpdateAction, documentedKeys] at h ⊢
    split_ifs at h ⊢ with hupgrade hrollback
    · simp only [require_eq_ok, Bool.and_eq_true, decide_eq_true_eq] at h
      grind
    · simp only [require_eq_ok, decide_eq_true_eq] at h
      grind
  | _ =>
    simp only [checkTaskFields, bind_eq_ok, require_eq_ok, Bool.and_eq_true, decide_eq_true_eq,
      and_assoc,
      exists_const, documentedKeys, ne_eq] at h ⊢
    grind

/-- An accepted payload has the documented keys exactly if file content, where it is one of them, is
given. -/
theorem payload_closed_iff {req : TaskRequest} (h : validateTaskRequest env req = .ok ()) :
    (keys req.payload).Perm ((documentedKeys req.kind req.payload).map ascii) ↔
      ("content_b64" ∈ documentedKeys req.kind req.payload →
        ascii "content_b64" ∈ keys req.payload) := by
  obtain ⟨hsize, hfields⟩ := checked_fields (validateTaskRequest_isPanelTask h)
    (validateTaskRequest_fields h)
  constructor
  · intro hperm hcontent
    exact hperm.mem_iff.mpr (mem_map_of_mem hcontent)
  · intro hcontent
    have hnodup : ((documentedKeys req.kind req.payload).map ascii).Nodup := by
      unfold documentedKeys
      split <;> (try split_ifs) <;> decide
    have hsubset : (documentedKeys req.kind req.payload).map ascii ⊆ keys req.payload := by
      intro key hkey
      obtain ⟨name, hname, rfl⟩ := mem_map.mp hkey
      by_cases hfile : name = "content_b64"
      · subst hfile
        exact hcontent hname
      · exact mem_keys_of_field (hfields name hname hfile)
    refine ((subperm_of_subset hnodup hsubset).perm_of_length_le ?_).symm
    rw [keys, length_map, length_map, ← hsize]
    rfl

/-- A `files.write` request with the fields that are checked and one more. -/
def writeWith (key value : String) : TaskRequest :=
  ⟨.filesWrite, .ofList [(ascii "path", ascii "/etc/motd"),
    (ascii "checksum", List.replicate 64 0x61),
    (ascii key, ascii value)]⟩

theorem files_write_closed :
    (keys (writeWith "content_b64" "").payload).Perm
    (["path", "content_b64", "checksum"].map ascii) := by
  have hvalid : validateTaskRequest .plain (writeWith "content_b64" "") = .ok () :=
    by decide +kernel
  refine (payload_closed_iff hvalid).mpr fun _ => ?_
  decide +kernel

/-- A file is emptied by a request that has no content and a foreign key. -/
theorem foreign_key_accepted : validateTaskRequest .plain (writeWith "mode" "0600") = .ok () ∧
    ¬ (keys (writeWith "mode" "0600").payload).Perm
      (["path", "content_b64", "checksum"].map ascii) := by
  decide +kernel

end HeyServer.Hub
