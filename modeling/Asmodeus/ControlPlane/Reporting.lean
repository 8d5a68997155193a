import Asmodeus.ControlPlane.Catalog.Loading
import Asmodeus.ControlPlane.Scheduler
import Asmodeus.Telemetry.Compliance
import Asmodeus.Telemetry.Reporting

open asmodeus.common asmodeus.dsl asmodeus.telemetry

namespace asmodeus.control_plane

/-- The projection of a catalog entry that compliance is judged on. -/
def scenario_meta (entry : CatalogEntry) : ScenarioMeta where
  id := entry.id
  name := entry.name
  category := entry.category.as_str
  mitre_technique := (entry.mitre.map Prod.fst).getD ""
  fidelity := entry.fidelity.as_str
  technique_refs := entry.technique_refs.map fun r => ⟨r.technique_id, r.fidelity.as_str⟩

/-- The report over the catalog's entries, in the order the map yields them. -/
def get_compliance_report (role : Role) (now : String) (entries : List CatalogEntry) (records : List AuditRecord) :
    Except String ComplianceReport :=
  if role.can .ViewReports then .ok (.generate now (entries.map scenario_meta) records)
  else .error "role may not view compliance reports"

/-- The resilience report over the audit trail. -/
def get_resilience_report (fixed : Float32 → String) (role : Role) (now : String) (records : List AuditRecord) :
    Except String EcosystemResilienceReport :=
  if role.can .ViewReports then .ok (.build fixed now records (.from_records records))
  else .error "role may not view resilience reports"

/-- A manifest that earns its technique a behavioral claim. -/
structure EarnsPrevention (manifest : ScenarioManifest) : Prop where
  api_version : manifest.api_version = API_VERSION_V1ALPHA2
  action_type : manifest.spec.action.action_type = "synthetic_canary_encrypt"
  fidelity : ∃ declared, manifest.metadata.fidelity = some declared ∧ Fidelity.parse declared = some .Behavioral
  technique : manifest.Names "T1486"

theorem fidelity_behavioral_text {fidelity : Fidelity} (h : fidelity.as_str = "behavioral") :
    fidelity = .Behavioral := by
  cases fidelity with
  | Behavioral => rfl
  | Unspecified => exact absurd h (by decide)
  | MarkerOnly => exact absurd h (by decide)

/-- Controls spell the one technique the canary encryptor performs in one way. -/
theorem control_technique_spelling : ∀ d ∈ controls_defs, "" ∉ d.techniques ∧
    ∀ t ∈ d.techniques, Text.eqIgnoreAsciiCase t "T1486" = true → t = "T1486" := by
  decide

/-- Of the built-in scenarios, only the ransomware canary is behavioral for a control. -/
theorem builtin_behavioral : ∀ b ∈ builtins, ∀ d ∈ controls_defs,
    (scenario_meta (b.entry [] [])).is_behavioral_for_any d.techniques = true →
      b.id = "RANSOMWARE_CANARY_SPIKE" ∧ "T1486" ∈ d.techniques := by
  decide +kernel

theorem external_behavioral {content : String} {manifest : ScenarioManifest} {plan : ExecutionPlan}
    {signature : List UInt8} {d : ControlDef} (hd : d ∈ controls_defs) (haccepted : Accepted manifest)
    (hbehavioral : (scenario_meta (external_entry content manifest plan signature)).is_behavioral_for_any
      d.techniques = true) : EarnsPrevention manifest ∧ "T1486" ∈ d.techniques := by
  obtain ⟨hblank, hspelling⟩ := control_technique_spelling d hd
  have hrefs : (scenario_meta (external_entry content manifest plan signature)).technique_refs =
      manifest.resolved_technique_refs.map fun r => ⟨r.technique_id, r.fidelity.as_str⟩ := rfl
  unfold ScenarioMeta.is_behavioral_for_any at hbehavioral
  split at hbehavioral
  · obtain ⟨shown, hshown, hmatch⟩ := List.any_eq_true.mp hbehavioral
    rw [hrefs] at hshown
    obtain ⟨r, hr, rfl⟩ := List.mem_map.mp hshown
    obtain ⟨hfidelity, htechnique⟩ := Bool.and_eq_true_iff.mp hmatch
    obtain ⟨hdeclares, haction, hcase, hnames⟩ :=
      ScenarioManifest.resolved_behavioral hr (fidelity_behavioral_text (of_decide_eq_true hfidelity))
    have hmem : r.technique_id ∈ d.techniques := List.contains_iff_mem.mp htechnique
    have hid : r.technique_id = "T1486" := hspelling r.technique_id hmem hcase
    have hversion : manifest.api_version = API_VERSION_V1ALPHA1 ∨ manifest.api_version = API_VERSION_V1ALPHA2 := by
      simpa [SUPPORTED_API_VERSIONS] using haccepted.api_version
    exact ⟨⟨hversion.resolve_left hdeclares.current, haction, hdeclares.fidelity, hid ▸ hnames⟩, hid ▸ hmem⟩
  · -- Without references the primary technique is judged, and there is none.
    rename_i hempty
    have hnil : manifest.resolved_technique_refs = [] := by
      rw [hrefs] at hempty
      simpa using hempty
    have hprimary : manifest.primary_technique = none := by
      unfold ScenarioManifest.resolved_technique_refs at hnil
      dsimp only at hnil
      unfold ScenarioManifest.primary_technique
      split at hnil
      · rename_i refs hsome
        obtain rfl := List.map_eq_nil_iff.mp hnil
        rw [hsome, haccepted.no_technique hsome]
        rfl
      · rename_i hnone
        split at hnil
        · cases hnil
        · rename_i htechnique
          rw [hnone, htechnique]
          rfl
    have hmitre : (scenario_meta (external_entry content manifest plan signature)).mitre_technique = "" := by
      change ((recorded_technique manifest.primary_technique).map Prod.fst).getD "" = ""
      rw [hprimary]
      rfl
    rw [hmitre] at hbehavioral
    exact absurd (List.contains_iff_mem.mp (Bool.and_eq_true_iff.mp hbehavioral).2) hblank

section

variable {sign : List UInt8 → List UInt8 → Except String (List UInt8)}
variable {is_valid : List UInt8 → List UInt8 → List UInt8 → Bool}
variable {to_vec : ScenarioManifest → List UInt8} {serde : Serde}

/-- Prevention coverage is not self-declared. A scenario a report lists as behavioral
is the built-in ransomware canary, or its manifest has earned it, and the control is
about the one technique that the canary encryptor performs. -/
theorem prevention_earned {catalog : Catalog} (hbuilt : catalog.Built sign is_valid to_vec serde)
    {entries : List CatalogEntry} (horder : entries.Perm catalog.entries) {role : Role} {now : String}
    {records : List AuditRecord} {report : ComplianceReport}
    (hreport : get_compliance_report role now entries records = .ok report) :
    ∀ control ∈ report.controls,
      (control.prevention_eligible = true ↔ control.behavioral_scenarios ≠ []) ∧
      ∀ id ∈ control.behavioral_scenarios, "T1486" ∈ control.mapped_techniques ∧
        ∃ entry, catalog.get id = some entry ∧
          ((∃ b ∈ builtins, b.id = "RANSOMWARE_CANARY_SPIKE" ∧
              ∃ signature, entry = b.entry (to_vec b.manifest) signature) ∨
            ∃ content manifest plan signature, parse_and_validate_manifest serde content = .ok manifest ∧
              entry = external_entry content manifest plan signature ∧ EarnsPrevention manifest) := by
  intro control hcontrol
  unfold get_compliance_report at hreport
  split at hreport
  · obtain rfl := Except.ok.inj hreport
    obtain ⟨d, hd, rfl⟩ := List.mem_map.mp hcontrol
    refine ⟨?_, fun id hid => ?_⟩
    · change (!List.isEmpty _) = true ↔ List.map _ _ ≠ []
      rw [Bool.not_eq_true', List.isEmpty_eq_false_iff, ne_eq, ne_eq, List.map_eq_nil_iff]
    · obtain ⟨scenario, hscenario, rfl⟩ := List.mem_map.mp hid
      obtain ⟨hmatched, hbehavioral⟩ := List.mem_filter.mp hscenario
      obtain ⟨entry, hentry, rfl⟩ := List.mem_map.mp (List.mem_filter.mp hmatched).1
      have hmem := horder.mem_iff.mp hentry
      have hget : catalog.get entry.id = some entry := hbuilt.get_of_mem hmem
      cases hbuilt.sourced entry hmem with
      | builtin b signature hb heq =>
        subst heq
        obtain ⟨hransomware, htechnique⟩ := builtin_behavioral b hb d hd hbehavioral
        exact ⟨htechnique, _, hget, .inl ⟨b, hb, hransomware, signature, rfl⟩⟩
      | external content manifest plan signature hmanifest hplan heq =>
        subst heq
        obtain ⟨-, haccepted⟩ := parse_and_validate_manifest_ok hmanifest
        obtain ⟨hearns, htechnique⟩ := external_behavioral hd haccepted hbehavioral
        exact ⟨htechnique, _, hget, .inr ⟨content, manifest, plan, signature, hmanifest, rfl, hearns⟩⟩
  · cases hreport

end

/-- Two resilience reports with the same defence metrics. -/
structure SameDefence (report report' : EcosystemResilienceReport) : Prop where
  confirmed_feedback_runs : report.confirmed_feedback_runs = report'.confirmed_feedback_runs
  detected_runs : report.detected_runs = report'.detected_runs
  contained_runs : report.contained_runs = report'.contained_runs
  resilience_score : report.resilience_score = report'.resilience_score
  detection_rate_pct : report.detection_rate_pct = report'.detection_rate_pct
  mean_mttd_ms : report.mean_mttd_ms = report'.mean_mttd_ms
  mean_mttr_ms : report.mean_mttr_ms = report'.mean_mttr_ms
  target_mttr_ms : report.target_mttr_ms = report'.target_mttr_ms
  mttr_sla_status : report.mttr_sla_status = report'.mttr_sla_status
  nist_functions : report.nist_functions = report'.nist_functions
  tactics_breakdown : report.tactics_breakdown = report'.tactics_breakdown
  recommendations : report.recommendations = report'.recommendations

/-- Metrics are functions of the confirmed counters and of the confirmed records. -/
theorem sameDefence_of_confirmed (fixed : Float32 → String) (now : String) {records records' : List AuditRecord}
    (hsame : records.filter AuditRecord.has_confirmed_feedback = records'.filter AuditRecord.has_confirmed_feedback) :
    SameDefence (.build fixed now records (.from_records records))
      (.build fixed now records' (.from_records records')) := by
  have hmetric {α : Type} (metric : Aggregate → α) (hreads : ∀ a, metric (Aggregate.defence a) = metric a) :
      metric (.from_records records) = metric (.from_records records') :=
    Aggregate.eq_of_defence metric hreads (Aggregate.defence_of_confirmed hsame)
  have hgather : gather records = gather records' := by
    rw [← gather_confirmed records, hsame, gather_confirmed records']
  exact {
    confirmed_feedback_runs := hmetric Aggregate.feedback_received fun _ => rfl
    detected_runs := hmetric Aggregate.detected fun _ => rfl
    contained_runs := hmetric Aggregate.contained fun _ => rfl
    resilience_score := hmetric (fun a => telemetry.resilience_score a.detection_rate_pct a.recovery_speed_pct)
      fun _ => rfl
    detection_rate_pct := hmetric Aggregate.detection_rate_pct fun _ => rfl
    mean_mttd_ms := hmetric Aggregate.mean_mttd_ms fun _ => rfl
    mean_mttr_ms := hmetric Aggregate.mean_mttr_ms fun _ => rfl
    target_mttr_ms := rfl
    mttr_sla_status := hmetric telemetry.mttr_sla_status fun _ => rfl
    nist_functions := by
      change telemetry.nist_functions fixed (gather records) _ = telemetry.nist_functions fixed (gather records') _
      rw [hgather]
      exact hmetric (telemetry.nist_functions fixed (gather records')) fun _ => rfl
    tactics_breakdown := congrArg (fun e : Evidence => telemetry.tactics_breakdown e.tactics) hgather
    recommendations := hmetric telemetry.recommendations fun _ => rfl }

/-- Records without confirmed feedback move no defence metric, no compliance control
and no schedule. -/
theorem unconfirmed_inert {F : Type} (fixed : Float32 → String) (drift : DriftArithmetic F) :
    (∀ (records records' : List AuditRecord), records.filter AuditRecord.has_confirmed_feedback =
        records'.filter AuditRecord.has_confirmed_feedback →
      ((Aggregate.from_records records).recovery_speed_pct = (Aggregate.from_records records').recovery_speed_pct ∧
        ∀ now, SameDefence (.build fixed now records (.from_records records))
          (.build fixed now records' (.from_records records'))) ∧
      ∀ now scenarios, ComplianceReport.generate now scenarios records =
        ComplianceReport.generate now scenarios records') ∧
    ∀ (catalog : ScheduleCatalog F) (record : AuditRecord), record.has_confirmed_feedback = false →
      catalog.record_feedback drift record = catalog := by
  refine ⟨fun records records' hsame => ⟨⟨?_, fun now => sameDefence_of_confirmed fixed now hsame⟩,
    fun now scenarios => ?_⟩, fun catalog record hunconfirmed => ?_⟩
  · exact Aggregate.eq_of_defence Aggregate.recovery_speed_pct (fun _ => rfl) (Aggregate.defence_of_confirmed hsame)
  · rw [← ComplianceReport.generate_confirmed now scenarios records, hsame, ComplianceReport.generate_confirmed]
  · rw [ScheduleCatalog.record_feedback, hunconfirmed, Bool.not_false, Bool.or_true, if_pos rfl]

/-- A run with measurements, before or after they are confirmed. -/
def measured_record (run_id : String) (mttd_ms : UInt64) (confirmed : Bool) : AuditRecord :=
  { runner_record run_id "COMPLETED" with
    measurements := ⟨mttd_ms, 900, true⟩
    cleanup_status := "COMPLETED"
    evidence := some ⟨"runner", confirmed, confirmed, true, none⟩ }

/-- Between two confirmed runs, one whose measurements are not confirmed moves nothing. -/
theorem pending_run_inert :
    SameDefence (.build (fun _ => "") "2026-09-24T00:00:00Z"
        [measured_record "run-1" 120 true, measured_record "run-2" 5 false, measured_record "run-3" 480 true]
        (.from_records
          [measured_record "run-1" 120 true, measured_record "run-2" 5 false, measured_record "run-3" 480 true]))
      (.build (fun _ => "") "2026-09-24T00:00:00Z"
        [measured_record "run-1" 120 true, measured_record "run-3" 480 true]
        (.from_records [measured_record "run-1" 120 true, measured_record "run-3" 480 true])) ∧
    (ScheduleCatalog.seeded (F := Nat)).record_feedback ⟨fun mttd base => mttd.toNat / base.toNat, fun r => 2 ≤ r, 1⟩
      (measured_record "run-2" 5 false) = .seeded := by
  obtain ⟨hreports, hschedules⟩ := unconfirmed_inert (fun _ => "")
    (⟨fun mttd base => mttd.toNat / base.toNat, fun r => 2 ≤ r, 1⟩ : DriftArithmetic Nat)
  have hsame : [measured_record "run-1" 120 true, measured_record "run-2" 5 false,
        measured_record "run-3" 480 true].filter AuditRecord.has_confirmed_feedback =
      [measured_record "run-1" 120 true, measured_record "run-3" 480 true].filter
        AuditRecord.has_confirmed_feedback := by
    decide
  exact ⟨(hreports _ _ hsame).1.2 _, hschedules .seeded _ rfl⟩

/-- An encryptor that declares its technique behavioral, with everything else left to its
default. -/
def encrypt_manifest (id : String) : ScenarioManifest where
  api_version := API_VERSION_V1ALPHA2
  metadata := ⟨"ENCRYPT_PROBE", "Encrypt", .RedTeam, some id, some "behavioral", none, "medium", none⟩
  spec := ⟨none, .default, ⟨.Synthetic, "synthetic_canary_encrypt", []⟩, ⟨"", none⟩⟩

def encrypt_plan : ExecutionPlan where
  action := .SyntheticCanaryEncrypt
  target_dir := "/tmp/asmodeus-canary"
  file_count := 20
  chunk_size_kb := 64
  io_rate_per_sec := 0
  duration_ms := 0
  max_duration_sec := 60
  cpu_limit_percent := 25
  target_cidr := "127.0.0.1/32"
  iface := "lo"
  latency_ms := 100
  jitter_ms := 0
  loss_percent := 0

def encrypt_text (id : String) : String :=
  "\x7b\"apiVersion\":\"asmodeus.io/v1alpha2\",\"kind\":\"AttackScenario\",\"metadata\":" ++
    ("\x7b\"id\":\"ENCRYPT_PROBE\",\"name\":\"Encrypt\",\"category\":\"red_team\"," ++
      "\"fidelity\":\"behavioral\",\"mitre_technique\":\"" ++ id) ++
    "\"\x7d,\"spec\":\x7b\"safety\":\x7b\x7d,\"action\":" ++
    "\x7b\"nature\":\"synthetic\",\"type\":\"synthetic_canary_encrypt\"\x7d\x7d\x7d"

/-- Two spellings of one technique. -/
def probed_spellings : List String := ["T1486", "t1486"]

def encrypt_serde : Serde :=
  ⟨read_known encrypt_text encrypt_manifest probed_spellings, fun _ => .error "expected value", fun _ => none⟩

theorem encrypt_from_str (text : List Char) :
    encrypt_serde.from_str text = read_known encrypt_text encrypt_manifest probed_spellings text := by
  rw [encrypt_serde]

theorem encrypt_text_inj {id id' : String} (h : (encrypt_text id).toList = (encrypt_text id').toList) : id = id' := by
  unfold encrypt_text at h
  simp only [String.toList_append, List.append_cancel_left_eq, List.append_cancel_right_eq] at h
  exact String.toList_inj.mp h

theorem encrypt_text_ends (id : String) : (encrypt_text id).toList.head? = some '\x7b' ∧
    (encrypt_text id).toList.getLast? = some '\x7d' := by
  have hopen : "\x7b\"apiVersion\":\"asmodeus.io/v1alpha2\",\"kind\":\"AttackScenario\",\"metadata\":".toList.head? =
      some '\x7b' := by
    decide +kernel
  have hclose : "\x7b\"nature\":\"synthetic\",\"type\":\"synthetic_canary_encrypt\"\x7d\x7d\x7d".toList.getLast? =
      some '\x7d' := by
    decide +kernel
  exact Text.ends_append hopen hclose

theorem encrypt_facts : ∀ id ∈ probed_spellings, validate_manifest (encrypt_manifest id) = .ok () ∧
    ExecutionPlan.from_manifest (encrypt_manifest id) = .ok encrypt_plan := by
  decide +kernel

def encrypt_entry (id : String) : CatalogEntry :=
  external_entry (encrypt_text id) (encrypt_manifest id) encrypt_plan runner.default_signature

/-- The seeded catalog and one encryptor from a directory. -/
def encrypt_catalog (id : String) : Catalog :=
  (latency_seeded.load_from_dir latency_sign encrypt_serde (.of_files [⟨true, some "json", some (encrypt_text id)⟩])).1

theorem encrypt_id_fresh : ∀ b ∈ builtins, b.id ≠ "ENCRYPT_PROBE" := by
  decide

theorem encrypt_entries {id : String} (hid : id ∈ probed_spellings) :
    (encrypt_catalog id).entries = latency_seeded.entries ++ [encrypt_entry id] := by
  have hread : encrypt_serde.from_str (encrypt_text id).toList = .ok (encrypt_manifest id) :=
    (encrypt_from_str _).trans (read_known_ok (fun _ _ => encrypt_text_inj) (by decide) hid)
  obtain ⟨hopen, hclose⟩ := encrypt_text_ends id
  obtain ⟨hvalid, hplan⟩ := encrypt_facts id hid
  have hitem : latency_seeded.loaded latency_sign encrypt_serde ⟨true, some "json", some (encrypt_text id)⟩ =
      some (encrypt_entry id) :=
    Except.ok.inj ((Catalog.read_item_eq _ _ _ _).symm.trans
      (Catalog.read_json_item latency_seeded (parsed_json hopen hclose hread hvalid) hplan))
  rw [encrypt_catalog, Directory.of_files, Catalog.load_from_dir, Catalog.load_items_files,
    List.filterMap_cons_some hitem, List.filterMap_nil, List.foldl_cons, List.foldl_nil]
  have hfresh : KeyedList.find (fun e : CatalogEntry => e.id) (encrypt_entry id).id latency_seeded.entries = none := by
    refine KeyedList.find_eq_none.mpr fun e he => ?_
    obtain ⟨b, hb, rfl⟩ := List.mem_map.mp he
    exact encrypt_id_fresh b hb
  exact KeyedList.upsert_of_find_none hfresh

theorem encrypt_built (id : String) :
    (encrypt_catalog id).Built latency_sign (fun _ _ _ => true) builtin_vec encrypt_serde :=
  Catalog.from_env_built (.seeded runner.default_key []) (Catalog.from_env_files latency_seeded (fun key => .ok key) _)

/-- A run of the encryptor. -/
def encrypt_record : AuditRecord := { runner_record "run-1" "COMPLETED" with scenario_id := "ENCRYPT_PROBE" }

/-- A manifest from a directory that has earned its place in a report. -/
theorem encryptor_earned : ∃ content manifest plan signature,
    parse_and_validate_manifest encrypt_serde content = .ok manifest ∧
      (encrypt_catalog "T1486").get "ENCRYPT_PROBE" = some (external_entry content manifest plan signature) ∧
        EarnsPrevention manifest := by
  have hreport : get_compliance_report .Ciso "2026-09-24T00:00:00Z" (encrypt_catalog "T1486").entries [encrypt_record] =
      .ok (.generate "2026-09-24T00:00:00Z" ((encrypt_catalog "T1486").entries.map scenario_meta)
        [encrypt_record]) := rfl
  have hlisted : ∃ control ∈ (ComplianceReport.generate "2026-09-24T00:00:00Z"
      ((encrypt_catalog "T1486").entries.map scenario_meta) [encrypt_record]).controls,
      "ENCRYPT_PROBE" ∈ control.behavioral_scenarios := by
    rw [encrypt_entries List.mem_cons_self]
    exact ⟨_, List.mem_cons_of_mem _ List.mem_cons_self, by decide +kernel⟩
  obtain ⟨control, hcontrol, hid⟩ := hlisted
  obtain ⟨-, hearned⟩ := prevention_earned (encrypt_built "T1486") (.refl _) hreport control hcontrol
  obtain ⟨-, entry, hget, ⟨b, hb, -, signature, rfl⟩ | ⟨content, manifest, plan, signature, hmanifest, rfl, hearns⟩⟩ :=
    hearned _ hid
  · exact absurd (KeyedList.find_some hget).2 (encrypt_id_fresh b hb)
  · exact ⟨content, manifest, plan, signature, hmanifest, hget, hearns⟩

end asmodeus.control_plane
