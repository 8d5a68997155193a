import Asmodeus.Runner.Injectors.Effects

open FileTree UnixPath
open asmodeus.dsl

namespace asmodeus.runner

/-- The files of a scenario, each with its contents. `token` is that of the network session,
where one is started. -/
def scenario_files (token : Nat) (scenario_id : String) (file_count chunk_size_kb : Nat) : Files :=
  if scenario_id = "RANSOMWARE_CANARY_SPIKE" then CanaryInjector.files chunk_size_kb (List.range file_count)
  else if scenario_id = "K8S_ESCAPE_SIMULATION" then
    [("docker.sock.probe", K8sEscapeInjector.probe_socket), ("k8s_ns_escape.canary", K8sEscapeInjector.probe_ns)]
  else if scenario_id = "C2_BEACONING_SIMULATION" then
    [("c2_beacon_events.log",
      (List.range (C2BeaconInjector.beacon_count file_count)).flatMap C2BeaconInjector.entry)]
  else if scenario_id = "CREDENTIAL_ACCESS_CANARY" then
    [("honeytoken_credentials.json", CredentialAccessInjector.content)]
  else if scenario_id = "LOG_TAMPER_CANARY" then [("canary_audit.log", LogTamperInjector.tampered)]
  else if scenario_id = "PERSISTENCE_CRON_CANARY" then
    [("canary_cron_task.job", PersistenceCronInjector.cron_content)]
  else if scenario_id = "DATA_EXFILTRATION_CANARY" then
    [("staged_canary_data.tar.gz",
      DataExfiltrationInjector.content (DataExfiltrationInjector.chunk_kb chunk_size_kb))]
  else if scenario_id = "DEFENSE_IMPAIRMENT_CANARY" ∨ scenario_id = "AGENT_CRASH_ENDPOINT" then
    [("watchdog_recovery.pulse", DefenseImpairmentInjector.marker)]
  else if scenario_id = "LATENCY_SPIKE_VM" ∨ scenario_id = "DNS_RPZ_SINKHOLE_DROP" then
    [("netchaos_session.token", session_marker token)]
  else []

/-- The bytes a report counts. They are those on disk, with four exceptions: the canary counts
both passes over its files, the log its wiped version too and one byte that is nowhere, and a
network marker counts as 16 bytes whatever its token. -/
def counted_bytes (scenario_id : String) (files : Files) : Nat :=
  if scenario_id = "RANSOMWARE_CANARY_SPIKE" then 2 * files.size
  else if scenario_id = "LOG_TAMPER_CANARY" then LogTamperInjector.initial_content.length + files.size + 1
  else if scenario_id = "LATENCY_SPIKE_VM" ∨ scenario_id = "DNS_RPZ_SINKHOLE_DROP" then 16
  else files.size

/-- What a report says of the files that are there. -/
structure Accounts (scenario_id : String) (file_count chunk_size_kb : Nat) (files : Files) (report : Report) :
    Prop where
  distinct : files.names.Nodup
  planted : ∃ token, files = scenario_files token scenario_id file_count chunk_size_kb
  files_created : report.files_created = files.length
  bytes_written : report.bytes_written = counted_bytes scenario_id files

theorem canary_size (chunk_size_kb : Nat) (indices : List Nat) :
    (CanaryInjector.files chunk_size_kb indices).size = indices.length * (chunk_size_kb * 1024) := by
  have hsize : (CanaryInjector.encrypted chunk_size_kb).length = chunk_size_kb * 1024 := by
    rw [CanaryInjector.encrypted, List.length_map, CanaryInjector.chunk, List.length_replicate]
  induction indices with
  | nil => rw [List.length_nil, Nat.zero_mul]; rfl
  | cons i rest ih =>
    rw [List.length_cons, Nat.add_mul, Nat.one_mul, ← ih, ← hsize]
    exact Nat.add_comm _ _

theorem canary_accounts (file_count chunk_size_kb : Nat) :
    Accounts "RANSOMWARE_CANARY_SPIKE" file_count chunk_size_kb
      (CanaryInjector.files chunk_size_kb (List.range file_count))
      ⟨file_count, 2 * (file_count * (chunk_size_kb * 1024))⟩ where
  distinct := by
    rw [CanaryInjector.files_names]
    exact List.nodup_range.map fun _ _ h => CanaryInjector.file_name_injective h
  planted := ⟨0, (if_pos rfl).symm⟩
  files_created := by simp [CanaryInjector.files]
  bytes_written := by
    rw [counted_bytes, if_pos rfl, canary_size, List.length_range]

/-- The files of a scenario, with a report of all their bytes. -/
theorem accounts_of_size {scenario_id : String} {file_count chunk_size_kb : Nat} {files : Files}
    (hplanted : scenario_files 0 scenario_id file_count chunk_size_kb = files)
    (hcounted : counted_bytes scenario_id files = files.size) (hdistinct : files.names.Nodup) :
    Accounts scenario_id file_count chunk_size_kb files ⟨files.length, files.size⟩ :=
  ⟨hdistinct, ⟨0, hplanted.symm⟩, rfl, hcounted.symm⟩

theorem new_ok {dir : List Char} {made injector : ScenarioInjector}
    (h : (do make_injector dir; return made : Except InjectError ScenarioInjector) = .ok injector) :
    path_in_scope (String.ofList dir) = true ∧ injector = made := by
  obtain ⟨_, hscope, hmade⟩ := Fallible.bind_ok h
  unfold make_injector at hscope
  split at hscope
  · rename_i hin
    exact ⟨hin, (Except.ok.inj hmade).symm⟩
  · cases hscope

section

variable {scenario_id : String} {dir : List Char} {file_count chunk_size_kb : Nat} {injector : ScenarioInjector}

/-- An injector in scope, with the files it plants and what it reports of them. -/
def Reports (scenario_id : String) (dir : List Char) (file_count chunk_size_kb : Nat) (injector : ScenarioInjector) :
    Prop :=
  path_in_scope (String.ofList dir) = true ∧
    ∃ files report, Injects injector dir files report ∧ Accounts scenario_id file_count chunk_size_kb files report

theorem absolute_in_scope (hscope : path_in_scope (String.ofList dir) = true) : dir.head? = some separator := by
  obtain ⟨hhead, -⟩ := path_in_scope_components hscope
  rwa [String.toList_ofList] at hhead

/-- A scenario that counts what is on disk. -/
theorem reports_of_size {made : ScenarioInjector} {files : Files}
    (hmade : (do make_injector dir; return made : Except InjectError ScenarioInjector) = .ok injector)
    (hinjects : dir.head? = some separator → Injects made dir files ⟨files.length, files.size⟩)
    (hdistinct : files.names.Nodup) (hplanted : scenario_files 0 scenario_id file_count chunk_size_kb = files)
    (hcounted : counted_bytes scenario_id files = files.size) :
    Reports scenario_id dir file_count chunk_size_kb injector := by
  obtain ⟨hscope, rfl⟩ := new_ok hmade
  exact ⟨hscope, files, _, hinjects (absolute_in_scope hscope), accounts_of_size hplanted hcounted hdistinct⟩

/-- A scenario of the network, which leaves the marker of its session. -/
theorem reports_of_marker {spec : NetChaosSpec} {apply : Except NetChaosError Nat}
    (hmade : NetChaosInjector.new dir spec apply = .ok injector)
    (hplanted : ∀ token, scenario_files token scenario_id file_count chunk_size_kb =
      [("netchaos_session.token", session_marker token)])
    (hcounted : ∀ files, counted_bytes scenario_id files = 16) :
    Reports scenario_id dir file_count chunk_size_kb injector := by
  obtain ⟨hscope, rfl⟩ := new_ok hmade
  obtain ⟨token, hinjects⟩ := net_chaos_injects (absolute_in_scope hscope) spec apply
  exact ⟨hscope, _, _, hinjects, List.nodup_singleton _, ⟨token, (hplanted token).symm⟩, rfl, (hcounted _).symm⟩

/-- Every injector there is works in its directory alone, as it reports. -/
theorem create_injector_injects {apply : Except NetChaosError Nat}
    (h : create_injector apply scenario_id dir file_count chunk_size_kb = .ok injector) :
    Reports scenario_id dir file_count chunk_size_kb injector := by
  unfold create_injector at h
  by_cases hcanary : scenario_id = "RANSOMWARE_CANARY_SPIKE"
  · rw [if_pos hcanary] at h
    obtain ⟨hscope, rfl⟩ := new_ok h
    exact ⟨hscope, _, _, canary_injects (absolute_in_scope hscope) file_count chunk_size_kb,
      hcanary ▸ canary_accounts file_count chunk_size_kb⟩
  rw [if_neg hcanary] at h
  by_cases hk8s : scenario_id = "K8S_ESCAPE_SIMULATION"
  · rw [if_pos hk8s] at h
    subst hk8s
    exact reports_of_size h (fun ha => k8s_injects ha) (by simp [Files.names]) (by simp [scenario_files])
      (by simp [counted_bytes])
  rw [if_neg hk8s] at h
  by_cases hc2 : scenario_id = "C2_BEACONING_SIMULATION"
  · rw [if_pos hc2] at h
    subst hc2
    exact reports_of_size h (fun ha => c2_injects ha _) (List.nodup_singleton _) (by simp [scenario_files])
      (by simp [counted_bytes])
  rw [if_neg hc2] at h
  by_cases hcredential : scenario_id = "CREDENTIAL_ACCESS_CANARY"
  · rw [if_pos hcredential] at h
    subst hcredential
    exact reports_of_size h (fun ha => credential_injects ha) (List.nodup_singleton _) (by simp [scenario_files])
      (by simp [counted_bytes])
  rw [if_neg hcredential] at h
  by_cases hlog : scenario_id = "LOG_TAMPER_CANARY"
  · rw [if_pos hlog] at h
    subst hlog
    obtain ⟨hscope, rfl⟩ := new_ok h
    exact ⟨hscope, _, _, log_tamper_injects (absolute_in_scope hscope), List.nodup_singleton _,
      ⟨0, by simp [scenario_files]⟩, rfl,
      by simp [counted_bytes, Files.size]⟩
  rw [if_neg hlog] at h
  by_cases hcron : scenario_id = "PERSISTENCE_CRON_CANARY"
  · rw [if_pos hcron] at h
    subst hcron
    exact reports_of_size h (fun ha => cron_injects ha) (List.nodup_singleton _) (by simp [scenario_files])
      (by simp [counted_bytes])
  rw [if_neg hcron] at h
  by_cases hexfiltration : scenario_id = "DATA_EXFILTRATION_CANARY"
  · rw [if_pos hexfiltration] at h
    subst hexfiltration
    have hsize : DataExfiltrationInjector.chunk_kb chunk_size_kb * 1024 =
        (DataExfiltrationInjector.content (DataExfiltrationInjector.chunk_kb chunk_size_kb)).length := by
      rw [DataExfiltrationInjector.content, List.length_replicate]
    have hinjects (ha : dir.head? = some separator) :=
      exfiltration_injects ha (DataExfiltrationInjector.chunk_kb chunk_size_kb)
    rw [hsize] at hinjects
    exact reports_of_size h hinjects (List.nodup_singleton _) (by simp [scenario_files]) (by simp [counted_bytes])
  rw [if_neg hexfiltration] at h
  by_cases hdefense : scenario_id = "DEFENSE_IMPAIRMENT_CANARY"
  · rw [if_pos hdefense] at h
    subst hdefense
    exact reports_of_size h (fun ha => defense_injects ha) (List.nodup_singleton _) (by simp [scenario_files])
      (by simp [counted_bytes])
  rw [if_neg hdefense] at h
  by_cases hlatency : scenario_id = "LATENCY_SPIKE_VM"
  · rw [if_pos hlatency] at h
    subst hlatency
    exact reports_of_marker h (by simp [scenario_files]) (by simp [counted_bytes])
  rw [if_neg hlatency] at h
  by_cases hcrash : scenario_id = "AGENT_CRASH_ENDPOINT"
  · rw [if_pos hcrash] at h
    subst hcrash
    exact reports_of_size h (fun ha => defense_injects ha) (List.nodup_singleton _) (by simp [scenario_files])
      (by simp [counted_bytes])
  rw [if_neg hcrash] at h
  by_cases hdns : scenario_id = "DNS_RPZ_SINKHOLE_DROP"
  · rw [if_pos hdns] at h
    subst hdns
    exact reports_of_marker h (by simp [scenario_files]) (by simp [counted_bytes])
  · rw [if_neg hdns] at h
    cases h

end

section

variable {α : Type} {dir : List Char} {t : Option (FsTree Component)} {x : Io α}
  {Ok : α → Option (FsTree Component) → Prop} {Err : Option (FsTree Component) → Prop}

/-- File work in a directory alone, with all that surrounds it. -/
theorem Io.Meets.run {ι : Type} {fault : ι → Option (Fault Component)} {base : FsPath} (hreached : Reached base t)
    (h : x.Meets fault base Ok Err (get base t)) (follow : Option (FsTree Component) → FsPath → FsPath)
    (inputs : Nat → ι) :
    (∀ a, (x.run.run (fun i => Call.exec follow (fault i)) inputs t).1 = .ok a →
      Ok a (get base (x.run.run (fun i => Call.exec follow (fault i)) inputs t).2)) ∧
    (∀ e, (x.run.run (fun i => Call.exec follow (fault i)) inputs t).1 = .error e →
      Err (get base (x.run.run (fun i => Call.exec follow (fault i)) inputs t).2)) ∧
    Reached base (x.run.run (fun i => Call.exec follow (fault i)) inputs t).2 ∧
    ∀ q, ¬ base <+: q → node q (x.run.run (fun i => Call.exec follow (fault i)) inputs t).2 = node q t := by
  have hholds : x.run.Holds (fun i => Call.exec follow (fault i)) (Leaves base) (Grows base) _ t := wp_holds hreached h
  obtain ⟨⟨hafter, hpost⟩, hgrows⟩ := hholds.run (Leaves.refl base) (Grows.refl base) (fun _ _ _ => Grows.trans) inputs
  refine ⟨fun a ha => ?_, fun e he => ?_, hafter, fun q hq => ?_⟩
  · rw [ha] at hpost
    exact hpost
  · rw [he] at hpost
    exact hpost
  · obtain hsame | ⟨hnone, -, hprefix⟩ := hgrows.node q hq
    · exact hsame
    · have hdir := hreached.based q hprefix fun heq => hq (heq ▸ List.prefix_rfl)
      rw [hnone] at hdir
      cases hdir

/-- Whatever fails in an injection into an empty directory, it touches nothing else. When it
reports, its files are there as reported, and a cleanup that nothing hinders leaves neither a
file nor the directory. -/
theorem injection_leaves_nothing (follow : Option (FsTree Component) → FsPath → FsPath)
    {apply : Except NetChaosError Nat}
    {scenario_id : String} {file_count chunk_size_kb : Nat} {injector : ScenarioInjector}
    (h : create_injector apply scenario_id dir file_count chunk_size_kb = .ok injector)
    (hempty : get (components dir) t = some (.dir [])) (faults : Nat → Option (Fault Component)) :
    let injected := injector.inject.run.run (Call.exec follow) faults t
    let cleaned := injector.cleanup.run.run (Call.exec follow) (fun _ => none) injected.2
    (∀ report, injected.1 = .ok report → ∃ files : Files, get (components dir) injected.2 = some (.dir files.entries) ∧
      Accounts scenario_id file_count chunk_size_kb files report) ∧
    cleaned.1 = .ok () ∧ get (components dir) cleaned.2 = none ∧
    ∀ q, ¬ components dir <+: q → node q injected.2 = node q t ∧ node q cleaned.2 = node q t := by
  obtain ⟨-, files, report, hinjects, haccounts⟩ := create_injector_injects h
  have hreached : Reached (components dir) t := ⟨based_of_get hempty, hempty ▸ linkless_empty⟩
  have hinject := hinjects.inject fun f : Option (Fault Component) => f
  rw [← hempty] at hinject
  obtain ⟨hok, herror, hafter, hframe⟩ := hinject.run hreached follow faults
  have hresidue : Residue (normals files.names)
    (get (components dir) (injector.inject.run.run (Call.exec follow) faults t).2) := by
    cases hresult : (injector.inject.run.run (Call.exec follow) faults t).1 with
    | ok a =>
      obtain ⟨-, htree⟩ := hok a hresult
      exact Or.inr (htree ▸ litter_entries files)
    | error e => exact Or.inr (herror e hresult)
  have hnever : ¬ Faulty fun _ : Unit => (none : Option (Fault Component)) := by
    rintro ⟨_, hne⟩
    exact hne rfl
  obtain ⟨hclean, hfail, -, hkept⟩ := (hinjects.cleanup (fun _ : Unit => none) _ hresidue).run hafter follow fun _ => ()
  rw [Program.run_comp _ (fun _ : Unit => none)] at hclean hfail hkept
  intro injected cleaned
  have hcleaned : cleaned.1 = .ok () := by
    cases hresult : cleaned.1 with
    | ok _ => rfl
    | error e => exact absurd (hfail e hresult).1 hnever
  refine ⟨fun made hmade => ?_, hcleaned, ?_, fun q hq => ⟨hframe q hq, (hkept q hq).trans (hframe q hq)⟩⟩
  · obtain ⟨rfl, htree⟩ := hok made hmade
    exact ⟨files, htree, haccounts⟩
  · exact (hclean () hcleaned).resolve_right fun hresidue => hnever hresidue.1

end

/-- The sandbox of a run, just made. -/
def fresh_sandbox : Option (FsTree Component) :=
  some (.dir [(.rootDir, .dir [(.normal "tmp".toList, .dir [(.normal "asmodeus-canary".toList,
    .dir [(.normal "run_1".toList, .dir [])])])])])

theorem canary_leaves_nothing : ∃ injector,
    create_injector (.ok 0) "RANSOMWARE_CANARY_SPIKE" "/tmp/asmodeus-canary/run_1".toList 5 2 = .ok injector ∧
    get (components "/tmp/asmodeus-canary/run_1".toList)
      (injector.cleanup.run.run (Call.exec fun _ path => path) (fun _ => none)
      (injector.inject.run.run (Call.exec fun _ path => path) (fun _ => none) fresh_sandbox).2).2 = none := by
  refine ⟨_, rfl, ?_⟩
  have hempty : get (components "/tmp/asmodeus-canary/run_1".toList) fresh_sandbox = some (.dir []) := rfl
  have hcreated : create_injector (.ok 0) "RANSOMWARE_CANARY_SPIKE" "/tmp/asmodeus-canary/run_1".toList 5 2 =
      .ok ⟨CanaryInjector.inject "/tmp/asmodeus-canary/run_1".toList 5 2,
        CanaryInjector.cleanup "/tmp/asmodeus-canary/run_1".toList⟩ := rfl
  obtain ⟨-, -, hgone, -⟩ := injection_leaves_nothing (fun _ path => path) hcreated hempty fun _ => none
  exact hgone

end asmodeus.runner
