import Asmodeus.Runner.Host.Creation

open FileTree UnixPath
open asmodeus.dsl
open asmodeus.control_plane (EventKind RunnerEvent)

namespace asmodeus.runner

/-- The scenario that an action plays. A latency spike has no files. -/
def action_scenario : Action → String
  | .SyntheticCanaryEncrypt => "RANSOMWARE_CANARY_SPIKE"
  | action => injector_id action

/-- The files a report of a run stands for. -/
structure Stands (plan : ExecutionPlan) (files : Files) (report : Report) : Prop where
  accounts : Accounts (action_scenario plan.action) plan.file_count.toNat plan.chunk_size_kb.toNat files report
  latency : plan.action = .LatencySpike → files = []

/-- An injector of the plan, with its files and its report. -/
structure Plants (plan : ExecutionPlan) (dir : List Char) (injector : ScenarioInjector) (files : Files)
    (report : Report) :
    Prop where
  created : create_injector (.ok 0) (injector_id plan.action) dir plan.file_count.toNat plan.chunk_size_kb.toNat =
    .ok injector
  injects : Injects injector dir files report
  stands : Stands plan files report

/-- The first decoy files with the bytes of both passes over them. -/
def Encrypted (plan : ExecutionPlan) (i bytes : Nat) (s : Option (FsTree Component)) : Prop :=
  s = some (.dir (CanaryInjector.files plan.chunk_size_kb.toNat (List.range i)).entries) ∧
    bytes = 2 * (i * (plan.chunk_size_kb.toNat * 1024))

/-- No sandbox any more, or a directory with anything in it. -/
def Emptied (s : Option (FsTree Component)) : Prop := ∀ found, s = some found → found.node = .dir

/-- What is in the sandbox during a dwell. -/
def Dwelling (plan : ExecutionPlan) (dir : List Char) (s : Option (FsTree Component)) : Dwell → Prop
  | .latency => plan.action = .LatencySpike ∧ s = some (.dir [])
  | .canary report => plan.action = .SyntheticCanaryEncrypt ∧
      ∃ bytes, report = ⟨plan.file_count.toNat, bytes⟩ ∧ Encrypted plan plan.file_count.toNat bytes s
  | .injected report => ∃ injector files, Plants plan dir injector files report ∧ s = some (.dir files.entries)

/-- A report that the run may complete with. -/
def Stood (plan : ExecutionPlan) (result : Except InjectError Report) : Prop :=
  ∀ report, result = .ok report → ∃ files, Stands plan files report

/-- What is in the sandbox of a run, by the statement it comes to. -/
def Contents (plan : ExecutionPlan) (dir : List Char) (s : Option (FsTree Component)) : Pc → Prop
  | .starting | .creating | .rejecting _ => False
  | .arming | .injecting | .checking .entry => s = some (.dir [])
  | .session => plan.action = .LatencySpike ∧ s = some (.dir [])
  | .reverting _ => plan.action = .LatencySpike ∧ s = some (.dir [])
  | .making_injector | .injection =>
    plan.action ≠ .LatencySpike ∧ plan.action ≠ .SyntheticCanaryEncrypt ∧ s = some (.dir [])
  | .making_canary | .checking .canary_start | .making_dir => plan.action = .SyntheticCanaryEncrypt ∧ s = some (.dir [])
  | .checking (.canary_file i bytes) | .writing i bytes =>
    plan.action = .SyntheticCanaryEncrypt ∧ i < plan.file_count.toNat ∧ Encrypted plan i bytes s
  | .pausing i bytes _ | .checking (.canary_pause i bytes _) =>
    plan.action = .SyntheticCanaryEncrypt ∧ i < plan.file_count.toNat ∧ Encrypted plan (i + 1) bytes s
  | .waiting d _ | .checking (.dwell d _) | .checking (.dwell_end d) => Dwelling plan dir s d
  | .cleaning _ injected => ∃ injector files report, Plants plan dir injector files report ∧
      Litter (normals files.names) s ∧ ∀ made, injected = .ok made → made = report
  | .leaving result | .removing result | .settling result | .reporting result => Emptied s ∧ Stood plan result
  | .dropping _ | .returned _ => Emptied s

/-- A completed run has told the counts of its files. -/
def Told (plan : ExecutionPlan) (ev : RunnerEvent) : Prop :=
  ev.kind = EventKind.Completed.number → ∃ files report, Stands plan files report ∧
    ev.files_created = UInt32.ofNat report.files_created ∧ ev.bytes_written = UInt64.ofNat report.bytes_written

/-- What a run has made of its sandbox. -/
structure Own (w : Worker) (s : Option (FsTree Component)) : Prop where
  path : w.sandbox.path = sandbox_dir w.plan w.req
  present : w.dir = s.isSome
  contents : Contents w.plan w.sandbox.path s w.pc
  told : ∀ ev ∈ w.events, Told w.plan ev

section

variable {plan : ExecutionPlan} {dir : List Char} {files : Files} {s : Option (FsTree Component)} {w : Worker}
  {r : Reading}
  {o : Outcome}

theorem emptied_none : Emptied none := nofun

theorem emptied_dir (entries : Entries) : Emptied (some (.dir entries)) := by
  rintro found hfound
  obtain rfl := Option.some.inj hfound
  rfl

theorem emptied_of_residue {names : List Component} (h : Residue names s) : Emptied s := by
  obtain rfl | ⟨entries, rfl, -⟩ := h
  · exact emptied_none
  · exact emptied_dir entries

theorem Emptied.cases (h : Emptied s) : s = none ∨ ∃ entries, s = some (.dir entries) := by
  cases s with
  | none => exact Or.inl rfl
  | some found =>
    cases found with
    | dir entries => exact Or.inr ⟨entries, rfl⟩
    | file content => cases h _ rfl
    | symlink => cases h _ rfl

theorem stood_error (e : InjectError) : Stood plan (.error e) := nofun

theorem stood_ok {report : Report} (h : Stands plan files report) : Stood plan (.ok report) := by
  rintro made hmade
  obtain rfl := Except.ok.inj hmade
  exact ⟨files, h⟩

/-- A dwell stands for what is in the sandbox. -/
def Dwell.report : Dwell → Report
  | .latency => report0
  | .canary report => report
  | .injected report => report

theorem stands_latency (hlatency : plan.action = .LatencySpike) : Stands plan [] report0 := by
  have hscenario : action_scenario plan.action = "" := by rw [hlatency]; rfl
  refine ⟨?_, fun _ => rfl⟩
  rw [hscenario]
  exact accounts_of_size (by simp [scenario_files]) (by simp [counted_bytes]) List.nodup_nil

theorem stands_canary {bytes : Nat} (hcanary : plan.action = .SyntheticCanaryEncrypt)
    (h : Encrypted plan plan.file_count.toNat bytes s) :
    Stands plan (CanaryInjector.files plan.chunk_size_kb.toNat (List.range plan.file_count.toNat))
      ⟨plan.file_count.toNat, bytes⟩ := by
  obtain ⟨-, rfl⟩ := h
  have hscenario : action_scenario plan.action = "RANSOMWARE_CANARY_SPIKE" := by rw [hcanary]; rfl
  refine ⟨?_, fun hlatency => ?_⟩
  · rw [hscenario]
    exact canary_accounts _ _
  · rw [hcanary] at hlatency
    cases hlatency

/-- During a dwell the files are there that its report stands for. -/
theorem Dwelling.stands {d : Dwell} (h : Dwelling plan dir s d) :
    ∃ files : Files, s = some (.dir files.entries) ∧ Stands plan files d.report := by
  cases d with
  | latency =>
    obtain ⟨hlatency, hempty⟩ := h
    exact ⟨[], hempty, stands_latency hlatency⟩
  | canary report =>
    obtain ⟨hcanary, bytes, rfl, hencrypted⟩ := h
    exact ⟨_, hencrypted.1, stands_canary hcanary hencrypted⟩
  | injected report =>
    obtain ⟨injector, files, hplants, hfiles⟩ := h
    exact ⟨files, hfiles, hplants.stands⟩

/-- Every other action has an injector. -/
theorem plants_of_action (hlatency : plan.action ≠ .LatencySpike) (hcanary : plan.action ≠ .SyntheticCanaryEncrypt)
    (hdir : make_injector dir = .ok ()) : ∃ injector files report, Plants plan dir injector files report := by
  obtain ⟨injector, hcreated⟩ : ∃ injector, create_injector (.ok 0) (injector_id plan.action) dir plan.file_count.toNat
      plan.chunk_size_kb.toNat = .ok injector := by
    cases haction : plan.action with
    | LatencySpike => exact absurd haction hlatency
    | SyntheticCanaryEncrypt => exact absurd haction hcanary
    | _ =>
      simp only [create_injector, injector_id]
      simp [K8sEscapeInjector.new, C2BeaconInjector.new, CredentialAccessInjector.new, LogTamperInjector.new,
        PersistenceCronInjector.new, DataExfiltrationInjector.new, DefenseImpairmentInjector.new, hdir]
  obtain ⟨-, files, report, hinjects, haccounts⟩ := create_injector_injects hcreated
  have hscenario : action_scenario plan.action = injector_id plan.action := by
    cases haction : plan.action with
    | SyntheticCanaryEncrypt => exact absurd haction hcanary
    | _ => rfl
  exact ⟨injector, files, report, hcreated, hinjects, ⟨hscenario ▸ haccounts, fun h => absurd h hlatency⟩⟩

end

end asmodeus.runner
