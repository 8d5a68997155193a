import Asmodeus.Dsl.Validation

open asmodeus.dsl UnixPath

namespace asmodeus.runner

/-- A directory owned by one run. -/
structure Sandbox where
  path : List Char
  deriving DecidableEq

/-- A character of a run id. -/
def run_id_char (c : Char) : Bool := c.isAlphanum || decide (c = '_') || decide (c = '-')

/-- Create the directory of a run. The file system decides whether its parents are
real directories and whether it is new. -/
def Sandbox.create (target run_id : String) (file_system : List Char → Except String Unit) :
    Except String Sandbox :=
  if !path_in_scope target || decide (run_id = "") || decide (96 < run_id.utf8ByteSize) ||
      !run_id.toList.all run_id_char then
    .error "invalid sandbox target or run ID"
  else
    let path := join target.toList run_id.toList
    match file_system path with
    | .error e => .error e
    | .ok () => .ok ⟨path⟩

theorem run_id_name {run_id : String} (hne : run_id ≠ "") (hchars : run_id.toList.all run_id_char = true) :
    IsName run_id.toList := by
  have hall := List.all_eq_true.mp hchars
  refine ⟨fun hnil => hne (String.toList_eq_nil_iff.mp hnil), fun hcur => ?_, fun hparent => ?_, fun hmem => ?_⟩
  · have hdot := hall '.' (hcur ▸ List.mem_cons_self)
    exact absurd hdot (by decide)
  · have hdot := hall '.' (hparent ▸ List.mem_cons_self)
    exact absurd hdot (by decide)
  · exact absurd (hall _ hmem) (by decide)

/-- A created sandbox is one name below a target in scope. -/
theorem Sandbox.create_ok {target run_id : String} {file_system : List Char → Except String Unit}
    {sandbox : Sandbox} (h : Sandbox.create target run_id file_system = .ok sandbox) :
    path_in_scope target = true ∧ IsName run_id.toList ∧ sandbox.path = join target.toList run_id.toList := by
  unfold Sandbox.create at h
  split at h
  · cases h
  · rename_i haccept
    simp only [Bool.or_eq_true, Bool.not_eq_true', decide_eq_true_eq, not_or, Bool.not_eq_false] at haccept
    obtain ⟨⟨⟨hscope, hne⟩, -⟩, hchars⟩ := haccept
    dsimp only at h
    split at h
    · cases h
    · obtain rfl := Except.ok.inj h
      exact ⟨hscope, run_id_name hne hchars, rfl⟩

/-- INV-0 over the whole gate. Every accepted manifest compiles to a plan whose
directory, addresses and budgets are confined, and so is the sandbox of every run. -/
theorem accepted_plan_bounded (serde : Serde) {raw : String} {manifest : ScenarioManifest}
    (hgate : parse_and_validate_manifest serde raw = .ok manifest) :
    ∃ plan, ExecutionPlan.from_manifest manifest = .ok plan ∧
      Confined plan.target_dir.toList ∧
      (∀ scope, manifest.spec.safety.canary_directory_only = some scope →
        Within scope.toList plan.target_dir.toList) ∧
      (∃ net len, parse_ipv4_cidr plan.target_cidr = some (net, len) ∧
        ∃ block ∈ NET_TEST_BLOCKS, ∀ address, InBlock (net, len) address → InBlock block address) ∧
      plan.file_count.toNat * plan.chunk_size_kb.toNat ≤ 20480 ∧
      (1 ≤ plan.max_duration_sec.toNat ∧ plan.max_duration_sec.toNat ≤ 300) ∧
      (1 ≤ plan.cpu_limit_percent.toNat ∧ plan.cpu_limit_percent.toNat ≤ 85) ∧
      plan.duration_ms.toNat ≤ 1000 * plan.max_duration_sec.toNat ∧
      plan.loss_percent.toNat ≤ 50 ∧
      ∀ run_id file_system sandbox, Sandbox.create plan.target_dir run_id file_system = .ok sandbox →
        (∃ root ∈ CANARY_ROOTS, StrictlyWithin root.toList sandbox.path) ∧
        (∀ scope, manifest.spec.safety.canary_directory_only = some scope →
          StrictlyWithin scope.toList sandbox.path) := by
  obtain ⟨-, haccepted⟩ := parse_and_validate_manifest_ok hgate
  obtain ⟨plan, hplan⟩ := haccepted.plan
  have hcompiled := ExecutionPlan.from_manifest_spec hplan
  have htarget : path_in_scope plan.target_dir = true := accepted_target_in_scope haccepted hcompiled
  have hconfined := path_in_scope_confined htarget
  have hscope : ∀ scope, manifest.spec.safety.canary_directory_only = some scope →
      Within scope.toList plan.target_dir.toList := by
    intro scope hsome
    obtain ⟨-, -, hresolve, -⟩ := path_in_scope_components htarget
    obtain ⟨-, -, hscoperesolve, -⟩ := path_in_scope_components (haccepted.canary_directory_only scope hsome)
    rw [Within, hresolve, hscoperesolve]
    exact hcompiled.scope scope hsome
  obtain ⟨net, len, hparse, -, hblock⟩ := net_target_in_scope_spec (accepted_cidr_in_scope haccepted hcompiled)
  refine ⟨plan, hplan, hconfined, hscope, ⟨net, len, hparse, hblock⟩, hcompiled.data,
    ⟨hcompiled.max_duration_sec.2, ?_⟩, ⟨hcompiled.cpu_limit_percent.2, ?_⟩, hcompiled.duration_ms.2,
    hcompiled.loss_percent, fun run_id file_system sandbox hcreate => ?_⟩
  · rw [hcompiled.max_duration_sec.1]
    exact haccepted.max_duration_sec
  · rw [hcompiled.cpu_limit_percent.1]
    exact haccepted.cpu_limit_percent
  · obtain ⟨-, hname, hpath⟩ := Sandbox.create_ok hcreate
    have hchild := hpath ▸ resolve_join htarget hname
    obtain ⟨root, hroot, hwithin⟩ := hconfined
    exact ⟨⟨root, hroot, hwithin.strictly hchild⟩, fun scope hsome => (hscope scope hsome).strictly hchild⟩

/-- A manifest that leaves the directory, the address block and all budgets to their
defaults. -/
def default_manifest : ScenarioManifest where
  api_version := API_VERSION_V1ALPHA1
  metadata := ⟨"SCN-RT-001", "Canary", .RedTeam, none, none, none, "medium", none⟩
  spec := ⟨none, .default, ⟨.Synthetic, "synthetic_canary_encrypt", []⟩, ⟨"", none⟩⟩

def default_manifest_text : String :=
  "\x7b\"apiVersion\":\"asmodeus.io/v1alpha1\",\"kind\":\"AttackScenario\",\"metadata\":" ++
    "\x7b\"id\":\"SCN-RT-001\",\"name\":\"Canary\",\"category\":\"red_team\"\x7d,\"spec\":" ++
    "\x7b\"safety\":\x7b\x7d,\"action\":" ++
    "\x7b\"nature\":\"synthetic\",\"type\":\"synthetic_canary_encrypt\"\x7d\x7d\x7d"

/-- Deserializers that know the one text. -/
def default_manifest_serde : Serde where
  from_str text := if text = default_manifest_text.toList then .ok default_manifest else .error "expected value"
  from_value _ := .error "expected value"
  parse_f64 _ := none

theorem default_manifest_valid : validate_manifest default_manifest = .ok () := by
  decide +kernel

theorem default_manifest_accepted :
    parse_and_validate_manifest default_manifest_serde default_manifest_text = .ok default_manifest := by
  have hopen : "\x7b\"apiVersion\":\"asmodeus.io/v1alpha1\",\"kind\":\"AttackScenario\",\"metadata\":".toList.head? =
      some '\x7b' := by
    decide +kernel
  have hclose : "\x7b\"nature\":\"synthetic\",\"type\":\"synthetic_canary_encrypt\"\x7d\x7d\x7d".toList.getLast? =
      some '\x7d' := by
    decide +kernel
  obtain ⟨hfirst, hlast⟩ := Text.ends_append hopen hclose
  refine parsed_json hfirst hlast ?_ default_manifest_valid
  simp only [default_manifest_serde, if_true]

/-- A manifest that asks for a narrower directory, sets its budgets and gives its parameters. -/
def scoped_manifest : ScenarioManifest where
  api_version := API_VERSION_V1ALPHA1
  metadata := ⟨"SCN-RT-002", "Scoped canary", .RedTeam, none, none, none, "medium", none⟩
  spec := ⟨some ⟨none, some "/tmp/asmodeus-canary/team/blue", none⟩, ⟨120, 50, some "/tmp/asmodeus-canary/team", true⟩,
    ⟨.Synthetic, "synthetic_canary_encrypt",
      [("file_count", .Number (.PosInt 10)), ("chunk_size_kb", .Number (.PosInt 32)),
      ("io_rate_per_sec", .Number (.PosInt 200)), ("duration_ms", .Number (.PosInt 5000))]⟩, ⟨"", none⟩⟩

def scoped_manifest_text : String :=
  "\x7b\"apiVersion\":\"asmodeus.io/v1alpha1\",\"kind\":\"AttackScenario\",\"metadata\":" ++
    ("\x7b\"id\":\"SCN-RT-002\",\"name\":\"Scoped canary\",\"category\":\"red_team\"\x7d,\"spec\":" ++
      "\x7b\"target_scope\":\x7b\"target_path\":\"/tmp/asmodeus-canary/team/blue\"\x7d," ++
      "\"safety\":\x7b\"max_duration_sec\":120,\"cpu_limit_percent\":50," ++
      "\"canary_directory_only\":\"/tmp/asmodeus-canary/team\"\x7d,\"action\":" ++
      "\x7b\"nature\":\"synthetic\",\"type\":\"synthetic_canary_encrypt\",\"parameters\":") ++
    "\x7b\"file_count\":10,\"chunk_size_kb\":32," ++ "\"io_rate_per_sec\":200,\"duration_ms\":5000\x7d\x7d\x7d\x7d"

/-- Deserializers that know this text. -/
def scoped_manifest_serde : Serde where
  from_str text := if text = scoped_manifest_text.toList then .ok scoped_manifest else .error "expected value"
  from_value _ := .error "expected value"
  parse_f64 _ := none

theorem scoped_plan_bounded : ∃ plan, ExecutionPlan.from_manifest scoped_manifest = .ok plan ∧
    Confined plan.target_dir.toList ∧ Within "/tmp/asmodeus-canary/team".toList plan.target_dir.toList ∧
      plan.file_count.toNat * plan.chunk_size_kb.toNat ≤ 20480 := by
  have hopen : "\x7b\"apiVersion\":\"asmodeus.io/v1alpha1\",\"kind\":\"AttackScenario\",\"metadata\":".toList.head? =
      some '\x7b' := by
    decide +kernel
  have hclose : "\"io_rate_per_sec\":200,\"duration_ms\":5000\x7d\x7d\x7d\x7d".toList.getLast? =
      some '\x7d' := by
    decide +kernel
  obtain ⟨hfirst, hlast⟩ := Text.ends_append hopen hclose
  have hvalid : validate_manifest scoped_manifest = .ok () := by rfl
  have hread : scoped_manifest_serde.from_str scoped_manifest_text.toList = .ok scoped_manifest := by
    simp only [scoped_manifest_serde, if_true]
  obtain ⟨plan, hplan, hconfined, hscope, -, hdata, -⟩ :=
    accepted_plan_bounded scoped_manifest_serde (parsed_json hfirst hlast hread hvalid)
  exact ⟨plan, hplan, hconfined, hscope _ rfl, hdata⟩

end asmodeus.runner
