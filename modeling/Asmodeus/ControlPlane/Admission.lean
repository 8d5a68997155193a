import Asmodeus.ControlPlane.Catalog
import Asmodeus.ControlPlane.Registry
import Asmodeus.Runner.Worker

open asmodeus.common asmodeus.dsl Fallible
open asmodeus.runner (ExecuteRequest validate Validated net_chaos_spec iface_in_scope run_id_char)

namespace asmodeus.control_plane

/-- The random bytes that set the runs of one process apart. -/
structure RunNamespace where
  bytes : List UInt8
  length : bytes.length = 16

/-- The id of the run with a number. -/
def next_run_id (run_namespace : RunNamespace) (n : UInt64) : String :=
  String.ofList ("run_".toList ++ run_namespace.bytes.flatMap (fun byte => Text.hex 2 byte.toNat) ++
    '_' :: Text.hex 16 n.toNat)

/-- The execution errors of an admission. -/
inductive AdmissionError
  | InvalidSignature
  | TargetNotFound (target : String)
  | NoActiveRunner
  | Forbidden
  | InvalidManifest (message : String)
  deriving DecidableEq

def AdmissionError.display : AdmissionError → String
  | .InvalidSignature => "scenario signature invalid"
  | .TargetNotFound target => "target runner not found or inactive: " ++ target
  | .NoActiveRunner => "no active runner available"
  | .Forbidden => "role may not execute this scenario category"
  | .InvalidManifest message => "invalid execution parameters: " ++ message

/-- The early return of a failed check. -/
def admit_if (holds : Bool) (error : AdmissionError) : Except AdmissionError Unit :=
  if holds then .ok () else .error error

def invalid_manifest {α : Type} (result : Except ManifestValidationError α) : Except AdmissionError α :=
  match result with
  | .ok a => .ok a
  | .error e => .error (.InvalidManifest e.display)

/-- The runner a run is routed to, absent where the run is simulated. -/
def route (registry : RegistryData) (target : Option String) : Except AdmissionError (Option RunnerRecord) :=
  let selected := registry.find_for_target target
  let explicit := (target.map fun t => String.ofList (Lines.trim t.toList)).filter fun t => decide (t ≠ "")
  match selected, explicit with
  | some runner, _ => .ok (some runner)
  | none, some target => .error (.TargetNotFound target)
  | none, none => if registry.require_runner then .error .NoActiveRunner else .ok none

/-- The request an admitted run sends to its runner. -/
def execute_request (public_key : List UInt8) (entry : CatalogEntry) (plan : ExecutionPlan) (id : String)
    (timeout : UInt32) : ExecuteRequest where
  scenario_id := entry.id
  manifest := entry.manifest
  signature := entry.signature
  public_key := public_key
  target_dir := plan.target_dir
  file_count := plan.file_count
  chunk_size_kb := plan.chunk_size_kb
  run_id := id
  timeout_sec := timeout

section

-- The verification of a signature, the text of a UTF-8 error, and the deserializers.
variable (is_valid : List UInt8 → List UInt8 → List UInt8 → Bool) (utf8_error : List UInt8 → String) (serde : Serde)

def entry_text (manifest : List UInt8) : Except AdmissionError String :=
  match Utf8.decode manifest with
  | some text => .ok (String.ofList text)
  | none => .error (.InvalidManifest (utf8_error manifest))

/-- `start_scenario_identified` up to the audit record: the request for the routed
runner, if there is one. -/
def start_scenario_identified (catalog : Catalog) (registry : RegistryData) (entry : CatalogEntry) (role : Role)
    (target : Option String) (timeout_sec : Option UInt32) (id : String) :
    Except AdmissionError (Option ExecuteRequest) := do
  admit_if (role.can entry.category.required_capability) .Forbidden
  admit_if (is_valid entry.manifest entry.signature catalog.public_key) .InvalidSignature
  let text ← entry_text utf8_error entry.manifest
  let manifest ← invalid_manifest (parse_and_validate_manifest serde text)
  let plan ← invalid_manifest (ExecutionPlan.from_manifest manifest)
  let timeout := timeout_sec.getD plan.max_duration_sec
  admit_if (!(decide (timeout = 0) || decide (plan.max_duration_sec < timeout)))
    (.InvalidManifest "timeout_sec must be positive and cannot extend the signed deadline")
  let selected ← route registry target
  return selected.map fun _ => execute_request catalog.public_key entry plan id timeout

/-- What an admission says about its entry and its request. -/
structure Admitted (catalog : Catalog) (entry : CatalogEntry) (role : Role) (timeout_sec : Option UInt32)
    (id : String) (manifest : ScenarioManifest) (plan : ExecutionPlan) (request : ExecuteRequest) : Prop where
  role : role.can entry.category.required_capability = true
  signature : is_valid entry.manifest entry.signature catalog.public_key = true
  signed : ∃ text, Utf8.decode entry.manifest = some text ∧
    parse_and_validate_manifest serde (String.ofList text) = .ok manifest
  compiled : ExecutionPlan.from_manifest manifest = .ok plan
  timeout : timeout_sec.getD plan.max_duration_sec ≠ 0 ∧ timeout_sec.getD plan.max_duration_sec ≤ plan.max_duration_sec
  request : request = execute_request catalog.public_key entry plan id (timeout_sec.getD plan.max_duration_sec)

variable {is_valid utf8_error serde}
variable {catalog : Catalog} {registry : RegistryData} {entry : CatalogEntry} {role : Role} {target : Option String}
  {timeout_sec : Option UInt32} {id : String} {request : ExecuteRequest} {manifest : ScenarioManifest}
  {plan : ExecutionPlan}

theorem admit_if_ok {holds : Bool} {error : AdmissionError} (h : admit_if holds error = .ok ()) : holds = true := by
  unfold admit_if at h
  split at h
  · assumption
  · cases h

theorem invalid_manifest_ok {α : Type} {result : Except ManifestValidationError α} {a : α}
    (h : invalid_manifest result = .ok a) : result = .ok a := by
  unfold invalid_manifest at h
  split at h
  · rw [Except.ok.inj h]
  · cases h

theorem start_admitted
    (hstart : start_scenario_identified is_valid utf8_error serde catalog registry entry role target timeout_sec id =
      .ok (some request)) :
    ∃ manifest plan, Admitted is_valid serde catalog entry role timeout_sec id manifest plan request := by
  unfold start_scenario_identified at hstart
  obtain ⟨_, hrole, hstart⟩ := bind_ok hstart
  obtain ⟨_, hsignature, hstart⟩ := bind_ok hstart
  obtain ⟨text, htext, hstart⟩ := bind_ok hstart
  obtain ⟨manifest, hmanifest, hstart⟩ := bind_ok hstart
  obtain ⟨plan, hplan, hstart⟩ := bind_ok hstart
  obtain ⟨_, htimeout, hstart⟩ := bind_ok hstart
  obtain ⟨selected, -, hstart⟩ := bind_ok hstart
  obtain ⟨runner, -, rfl⟩ := Option.map_eq_some_iff.mp (Except.ok.inj hstart)
  have htimeout := admit_if_ok htimeout
  simp only [Bool.not_eq_true', Bool.or_eq_false_iff, decide_eq_false_iff_not] at htimeout
  refine ⟨manifest, plan, admit_if_ok hrole, admit_if_ok hsignature, ?_, invalid_manifest_ok hplan,
    ⟨htimeout.1, UInt32.not_lt.mp htimeout.2⟩, rfl⟩
  unfold entry_text at htext
  split at htext
  · rename_i chars hchars
    obtain rfl := Except.ok.inj htext
    exact ⟨chars, hchars, invalid_manifest_ok hmanifest⟩
  · cases htext

/-- Nothing else is asked of an entry with a runner to go to. -/
theorem Admitted.start (h : Admitted is_valid serde catalog entry role timeout_sec id manifest plan request)
    {runner : RunnerRecord} (hroute : route registry target = .ok (some runner)) :
    start_scenario_identified is_valid utf8_error serde catalog registry entry role target timeout_sec id =
      .ok (some request) := by
  obtain ⟨text, htext, hmanifest⟩ := h.signed
  have hread : entry_text utf8_error entry.manifest = .ok (String.ofList text) := by
    rw [entry_text, htext]
  have htimeout : (!(decide (timeout_sec.getD plan.max_duration_sec = 0) ||
      decide (plan.max_duration_sec < timeout_sec.getD plan.max_duration_sec))) = true := by
    rw [decide_eq_false h.timeout.1, decide_eq_false (UInt32.not_lt.mpr h.timeout.2)]
    rfl
  simp only [start_scenario_identified, h.role, h.signature, hread, hmanifest, h.compiled, htimeout, hroute, h.request,
    invalid_manifest, admit_if, bind, Except.bind, if_true]
  rfl

theorem run_prefix_length : "run_".toList.length = 4 := by
  decide

theorem run_prefix_chars : ∀ c ∈ "run_".toList, c.isAlphanum = true ∨ c = '_' := by
  have hall : ("run_".toList.all fun c => c.isAlphanum || decide (c = '_')) = true := by decide
  intro c hc
  simpa using List.all_eq_true.mp hall c hc

theorem next_run_id_chars (run_namespace : RunNamespace) (n : UInt64) : (next_run_id run_namespace n).toList =
    "run_".toList ++ run_namespace.bytes.flatMap (fun byte => Text.hex 2 byte.toNat) ++ '_' :: Text.hex 16 n.toNat :=
  String.toList_ofList

/-- A run id is what the runner takes for one. -/
theorem next_run_id_valid (run_namespace : RunNamespace) (n : UInt64) :
    next_run_id run_namespace n ≠ "" ∧ (next_run_id run_namespace n).utf8ByteSize ≤ 96 ∧
      (next_run_id run_namespace n).toList.all run_id_char = true := by
  have hbytes : (run_namespace.bytes.flatMap fun byte => Text.hex 2 byte.toNat).length = 32 := by
    rw [List.length_flatMap]
    simp only [Text.hex_length]
    rw [List.map_const', List.sum_replicate, run_namespace.length]
    rfl
  have hchars : ∀ c ∈ (next_run_id run_namespace n).toList, c.isAlphanum = true ∨ c = '_' := by
    intro c hc
    rw [next_run_id_chars] at hc
    rcases List.mem_append.mp hc with hc | hc
    · rcases List.mem_append.mp hc with hc | hc
      · exact run_prefix_chars c hc
      · obtain ⟨byte, -, hc⟩ := List.mem_flatMap.mp hc
        exact .inl (Text.hex_alphanum 2 byte.toNat c hc)
    · rcases List.mem_cons.mp hc with rfl | hc
      · exact .inr rfl
      · exact .inl (Text.hex_alphanum 16 n.toNat c hc)
  have hascii : ∀ c ∈ (next_run_id run_namespace n).toList, c.val ≤ 127 := by
    intro c hc
    rcases hchars c hc with halphanum | rfl
    · exact Text.alphanum_ascii halphanum
    · decide
  have hlength : (next_run_id run_namespace n).toList.length = 53 := by
    simp only [next_run_id_chars, List.length_append, hbytes, List.length_cons, Text.hex_length, run_prefix_length]
  refine ⟨fun hempty => ?_, ?_, List.all_eq_true.mpr fun c hc => ?_⟩
  · rw [hempty] at hlength
    cases hlength
  · rw [Utf8.utf8ByteSize_ascii hascii, hlength]
    decide
  · rcases hchars c hc with halphanum | rfl
    · rw [run_id_char, halphanum]
      rfl
    · decide

/-- The serializer writes each built-in manifest as an object the reader reads back. -/
def WritesJson (to_vec : ScenarioManifest → List UInt8) (serde : Serde) : Prop :=
  ∀ b ∈ builtins, ∃ text : List Char, to_vec b.manifest = Utf8.encode text ∧ text.head? = some '\x7b' ∧
    text.getLast? = some '\x7d' ∧ serde.from_str text = .ok b.manifest

/-- The id of an entry is that of the manifest it carries. -/
theorem manifest_id {sign : List UInt8 → List UInt8 → Except String (List UInt8)}
    {to_vec : ScenarioManifest → List UInt8} (hbuilt : catalog.Built sign is_valid to_vec serde)
    (hjson : WritesJson to_vec serde) (hentry : entry ∈ catalog.entries) {text : List Char}
    (htext : Utf8.decode entry.manifest = some text)
    (hmanifest : parse_and_validate_manifest serde (String.ofList text) = .ok manifest) :
    manifest.metadata.id = entry.id := by
  cases hbuilt.sourced entry hentry with
  | builtin b signature hb heq =>
    obtain ⟨written, hwritten, hopen, hclose, hread⟩ := hjson b hb
    have hsame : text = written := by
      have hdecode : Utf8.decode (to_vec b.manifest) = some text := by rw [← htext, heq]; rfl
      rw [hwritten, Utf8.decode_encode, Option.some.injEq] at hdecode
      exact hdecode.symm
    have htrim := Lines.trim_eq_self hopen hclose (by decide) (by decide)
    have hparse : parse_manifest serde (String.ofList text) = .ok b.manifest := by
      refine parse_manifest_json ?_ ?_ ?_ <;> rw [String.toList_ofList, hsame]
      · exact hopen
      · exact htrim
      · exact hread
    obtain ⟨hparsed, -⟩ := parse_and_validate_manifest_ok hmanifest
    obtain rfl := Except.ok.inj (hparsed.symm.trans hparse)
    rw [heq]
    rfl
  | external content manifest' plan signature hmanifest' hplan heq =>
    have hdecode : Utf8.decode (Utf8.encode content.toList) = some text := by rw [← htext, heq]; rfl
    rw [Utf8.decode_encode, Option.some.injEq] at hdecode
    rw [← hdecode, String.ofList_toList, hmanifest'] at hmanifest
    obtain rfl := Except.ok.inj hmanifest
    rw [heq]
    rfl

/-- The runner accepts the request of every admission. -/
theorem admitted_validated {sign : List UInt8 → List UInt8 → Except String (List UInt8)}
    {to_vec : ScenarioManifest → List UInt8} {run_namespace : RunNamespace} {n : UInt64}
    (hbuilt : catalog.Built sign is_valid to_vec serde) (hjson : WritesJson to_vec serde)
    (hentry : entry ∈ catalog.entries)
    (h : Admitted is_valid serde catalog entry role timeout_sec (next_run_id run_namespace n) manifest plan request) :
    Validated is_valid serde (some catalog.public_key) request plan := by
  obtain ⟨text, htext, hmanifest⟩ := h.signed
  have hid := manifest_id hbuilt hjson hentry htext hmanifest
  rw [h.request]
  exact {
    key := rfl
    signature := h.signature
    signed := ⟨text, manifest, htext, hmanifest, h.compiled, hid⟩
    target_dir := rfl
    file_count := rfl
    chunk_size_kb := rfl
    run_id := next_run_id_valid run_namespace n
    timeout_sec := h.timeout.2 }

end

/-- The interface a manifest asks for. -/
def interface_name (manifest : ScenarioManifest) : String :=
  match ExecutionPlan.get manifest.spec.action.parameters "iface" with
  | some (.String iface) => iface
  | _ => "lo"

theorem compiled_interface {manifest : ScenarioManifest} {plan : ExecutionPlan}
    (hcompiled : ExecutionPlan.Compiled manifest plan) : plan.iface = interface_name manifest := by
  unfold interface_name
  obtain ⟨hnone, hdefault⟩ | ⟨hsome, -⟩ := ExecutionPlan.interface_spec hcompiled.iface
  · rw [hnone]
    exact hdefault
  · rw [hsome]

theorem action_latency_spike {action : Action} {action_type : String} (h : Action.from_str action_type = some action) :
    action = .LatencySpike ↔ action_type = "latency_spike" := by
  have hname : action.as_str = action_type := by
    have hfound := List.find?_some h
    exact of_decide_eq_true hfound
  constructor
  · rintro rfl
    exact hname.symm
  · rintro rfl
    cases action with
    | LatencySpike => rfl
    | _ => exact absurd hname (by decide)

/-- Of the runner's network gate, the manifest gate leaves out the interface alone. -/
theorem network_gate {manifest : ScenarioManifest} {plan : ExecutionPlan} (haccepted : Accepted manifest)
    (hcompiled : ExecutionPlan.Compiled manifest plan) :
    (net_chaos_spec plan).validate = .ok () ↔ iface_in_scope plan.iface = true := by
  have hcidr := accepted_cidr_in_scope haccepted hcompiled
  have hduration := hcompiled.duration_ms.1
  have hpositive : 0 < (net_chaos_spec plan).duration_ms.toNat ∧ (net_chaos_spec plan).duration_ms.toNat ≤ 120000 := by
    have hmax : (net_chaos_spec plan).duration_ms = if plan.duration_ms ≤ 1 then 1 else plan.duration_ms := rfl
    rw [hmax]
    by_cases hshort : plan.duration_ms ≤ 1
    · rw [if_pos hshort]
      decide
    · rw [if_neg hshort]
      have hlong := UInt32.lt_iff_toNat_lt.mp (UInt32.not_le.mp hshort)
      exact ⟨Nat.zero_lt_of_lt hlong, hduration⟩
  rw [runner.NetChaosSpec.validate_ok_iff]
  exact ⟨fun h => h.2.1, fun hiface => ⟨hcidr, hiface, hcompiled.latency_ms, hcompiled.jitter_ms,
    hcompiled.loss_percent, hpositive⟩⟩

/-- The runner takes a request past both of its gates. -/
def Agreed (is_valid : List UInt8 → List UInt8 → List UInt8 → Bool) (serde : Serde) (key : List UInt8)
    (request : ExecuteRequest) : Prop :=
  ∃ plan, validate is_valid serde (some key) request = .ok plan ∧
    (plan.action = .LatencySpike → (net_chaos_spec plan).validate = .ok ())

/-- The gates of the control plane and of the runner agree on every admitted entry, save
for a latency spike on an interface that the runner does not take for a test one. -/
theorem gates_agree {sign : List UInt8 → List UInt8 → Except String (List UInt8)}
    {is_valid : List UInt8 → List UInt8 → List UInt8 → Bool} {utf8_error : List UInt8 → String}
    {to_vec : ScenarioManifest → List UInt8} {serde : Serde} {catalog : Catalog}
    (hbuilt : catalog.Built sign is_valid to_vec serde) (hjson : WritesJson to_vec serde) {entry : CatalogEntry}
    (hentry : entry ∈ catalog.entries) {registry : RegistryData} {role : Role} {target : Option String}
    {timeout_sec : Option UInt32} {run_namespace : RunNamespace} {n : UInt64} {request : ExecuteRequest}
    (hstart : start_scenario_identified is_valid utf8_error serde catalog registry entry role target timeout_sec
      (next_run_id run_namespace n) = .ok (some request)) :
    ∃ text manifest, Utf8.decode entry.manifest = some text ∧
      parse_and_validate_manifest serde (String.ofList text) = .ok manifest ∧
      (Agreed is_valid serde catalog.public_key request ↔
        (manifest.spec.action.action_type = "latency_spike" → iface_in_scope (interface_name manifest) = true)) := by
  obtain ⟨manifest, plan, hadmitted⟩ := start_admitted hstart
  obtain ⟨text, htext, hmanifest⟩ := hadmitted.signed
  have hvalidated := (admitted_validated hbuilt hjson hentry hadmitted).accepted
  have hcompiled := ExecutionPlan.from_manifest_spec hadmitted.compiled
  have hgate := network_gate (parse_and_validate_manifest_ok hmanifest).2 hcompiled
  have haction := action_latency_spike hcompiled.action
  refine ⟨text, manifest, htext, hmanifest, ?_, fun hscope => ⟨plan, hvalidated, fun hspike => ?_⟩⟩
  · rintro ⟨plan', hvalidated', hspec⟩ hspike
    obtain rfl := Except.ok.inj (hvalidated.symm.trans hvalidated')
    rw [← compiled_interface hcompiled]
    exact hgate.mp (hspec (haction.mpr hspike))
  · rw [hgate, compiled_interface hcompiled]
    exact hscope (haction.mp hspike)

/-- A latency spike on an interface, with everything else left to its default. -/
def latency_manifest (iface : String) : ScenarioManifest where
  api_version := API_VERSION_V1ALPHA1
  metadata := ⟨"LATENCY_PROBE", "Latency", .Chaos, none, none, none, "medium", none⟩
  spec := ⟨none, .default, ⟨.Synthetic, "latency_spike", [("iface", .String iface)]⟩, ⟨"", none⟩⟩

def latency_plan (iface : String) : ExecutionPlan where
  action := .LatencySpike
  target_dir := "/tmp/asmodeus-canary"
  file_count := 20
  chunk_size_kb := 64
  io_rate_per_sec := 0
  duration_ms := 0
  max_duration_sec := 60
  cpu_limit_percent := 25
  target_cidr := "127.0.0.1/32"
  iface := iface
  latency_ms := 100
  jitter_ms := 0
  loss_percent := 0

def latency_text (iface : String) : String :=
  "\x7b\"" ++ ("apiVersion\":\"asmodeus.io/v1alpha1\",\"kind\":\"AttackScenario\",\"metadata\":" ++
    "\x7b\"id\":\"LATENCY_PROBE\",\"name\":\"Latency\",\"category\":\"chaos\"\x7d,\"spec\":" ++
    "\x7b\"safety\":\x7b\x7d,\"action\":\x7b\"nature\":\"synthetic\",\"type\":\"latency_spike\"," ++
    "\"parameters\":\x7b\"iface\":\"" ++ iface) ++ "\"\x7d\x7d\x7d\x7d"

/-- A short text that stands in for that of a built-in manifest: its id in braces. -/
def builtin_text (b : Builtin) : List Char := '\x7b' :: b.id.toList ++ ['\x7d']

/-- A serializer that writes the stand-in texts. -/
def builtin_vec (m : ScenarioManifest) : List UInt8 := Utf8.encode ('\x7b' :: m.metadata.id.toList ++ ['\x7d'])

/-- Deserializers that know the built-in texts and one latency spike. -/
def latency_serde (iface : String) : Serde where
  from_str text := match KeyedList.find builtin_text text builtins with
    | some b => .ok b.manifest
    | none => if text = (latency_text iface).toList then .ok (latency_manifest iface) else .error "expected value"
  from_value _ := .error "expected value"
  parse_f64 _ := none

/-- Two interfaces, of which only the second one is in scope. -/
def probed_interfaces : List String := ["eth0", "lo0"]

theorem latency_text_ends (iface : String) :
    (latency_text iface).toList.take 2 = ['\x7b', '"'] ∧ (latency_text iface).toList.getLast? = some '\x7d' := by
  have hopen : "\x7b\"".toList = ['\x7b', '"'] := by decide
  have hclose : "\"\x7d\x7d\x7d\x7d".toList.getLast? = some '\x7d' := by decide
  constructor
  · rw [latency_text, String.toList_append, String.toList_append, hopen]
    rfl
  · rw [latency_text, String.toList_append, List.getLast?_append, hclose]
    rfl

theorem builtin_text_unquoted : ∀ b ∈ builtins, (builtin_text b).take 2 ≠ ['\x7b', '"'] := by
  decide

theorem latency_text_facts (iface : String) :
    KeyedList.find builtin_text (latency_text iface).toList builtins = none ∧
      (latency_text iface).toList.head? = some '\x7b' ∧ (latency_text iface).toList.getLast? = some '\x7d' := by
  obtain ⟨htake, hclose⟩ := latency_text_ends iface
  refine ⟨KeyedList.find_eq_none.mpr fun b hb heq => builtin_text_unquoted b hb (heq ▸ htake), ?_, hclose⟩
  have hhead := congrArg List.head? htake
  rwa [List.head?_take, if_neg (by decide)] at hhead

theorem latency_manifest_facts : ∀ iface ∈ probed_interfaces,
    validate_manifest (latency_manifest iface) = .ok () ∧
      ExecutionPlan.from_manifest (latency_manifest iface) = .ok (latency_plan iface) := by
  decide +kernel

theorem builtin_texts_unique : KeyedList.Unique builtin_text builtins := by
  change (builtins.map builtin_text).Nodup
  decide +kernel

theorem latency_writes_json (iface : String) : WritesJson builtin_vec (latency_serde iface) := by
  intro b hb
  refine ⟨builtin_text b, rfl, rfl, List.getLast?_concat, ?_⟩
  change (match KeyedList.find builtin_text (builtin_text b) builtins with
    | some b => Except.ok b.manifest
    | none => _) = _
  rw [builtin_texts_unique.find_of_mem hb]

def latency_sign (_ _ : List UInt8) : Except String (List UInt8) := .ok runner.default_signature

def latency_seeded : Catalog := .seeded latency_sign builtin_vec runner.default_key []

def latency_item (iface : String) : DirEntry := ⟨true, some "json", some (latency_text iface)⟩

/-- The seeded catalog and one manifest from a directory. -/
def latency_catalog (iface : String) : Catalog :=
  (latency_seeded.load_from_dir latency_sign (latency_serde iface) (.listed [.ok (latency_item iface)])).1

def latency_entry (iface : String) : CatalogEntry :=
  external_entry (latency_text iface) (latency_manifest iface) (latency_plan iface) runner.default_signature

def latency_registry : RegistryData := ⟨[⟨.new "node-a" "Node A" "http://127.0.0.1:8850" ["test"] 1, 0⟩], false⟩

def latency_namespace : RunNamespace := ⟨List.replicate 16 0, rfl⟩

def latency_request (iface : String) : ExecuteRequest :=
  execute_request runner.default_key (latency_entry iface) (latency_plan iface) (next_run_id latency_namespace 1) 60

theorem latency_parsed_of {serde : Serde} {iface : String} (hiface : iface ∈ probed_interfaces)
    (hread : serde.from_str (latency_text iface).toList = .ok (latency_manifest iface)) :
    parse_and_validate_manifest serde (latency_text iface) = .ok (latency_manifest iface) := by
  obtain ⟨-, hopen, hclose⟩ := latency_text_facts iface
  exact parsed_json hopen hclose hread (latency_manifest_facts iface hiface).1

theorem latency_parsed {iface : String} (hiface : iface ∈ probed_interfaces) :
    parse_and_validate_manifest (latency_serde iface) (latency_text iface) = .ok (latency_manifest iface) := by
  obtain ⟨hfind, -, -⟩ := latency_text_facts iface
  exact latency_parsed_of hiface (by simp only [latency_serde, hfind, if_true])

theorem latency_read_of {serde : Serde} {iface : String} (hiface : iface ∈ probed_interfaces)
    (hread : serde.from_str (latency_text iface).toList = .ok (latency_manifest iface)) :
    latency_seeded.read_item latency_sign serde (latency_item iface) = .ok (some (latency_entry iface)) :=
  Catalog.read_json_item latency_seeded (latency_parsed_of hiface hread) (latency_manifest_facts iface hiface).2

theorem latency_read {iface : String} (hiface : iface ∈ probed_interfaces) :
    latency_seeded.read_item latency_sign (latency_serde iface) (latency_item iface) =
      .ok (some (latency_entry iface)) := by
  obtain ⟨hfind, -, -⟩ := latency_text_facts iface
  exact latency_read_of hiface (by simp only [latency_serde, hfind, if_true])

theorem latency_catalog_eq {iface : String} (hiface : iface ∈ probed_interfaces) : latency_catalog iface =
    { latency_seeded with
      entries := KeyedList.upsert (fun e : CatalogEntry => e.id) latency_seeded.entries (latency_entry iface) } := by
  rw [latency_catalog, Catalog.load_from_dir, Catalog.load_items, latency_read hiface]
  rfl

theorem latency_built (iface : String) : (latency_catalog iface).Built latency_sign runner.default_is_valid builtin_vec
    (latency_serde iface) := by
  have hseeded : latency_seeded.Built latency_sign runner.default_is_valid builtin_vec (latency_serde iface) :=
    .seeded runner.default_key []
  exact hseeded.loaded _

theorem latency_entry_listed {iface : String} (hiface : iface ∈ probed_interfaces) :
    latency_entry iface ∈ (latency_catalog iface).entries := by
  have hfind : KeyedList.find (fun e : CatalogEntry => e.id) (latency_entry iface).id
      (KeyedList.upsert (fun e : CatalogEntry => e.id) latency_seeded.entries (latency_entry iface)) =
      some (latency_entry iface) := KeyedList.find_upsert_self latency_seeded.entries (latency_entry iface)
  rw [latency_catalog_eq hiface]
  exact (KeyedList.find_some hfind).1

theorem latency_entry_text (iface : String) :
    Utf8.decode (latency_entry iface).manifest = some (latency_text iface).toList :=
  Utf8.decode_encode (latency_text iface).toList

theorem latency_admitted {iface : String} (hiface : iface ∈ probed_interfaces) :
    Admitted runner.default_is_valid (latency_serde iface) (latency_catalog iface) (latency_entry iface) .Admin none
      (next_run_id latency_namespace 1) (latency_manifest iface) (latency_plan iface) (latency_request iface) := by
  rw [latency_catalog_eq hiface]
  exact {
    role := rfl
    signature := decide_eq_true ⟨rfl, rfl⟩
    signed := ⟨(latency_text iface).toList, latency_entry_text iface, by
      rw [String.ofList_toList]
      exact latency_parsed hiface⟩
    compiled := (latency_manifest_facts iface hiface).2
    timeout := ⟨(by decide : (60 : UInt32) ≠ 0), UInt32.le_refl _⟩
    request := rfl }

theorem latency_started {iface : String} (hiface : iface ∈ probed_interfaces) :
    start_scenario_identified runner.default_is_valid (fun _ => "") (latency_serde iface) (latency_catalog iface)
      latency_registry (latency_entry iface) .Admin none none (next_run_id latency_namespace 1) =
        .ok (some (latency_request iface)) := by
  have hroute : route latency_registry none = .ok (some (.new "node-a" "Node A" "http://127.0.0.1:8850" ["test"] 1)) :=
    rfl
  exact (latency_admitted hiface).start hroute

/-- A spike on an Ethernet interface is admitted and signed, and its runner refuses it. -/
theorem eth0_spike_refused : ∃ (serde : Serde) (catalog : Catalog) (entry : CatalogEntry) (request : ExecuteRequest),
    catalog.Built latency_sign runner.default_is_valid builtin_vec serde ∧ WritesJson builtin_vec serde ∧
      entry ∈ catalog.entries ∧
      start_scenario_identified runner.default_is_valid (fun _ => "") serde catalog latency_registry entry .Admin none
        none (next_run_id latency_namespace 1) = .ok (some request) ∧
      ¬ Agreed runner.default_is_valid serde catalog.public_key request := by
  have hiface : "eth0" ∈ probed_interfaces := List.mem_cons_self
  have hbuilt := latency_built "eth0"
  have hadmitted := latency_admitted hiface
  refine ⟨latency_serde "eth0", latency_catalog "eth0", latency_entry "eth0", latency_request "eth0", hbuilt,
    latency_writes_json "eth0", latency_entry_listed hiface, latency_started hiface, ?_⟩
  rintro ⟨plan, hplan, hspec⟩
  have hvalidated := admitted_validated hbuilt (latency_writes_json "eth0") (latency_entry_listed hiface) hadmitted
  obtain rfl := Except.ok.inj (hvalidated.accepted.symm.trans hplan)
  have hscope : iface_in_scope "eth0" = true := ((runner.NetChaosSpec.validate_ok_iff _).mp (hspec rfl)).2.1
  exact absurd hscope (by decide +kernel)

theorem lo0_spike_accepted :
    Agreed runner.default_is_valid (latency_serde "lo0") (latency_catalog "lo0").public_key
      (latency_request "lo0") := by
  have hiface : "lo0" ∈ probed_interfaces := List.mem_cons_of_mem _ List.mem_cons_self
  have hbuilt := latency_built "lo0"
  obtain ⟨text, manifest, htext, hmanifest, hagreed⟩ :=
    gates_agree hbuilt (latency_writes_json "lo0") (latency_entry_listed hiface) (latency_started hiface)
  rw [latency_entry_text, Option.some.injEq] at htext
  rw [← htext, String.ofList_toList, latency_parsed hiface] at hmanifest
  obtain rfl := Except.ok.inj hmanifest
  exact hagreed.mpr fun _ => (by decide +kernel : iface_in_scope "lo0" = true)

end asmodeus.control_plane
