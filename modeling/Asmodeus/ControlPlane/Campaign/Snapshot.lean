import Asmodeus.ControlPlane.Campaign.Consistency
import Asmodeus.ControlPlane.Execution.Facts

open asmodeus.common asmodeus.dsl asmodeus.telemetry

namespace asmodeus.control_plane

open campaign_run

/-- Every step of every stored run names a scenario. -/
def CampaignRunStore.Named (store : CampaignRunStore) : Prop := ∀ run ∈ store.runs, run.Named

namespace CampaignState

/-- No launch of a run with a nameless step is committed. -/
def NamedAdmission (s : CampaignState) (label : CampaignLabel) (_ : CampaignState) : Prop :=
  match label with
  | .admission index _ disk => ∀ w : CampaignWorker, s.workers[index]? = some w → w.phase = .registered →
      w.resume = false → disk = .ok () → w.run.Named
  | _ => True

/-- The committed snapshot can be loaded again. -/
def Loadable (_ : CampaignState) (_ : CampaignLabel) (next : CampaignState) : Prop :=
  next.campaign_runs.value.validate = .ok ()

section

variable {env : Env} {s next : CampaignState} {label : CampaignLabel}

/-- The steps of a run are those of its launch. -/
theorem Saves.steps {phase : CampaignPhase} {change : CampaignRun → CampaignRun} {after : CampaignRun → CampaignPhase}
    (hsaves : phase.Saves change after) (run : CampaignRun) : (change run).steps = run.steps := by
  cases hsaves with
  | cancel | intend | complete => rfl
  | withdraw | record => exact CampaignRun.set_last_steps _ _

theorem Writes.named {store after : CampaignRunStore} {saved : CampaignRun} (hwrites : store.Writes after saved)
    (hnamed : store.Named) (hsaved : saved.Named) : after.Named := by
  intro run hrun
  obtain rfl | hrun := hwrites.mem run hrun
  · exact hsaved
  · exact hnamed run hrun

theorem Named.of_steps {run saved : CampaignRun} (h : run.Named) (hsteps : saved.steps = run.steps) : saved.Named := by
  intro step hstep
  exact h step (hsteps ▸ hstep)

/-- No worker gives a run other steps. Only the launch of a nameless run puts one
into the snapshot. -/
theorem Works.named {index : Nat} {w : CampaignWorker} (h : s.Orderly) (hw : s.workers[index]? = some w)
    (hnamed : s.campaign_runs.value.Named) (hcondition : s.NamedAdmission label next)
    (hpath : s.campaign_runs.path = true)
    (hworks : s.Works env index w label next) : next.campaign_runs.value.Named := by
  cases hworks with
  | admitted now disk run after hphase hadmission hdisk =>
    unfold admission at hadmission
    split at hadmission
    · obtain ⟨e, herror, -⟩ | ⟨current, reconciled, hget, -, hreconciled, -, rfl⟩ := prepare_resume_spec hadmission
      · cases herror
      · obtain ⟨hmem, hid⟩ := CampaignRunStore.get_some hget
        have hsteps : reconciled.steps = current.steps := by cases hreconciled <;> rfl
        have hcurrent := hnamed current hmem
        intro other hother
        obtain rfl | hother := KeyedList.mem_replace hother
        · exact Named.of_steps hcurrent ((CampaignRun.requeue_steps _ _).trans hsteps)
        · exact hnamed other hother
    · rename_i hresume
      have hresume := Bool.eq_false_iff.mpr hresume
      cases hadmission
      obtain ⟨-, -, hnone, -⟩ := h.consistent.fresh index w hw (by rw [hphase]; rfl) hresume
      exact Writes.named (CampaignRunStore.writes_insert h.consistent.wellFormed.unique hnone) hnamed
        (hcondition w hw hphase hresume (hdisk hpath))
  | reject now disk e after hphase hadmission hdisk =>
    unfold admission at hadmission
    split at hadmission
    · obtain ⟨e, -, rfl⟩ | ⟨_, _, -, -, -, hok, -⟩ := prepare_resume_spec hadmission
      · exact hnamed
      · cases hok
    · cases hadmission
  | save now disk change phase run after hsaves hupdate =>
    obtain ⟨hactive, hkeeps⟩ := hsaves.facts
    obtain ⟨hget, -⟩ := h.consistent.active index w hw hactive
    obtain ⟨rfl, hwrites, -⟩ := h.consistent.update (hkeeps w.run).1 hget hupdate
    exact Writes.named hwrites hnamed
      (Named.of_steps (hnamed w.run (CampaignRunStore.get_some hget).1) (Saves.steps hsaves w.run))
  | _ => exact hnamed

theorem Cancels.runs {index : Nat} {r : CancelRequest} (hcancels : s.Cancels env index r next) :
    next.campaign_runs = s.campaign_runs := by
  cases hcancels <;> rfl

theorem Moves.named (h : s.Orderly) (hnamed : s.campaign_runs.value.Named) (hpath : s.campaign_runs.path = true)
    (hmoves : s.Moves env label next) (hcondition : s.NamedAdmission label next) : next.campaign_runs.value.Named := by
  have hcrashed (exec : ExecutionState) : (s.crashed exec).campaign_runs.value.Named := by
    change (s.campaign_runs.reload .default).value.Named
    rw [Persistent.reload, if_pos hpath]
    exact hnamed
  cases hmoves with
  | crash label exec hexec hdown => exact hcrashed exec
  | abandon catalog run_namespace now disk hserving hready => exact hcrashed _
  | startup catalog run_namespace now disk hserving hready hvalid =>
    intro run hrun
    obtain ⟨old, hold, rfl⟩ := List.mem_map.mp hrun
    refine Named.of_steps (hnamed old hold) ?_
    unfold CampaignRun.recover
    split
    · rfl
    · exact CampaignRun.set_last_steps _ _
  | cancel request r next hready hrequest hcancels => exact hcancels.runs ▸ hnamed
  | work index w label next hready hw hworks => exact hworks.named h hw hnamed hcondition hpath
  | _ => exact hnamed

theorem Moves.path (hmoves : s.Moves env label next) : next.campaign_runs.path = s.campaign_runs.path := by
  cases hmoves with
  | crash | abandon =>
    change (s.campaign_runs.reload .default).path = _
    unfold Persistent.reload
    split <;> rfl
  | cancel request r next hready hrequest hcancels => rw [hcancels.runs]
  | work index w label next hready hw hworks => exact hworks.frame.2.2.1
  | _ => rfl

/-- A nameless run that is launched stands in the snapshot. -/
theorem Moves.named_admission (h : s.Orderly) (hmoves : s.Moves env label next)
    (hnamed : next.campaign_runs.value.Named) : s.NamedAdmission label next := by
  cases hmoves with
  | work index w label next hready hw hworks =>
    have hnext := h.consistent.works hw hworks
    cases hworks with
    | admitted now disk run after hphase hadmission hdisk =>
      intro x hx _ hresume _
      obtain rfl := Option.some.inj (hw.symm.trans hx)
      unfold admission at hadmission
      rw [hresume, if_neg Bool.false_ne_true] at hadmission
      cases hadmission
      have hself : (s.workers.set index { w with phase := .looping })[index]? = some { w with phase := .looping } := by
        obtain ⟨hlt, -⟩ := List.getElem?_eq_some_iff.mp hw
        exact List.getElem?_set_self hlt
      obtain ⟨hget, -⟩ := hnext.active index _ hself rfl
      exact hnamed w.run (CampaignRunStore.get_some hget).1
    | reject now disk e after hphase hadmission hdisk =>
      intro x hx _ hresume _
      obtain rfl := Option.some.inj (hw.symm.trans hx)
      unfold admission at hadmission
      rw [hresume, if_neg Bool.false_ne_true] at hadmission
      cases hadmission
    | unadmitted now disk hphase hdisk => exact fun _ _ _ _ hok => absurd hok hdisk
    | _ => trivial
  | _ => trivial

theorem named_iff_loadable (h : next.Orderly) : next.campaign_runs.value.Named ↔ s.Loadable label next := by
  unfold Loadable
  rw [CampaignRunStore.validate_ok]
  exact ⟨fun hnamed => ⟨h.consistent.wellFormed, hnamed⟩, And.right⟩

end

/-- Every snapshot the control plane commits can be loaded again if and only if it
never commits the launch of a run with a nameless step. -/
theorem snapshot_loadable (env : Env) (audit_path : Bool) (catalog : Catalog) (run_namespace : RunNamespace)
    (labels : List CampaignLabel) :
    Transition.Always (step env) Loadable (initial audit_path true catalog run_namespace) labels ↔
      Transition.Always (step env) NamedAdmission (initial audit_path true catalog run_namespace) labels := by
  have hrun (labels : List CampaignLabel) : ∀ s : CampaignState, s.Orderly → s.campaign_runs.value.Named →
      s.campaign_runs.path = true →
      (Transition.Always (step env) Loadable s labels ↔ Transition.Always (step env) NamedAdmission s labels) := by
    -- One step commits a loadable snapshot exactly if it meets the condition.
    induction labels with
    | nil => exact fun _ _ _ _ => Iff.rfl
    | cons label labels ih =>
      intro s h hnamed hpath
      refine forall_congr' fun next => forall_congr' fun hstep => ?_
      have hmoves := step_moves hstep
      have hnext := h.moves hmoves
      constructor
      · rintro ⟨hloadable, hrest⟩
        have hnamed' : next.campaign_runs.value.Named := (named_iff_loadable hnext).mpr hloadable
        exact ⟨hmoves.named_admission h hnamed', (ih next hnext hnamed' (hmoves.path.trans hpath)).mp hrest⟩
      · rintro ⟨hcondition, hrest⟩
        have hnamed' := hmoves.named h hnamed hpath hcondition
        exact ⟨(named_iff_loadable hnext).mp hnamed', (ih next hnext hnamed' (hmoves.path.trans hpath)).mpr hrest⟩
  exact hrun labels _ (.initial audit_path true catalog run_namespace)
    (fun run hrun => absurd hrun List.not_mem_nil) rfl

end CampaignState

/-- A campaign whose one step has no scenario id. -/
def nameless_campaign : Campaign := ⟨"CAMP-NAMELESS", "Nameless", "", [⟨1, ""⟩]⟩

def nameless_labels (catalog : Catalog) (run_namespace : RunNamespace) : List CampaignLabel :=
  [.exec .restart, .exec (.recover "t0" (.ok ())), .startup catalog run_namespace "t1" (.ok ())] ++
    [.register_campaign .Admin nameless_campaign (.ok ()), .run_campaign .Admin "CAMP-NAMELESS" none none 1 "t2",
      .register 0, .admission 0 "t3" (.ok ())]

section

variable {catalog : Catalog} {entry : CatalogEntry}

theorem nameless_checked (hentry : catalog.get "" = some entry)
    (hrole : Role.Admin.can entry.category.required_capability = true) :
    checked_campaign catalog .Admin nameless_campaign = .ok nameless_campaign := by
  have hstep : check_step catalog .Admin none ⟨1, ""⟩ = .ok () := by
    simp [check_step, hentry, hrole]
  have hsteps : check_steps catalog .Admin none [⟨1, ""⟩] = .ok () := by
    rw [check_steps, hstep]
    rfl
  have hsorted : nameless_campaign.steps.insertionSort (fun a b => a.order ≤ b.order) = nameless_campaign.steps := rfl
  have hid : Lines.trim nameless_campaign.id.toList ≠ [] := by decide +kernel
  unfold checked_campaign
  rw [if_neg (by decide), if_neg hid, if_neg (by decide)]
  dsimp only
  rw [hsorted]
  change (check_steps catalog .Admin none [⟨1, ""⟩] >>= fun _ => _) = _
  rw [hsteps]
  rfl

theorem nameless_authorized (hentry : catalog.get "" = some entry)
    (hrole : Role.Admin.can entry.category.required_capability = true) {run : CampaignRun}
    (hsteps : run.steps = nameless_campaign.steps) : authorized catalog run .Admin = true := by
  have hall : authorize_steps catalog .Admin nameless_campaign.steps = .ok () := by
    simp [authorize_steps, nameless_campaign, hentry, hrole]
  unfold authorized authorize
  rw [hsteps, hall]
  decide

theorem nameless_found :
    (CampaignCatalog.seeded.register nameless_campaign).get "CAMP-NAMELESS" = some nameless_campaign := by
  decide +kernel

/-- The nameless run is registered, launched and committed. -/
theorem nameless_committed (hentry : catalog.get "" = some entry)
    (hrole : Role.Admin.can entry.category.required_capability = true) (run_namespace : RunNamespace) :
    ∃ s, Transition.run (CampaignState.step blank_env) (.initial true true catalog run_namespace)
        (nameless_labels catalog run_namespace) = some s ∧
      ∃ run ∈ s.campaign_runs.value.runs, run.steps = nameless_campaign.steps := by
  let run := CampaignRun.queued (next_campaign_run_id run_namespace 1) nameless_campaign .Admin none none "t2"
  have hchecked := nameless_checked hentry hrole
  have hauthorized : authorized catalog run .Admin = true := nameless_authorized hentry hrole rfl
  obtain ⟨exec, hserving⟩ : ∃ exec, Transition.run (CampaignState.step blank_env)
      (.initial true true catalog run_namespace)
      [.exec .restart, .exec (.recover "t0" (.ok ())), .startup catalog run_namespace "t1" (.ok ())] =
        some { CampaignState.initial true true catalog run_namespace with exec := exec, ready := true } := ⟨_, rfl⟩
  let ready : CampaignState := { CampaignState.initial true true catalog run_namespace with exec := exec, ready :=
    true }
  let registered : CampaignState :=
    { ready with campaigns := ⟨CampaignCatalog.seeded.register nameless_campaign, true⟩ }
  have hregister : ready.step blank_env (.register_campaign .Admin nameless_campaign (.ok ())) = some registered := by
    have hadded : checked_campaign ready.catalog .Admin nameless_campaign = .ok nameless_campaign := hchecked
    have hadding : ready.register_campaign .Admin nameless_campaign (.ok ()) = _ :=
      CampaignState.register_campaign_ok hadded
    exact hadding
  let launched : CampaignState :=
    { registered with issued := [run.id], workers := [⟨run, .Admin, false, .default, .launched⟩] }
  have hlaunch : registered.step blank_env (.run_campaign .Admin "CAMP-NAMELESS" none none 1 "t2") = some launched := by
    have hfound : registered.campaigns.value.get "CAMP-NAMELESS" = some nameless_campaign := nameless_found
    have hfresh : run.id ∉ registered.issued := List.not_mem_nil
    have hcan : authorized registered.catalog run .Admin = true := hauthorized
    exact CampaignState.run_campaign_ok hfound rfl hfresh hcan
  let held : CampaignState :=
    { launched with workers := [⟨run, .Admin, false, .default, .registered⟩], controls := [(run.id, 0)] }
  have hheld : launched.step blank_env (.register 0) = some held := rfl
  let admitted : CampaignState :=
    { held with
      workers := [⟨run, .Admin, false, .default, .looping⟩]
      campaign_runs := ⟨CampaignRunStore.default.insert run, true⟩ }
  have hadmitted : held.step blank_env (.admission 0 "t3" (.ok ())) = some admitted := rfl
  refine ⟨admitted, Transition.run_append_eq_some.mpr ⟨ready, hserving, ?_⟩, run, ?_, rfl⟩
  · exact Transition.run_cons_eq_some.mpr ⟨registered, hregister, Transition.run_cons_eq_some.mpr ⟨launched, hlaunch,
      Transition.run_cons_eq_some.mpr ⟨held, hheld, Transition.run_cons_eq_some.mpr ⟨admitted, hadmitted, rfl⟩⟩⟩⟩
  · have hplanned : Planned nameless_campaign.steps := ⟨by decide, by decide, by decide⟩
    have hid := CampaignState.next_campaign_run_id_ne run_namespace 1
    have hopen : run.is_settled = false :=
      (CampaignState.queued_wellFormed hid hplanned .Admin none none "t2").2.open_run
    have hfresh : CampaignRunStore.default.get run.id = none := rfl
    have hwrites := CampaignRunStore.writes_insert CampaignRunStore.default_wellFormed.unique hfresh
    exact (CampaignRunStore.get_some (hwrites.stored hopen)).1

end

/-- A manifest with an empty id, which nothing forbids. -/
def nameless_manifest : ScenarioManifest :=
  { latency_manifest "lo0" with metadata := ⟨"", "Nameless", .Chaos, none, none, none, "medium", none⟩ }

def nameless_text : String :=
  "\x7b" ++ ("\"apiVersion\":\"asmodeus.io/v1alpha1\",\"kind\":\"AttackScenario\",\"metadata\":" ++
    "\x7b\"id\":\"\",\"name\":\"Nameless\",\"category\":\"chaos\"\x7d,\"spec\":" ++
    "\x7b\"safety\":\x7b\x7d,\"action\":\x7b\"nature\":\"synthetic\",\"type\":\"latency_spike\"," ++
    "\"parameters\":\x7b\"iface\":\"lo0\"\x7d") ++ "\x7d\x7d\x7d"

def nameless_serde : Serde where
  from_str text := if text = nameless_text.toList then .ok nameless_manifest else .error "expected value"
  from_value _ := .error "expected value"
  parse_f64 _ := none

def nameless_catalog : Catalog :=
  (latency_seeded.load_from_dir latency_sign nameless_serde (.listed [.ok ⟨true, some "json", some nameless_text⟩])).1

theorem nameless_manifest_facts : validate_manifest nameless_manifest = .ok () ∧
    ExecutionPlan.from_manifest nameless_manifest = .ok (latency_plan "lo0") := by
  decide +kernel

theorem nameless_parsed : parse_and_validate_manifest nameless_serde nameless_text = .ok nameless_manifest := by
  have hopen : nameless_text.toList.head? = some '\x7b' := by
    rw [nameless_text, String.toList_append, String.toList_append]
    rfl
  have hclose : nameless_text.toList.getLast? = some '\x7d' := by
    have hend : "\x7d\x7d\x7d".toList.getLast? = some '\x7d' := by decide
    rw [nameless_text, String.toList_append, List.getLast?_append, hend]
    rfl
  exact parsed_json hopen hclose (by simp only [nameless_serde, if_true]) nameless_manifest_facts.1

theorem nameless_catalog_get : ∃ entry, nameless_catalog.get "" = some entry ∧ entry.category = .Chaos := by
  let entry := external_entry nameless_text nameless_manifest (latency_plan "lo0")
    (latency_seeded.sign_external latency_sign (Utf8.encode nameless_text.toList))
  have hread : latency_seeded.read_item latency_sign nameless_serde ⟨true, some "json", some nameless_text⟩ =
      .ok (some entry) := Catalog.read_json_item latency_seeded nameless_parsed nameless_manifest_facts.2
  refine ⟨entry, ?_, rfl⟩
  rw [nameless_catalog, Catalog.load_from_dir, Catalog.load_items, hread]
  exact KeyedList.find_upsert_self latency_seeded.entries entry

/-- A step without a scenario id is registered, launched and committed, and the
snapshot is refused at the next start. -/
theorem nameless_snapshot_refused : ∃ (catalog : Catalog) (run_namespace : RunNamespace) (s : CampaignState),
    catalog.Built latency_sign runner.default_is_valid builtin_vec nameless_serde ∧
    Transition.run (CampaignState.step blank_env) (.initial true true catalog run_namespace)
      (nameless_labels catalog run_namespace) = some s ∧
    s.campaign_runs.value.validate ≠ .ok () := by
  obtain ⟨entry, hentry, hcategory⟩ := nameless_catalog_get
  have hrole : Role.Admin.can entry.category.required_capability = true := by
    rw [hcategory]
    decide
  have hseeded : latency_seeded.Built latency_sign runner.default_is_valid builtin_vec nameless_serde :=
    .seeded runner.default_key []
  obtain ⟨s, hrun, run, hmem, hsteps⟩ := nameless_committed hentry hrole latency_namespace
  refine ⟨nameless_catalog, latency_namespace, s, hseeded.loaded _, hrun, fun hvalid => ?_⟩
  have hnamed := (CampaignRunStore.validate_ok.mp hvalid).2 run hmem
  rw [CampaignRun.Named, hsteps] at hnamed
  exact hnamed ⟨1, ""⟩ List.mem_cons_self rfl

end asmodeus.control_plane
