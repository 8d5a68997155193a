import Asmodeus.ControlPlane.Catalog.Loading
import Asmodeus.ControlPlane.Matrix
import Asmodeus.ControlPlane.Reporting
import Asmodeus.Dsl.Spelling

open asmodeus.common asmodeus.dsl asmodeus.telemetry

namespace asmodeus.control_plane

/-- The same entry, or that of an accepted manifest whose technique ids are in
another case. -/
inductive CatalogEntry.Respelled : CatalogEntry → CatalogEntry → Prop
  | refl (entry : CatalogEntry) : Respelled entry entry
  | external {m m' : ScenarioManifest} {plan : ExecutionPlan} (content content' : String)
    (signature signature' : List UInt8) (haccepted : Accepted m) (hplan : ExecutionPlan.from_manifest m = .ok plan)
    (hm : m.Respelled m') :
    Respelled (external_entry content m plan signature) (external_entry content' m' plan signature')

/-- The scenario lists of every control of a compliance report. -/
def scenario_lists (now : String) (entries : List CatalogEntry) (records : List AuditRecord) :
    List (List String × List String × List String) :=
  (ComplianceReport.generate now (entries.map scenario_meta) records).controls.map fun control =>
    (control.matching_scenarios, control.behavioral_scenarios, control.marker_only_scenarios)

/-- The two catalogs count as much in the matrix, and the controls list the same of
their scenarios. -/
structure SameReports (before after : List CatalogEntry) : Prop where
  matrix : ∀ role matrix matrix', mitre_matrix role before = .ok matrix → mitre_matrix role after = .ok matrix' →
    matrix.covered_techniques_count = matrix'.covered_techniques_count ∧
      matrix.techniques_referenced_count = matrix'.techniques_referenced_count ∧
      matrix.behavioral_coverage_count = matrix'.behavioral_coverage_count ∧
      matrix.marker_only_techniques_count = matrix'.marker_only_techniques_count
  controls : ∀ now records, scenario_lists now before records = scenario_lists now after records

/-- The technique a compliance report takes for the primary one. -/
def CatalogEntry.primary (entry : CatalogEntry) : String := (scenario_meta entry).mitre_technique

/-- Where a control names a technique of the scenario, the scenario spells one that it
names as the taxonomy does. -/
structure CatalogEntry.Shown (entry : CatalogEntry) (techniques : List String) : Prop where
  matching : (∃ r ∈ entry.technique_refs, pinned_id r.technique_id ∈ techniques) →
    (∃ r ∈ entry.technique_refs, r.technique_id ∈ techniques) ∨ entry.primary ∈ techniques
  behavioral : (∃ r ∈ entry.technique_refs, r.fidelity = .Behavioral ∧ pinned_id r.technique_id ∈ techniques) →
    ∃ r ∈ entry.technique_refs, r.fidelity = .Behavioral ∧ r.technique_id ∈ techniques

/-- Every technique is spelled in one way, and no control misses one for its spelling. -/
structure Spelled (entries : List CatalogEntry) : Prop where
  one_spelling : ∀ id ∈ referenced_ids entries, ∀ id' ∈ referenced_ids entries,
    Text.eqIgnoreAsciiCase id id' = true → id = id'
  shown : ∀ entry ∈ entries, ∀ d ∈ controls_defs, entry.Shown d.techniques

/-- The entry with its technique ids as the taxonomy spells them. -/
def CatalogEntry.pinned (entry : CatalogEntry) : CatalogEntry :=
  { entry with technique_refs := entry.technique_refs.map TechniqueRef.pinned }

/-- Two entries that differ in the case of technique ids alone. -/
structure CatalogEntry.SameScenario (entry entry' : CatalogEntry) : Prop where
  id : entry'.id = entry.id
  primary : entry'.primary = entry.primary
  fidelity : entry'.fidelity = entry.fidelity
  refs : List.Forall₂ TechniqueRef.Respelled entry.technique_refs entry'.technique_refs

theorem CatalogEntry.Respelled.same {entry entry' : CatalogEntry} (h : entry.Respelled entry') :
    entry.SameScenario entry' := by
  cases h with
  | refl => exact ⟨rfl, rfl, rfl, List.forall₂_same.mpr fun r _ => .refl r⟩
  | @external m m' plan content content' signature signature' haccepted hplan hm =>
    refine ⟨?_, ?_, hm.effective_fidelity, hm.resolved⟩
    · change m'.metadata.id = m.metadata.id
      rw [hm.rest]
    · change ((recorded_technique m'.primary_technique).map Prod.fst).getD "" = _
      rw [hm.primary]
      rfl

theorem builtin_pinned : ∀ b ∈ builtins,
    (b.entry [] []).technique_refs.map TechniqueRef.pinned = (b.entry [] []).technique_refs := by
  decide +kernel

theorem pinned_eq_self {entry : CatalogEntry}
    (h : entry.technique_refs.map TechniqueRef.pinned = entry.technique_refs) :
    entry.pinned = entry := by
  unfold CatalogEntry.pinned
  rw [h]

theorem builtin_entry_pinned {b : Builtin} (hb : b ∈ builtins) (manifest signature : List UInt8) :
    (b.entry manifest signature).pinned = b.entry manifest signature := pinned_eq_self (builtin_pinned b hb)

/-- What the seed and the loader make of a manifest has a respelling as the taxonomy
spells it. -/
theorem Catalog.Sourced.respelled_pinned {to_vec : ScenarioManifest → List UInt8} {serde : Serde} {entry : CatalogEntry}
    (h : Catalog.Sourced to_vec serde entry) : entry.Respelled entry.pinned := by
  cases h with
  | builtin b signature hb hentry =>
    have hsame : entry.pinned = entry := hentry ▸ builtin_entry_pinned hb _ signature
    rw [hsame]
    exact .refl entry
  | external content m plan signature hmanifest hplan hentry =>
    have hm := m.respelled_pinned
    have hpinned : entry.pinned = external_entry content m.pinned plan signature := by
      rw [hentry]
      unfold CatalogEntry.pinned external_entry
      rw [hm.primary, hm.effective_fidelity, ScenarioManifest.resolved_pinned]
      rfl
    rw [hpinned, hentry]
    exact .external content content signature signature (parse_and_validate_manifest_ok hmanifest).2 hplan hm

/-- Controls name their techniques as the taxonomy does. -/
theorem control_techniques_pinned : ∀ d ∈ controls_defs, ∀ t ∈ d.techniques,
    is_known_id t = true ∧ pinned_id t = t := by
  decide +kernel

section

variable {entry entry' : CatalogEntry} {techniques : List String}

theorem matches_iff : (scenario_meta entry).matches_any techniques = true ↔
    (∃ r ∈ entry.technique_refs, r.technique_id ∈ techniques) ∨ entry.primary ∈ techniques := by
  simp [ScenarioMeta.matches_any, scenario_meta, CatalogEntry.primary]

theorem behavioral_iff : (scenario_meta entry).is_behavioral_for_any techniques = true ↔
    (∃ r ∈ entry.technique_refs, r.fidelity = .Behavioral ∧ r.technique_id ∈ techniques) ∨
      (entry.technique_refs = [] ∧ entry.fidelity = .Behavioral ∧ entry.primary ∈ techniques) := by
  have htext : ∀ fidelity : Fidelity, fidelity.as_str = "behavioral" ↔ fidelity = .Behavioral :=
    fun fidelity => ⟨fidelity_behavioral_text, fun h => h ▸ rfl⟩
  unfold ScenarioMeta.is_behavioral_for_any ScenarioMeta.is_behavioral
  split
  · rename_i hrefs
    have hrefs : entry.technique_refs ≠ [] := by simpa [scenario_meta] using hrefs
    simp [scenario_meta, htext, hrefs]
  · rename_i hrefs
    have hrefs : entry.technique_refs = [] := by simpa [scenario_meta] using hrefs
    simp [scenario_meta, htext, hrefs, CatalogEntry.primary]

variable (hpinned : ∀ t ∈ techniques, is_known_id t = true ∧ pinned_id t = t)

include hpinned

/-- What a control asks of a reference is a matter of its technique. -/
theorem named_congr {r r' : TechniqueRef} (h : r.Respelled r') :
    pinned_id r.technique_id ∈ techniques ↔ pinned_id r'.technique_id ∈ techniques := by
  by_cases hknown : is_known_id r.technique_id = true
  · rw [pinned_id_congr hknown h.technique_id]
  · have hknown' : ¬is_known_id r'.technique_id = true := by rwa [is_known_case h.technique_id]
    rw [← is_known_pinned_id] at hknown hknown'
    exact ⟨fun hmem => absurd (hpinned _ hmem).1 hknown, fun hmem => absurd (hpinned _ hmem).1 hknown'⟩

/-- A shown scenario matches a control that names one of its techniques. -/
theorem shown_matches (hshown : entry.Shown techniques) : (scenario_meta entry).matches_any techniques = true ↔
    (∃ r ∈ entry.technique_refs, pinned_id r.technique_id ∈ techniques) ∨ entry.primary ∈ techniques := by
  rw [matches_iff]
  constructor
  · rintro (⟨r, hr, hmem⟩ | hprimary)
    · exact Or.inl ⟨r, hr, by rwa [(hpinned _ hmem).2]⟩
    · exact Or.inr hprimary
  · rintro (hnamed | hprimary)
    · exact hshown.matching hnamed
    · exact Or.inr hprimary

theorem shown_behavioral (hshown : entry.Shown techniques) :
    (scenario_meta entry).is_behavioral_for_any techniques = true ↔
      (∃ r ∈ entry.technique_refs, r.fidelity = .Behavioral ∧ pinned_id r.technique_id ∈ techniques) ∨
        (entry.technique_refs = [] ∧ entry.fidelity = .Behavioral ∧ entry.primary ∈ techniques) := by
  rw [behavioral_iff]
  refine or_congr_left ⟨?_, hshown.behavioral⟩
  rintro ⟨r, hr, hbehavioral, hmem⟩
  exact ⟨r, hr, hbehavioral, by rwa [(hpinned _ hmem).2]⟩

theorem named_iff (hsame : entry.SameScenario entry') :
    (∃ r ∈ entry.technique_refs, pinned_id r.technique_id ∈ techniques) ↔
      ∃ r ∈ entry'.technique_refs, pinned_id r.technique_id ∈ techniques :=
  exists_mem_congr hsame.refs fun _ _ hr => named_congr hpinned hr

theorem exercised_iff (hsame : entry.SameScenario entry') :
    (∃ r ∈ entry.technique_refs, r.fidelity = .Behavioral ∧ pinned_id r.technique_id ∈ techniques) ↔
      ∃ r ∈ entry'.technique_refs, r.fidelity = .Behavioral ∧ pinned_id r.technique_id ∈ techniques :=
  exists_mem_congr hsame.refs fun _ _ hr => and_congr (by rw [hr.fidelity]) (named_congr hpinned hr)

omit hpinned in
theorem no_refs_iff (hsame : entry.SameScenario entry') : entry.technique_refs = [] ↔ entry'.technique_refs = [] := by
  rw [← List.length_eq_zero_iff, ← List.length_eq_zero_iff, hsame.refs.length_eq]

/-- A shown spelling of a scenario matches what any spelling of it does, and as
faithfully. -/
theorem judged_mono (hsame : entry.SameScenario entry') (hshown' : entry'.Shown techniques) :
    ((scenario_meta entry).matches_any techniques = true → (scenario_meta entry').matches_any techniques = true) ∧
      ((scenario_meta entry).is_behavioral_for_any techniques = true →
        (scenario_meta entry').is_behavioral_for_any techniques = true) := by
  rw [matches_iff, behavioral_iff, shown_matches hpinned hshown', shown_behavioral hpinned hshown',
    ← named_iff hpinned hsame, ← exercised_iff hpinned hsame, ← no_refs_iff hsame, hsame.primary, hsame.fidelity]
  constructor
  · rintro (⟨r, hr, hmem⟩ | hprimary)
    · exact Or.inl ⟨r, hr, by rwa [(hpinned _ hmem).2]⟩
    · exact Or.inr hprimary
  · rintro (⟨r, hr, hbehavioral, hmem⟩ | hprimary)
    · exact Or.inl ⟨r, hr, hbehavioral, by rwa [(hpinned _ hmem).2]⟩
    · exact Or.inr hprimary

/-- Two shown spellings of a scenario match the same controls, and as faithfully. -/
theorem agree_of_shown (hsame : entry.SameScenario entry') (hshown : entry.Shown techniques)
    (hshown' : entry'.Shown techniques) :
    (scenario_meta entry').matches_any techniques = (scenario_meta entry).matches_any techniques ∧
      (scenario_meta entry').is_behavioral_for_any techniques =
        (scenario_meta entry).is_behavioral_for_any techniques := by
  constructor
  · rw [Bool.eq_iff_iff, shown_matches hpinned hshown, shown_matches hpinned hshown', named_iff hpinned hsame,
      hsame.primary]
  · rw [Bool.eq_iff_iff, shown_behavioral hpinned hshown, shown_behavioral hpinned hshown',
      exercised_iff hpinned hsame, no_refs_iff hsame, hsame.primary, hsame.fidelity]

/-- A spelling that matches what a shown one does is shown itself. -/
theorem shown_of_judged (hsame : entry.SameScenario entry') (hshown' : entry'.Shown techniques)
    (hmatches : (scenario_meta entry').matches_any techniques = true →
      (scenario_meta entry).matches_any techniques = true)
    (hbehavioral : (scenario_meta entry').matches_any techniques = true →
      (scenario_meta entry').is_behavioral_for_any techniques = true →
        (scenario_meta entry).is_behavioral_for_any techniques = true) : entry.Shown techniques := by
  have hnamed' : (∃ r ∈ entry.technique_refs, pinned_id r.technique_id ∈ techniques) →
      (scenario_meta entry').matches_any techniques = true := fun h =>
    (shown_matches hpinned hshown').mpr (Or.inl ((named_iff hpinned hsame).mp h))
  refine ⟨fun h => matches_iff.mp (hmatches (hnamed' h)), fun h => ?_⟩
  have hexercised := (shown_behavioral hpinned hshown').mpr (Or.inl ((exercised_iff hpinned hsame).mp h))
  obtain ⟨r, hr, -, hmem⟩ := h
  obtain hfound | ⟨hempty, -⟩ := behavioral_iff.mp (hbehavioral (hnamed' ⟨r, hr, hmem⟩) hexercised)
  · exact hfound
  · rw [hempty] at hr
    cases hr

end

theorem pinned_shown (entry : CatalogEntry) (techniques : List String) : entry.pinned.Shown techniques := by
  constructor
  · rintro ⟨r', hr', hmem⟩
    obtain ⟨r, -, rfl⟩ := List.mem_map.mp hr'
    exact Or.inl ⟨_, hr', by rwa [TechniqueRef.pinned, pinned_id_idem] at hmem⟩
  · rintro ⟨r', hr', hbehavioral, hmem⟩
    obtain ⟨r, -, rfl⟩ := List.mem_map.mp hr'
    exact ⟨_, hr', hbehavioral, by rwa [TechniqueRef.pinned, pinned_id_idem] at hmem⟩

section

variable {counted : Fidelity → Bool} {entries entries' : List CatalogEntry}

theorem mem_image_spellings {id : String} : id ∈ (spellings counted entries).image pinned_id ↔
    ∃ r ∈ entries.flatMap fun e => e.technique_refs,
      is_known_id r.technique_id = true ∧ counted r.fidelity = true ∧ pinned_id r.technique_id = id := by
  simp only [Finset.mem_image, mem_spellings]
  constructor
  · rintro ⟨_, ⟨r, hr, hknown, hcounted, rfl⟩, hid⟩
    exact ⟨r, hr, hknown, hcounted, hid⟩
  · rintro ⟨r, hr, hknown, hcounted, hid⟩
    exact ⟨_, ⟨r, hr, hknown, hcounted, rfl⟩, hid⟩

/-- Up to their spelling two respelled catalogs reference the same techniques. -/
theorem image_spellings (h : List.Forall₂ CatalogEntry.Respelled entries entries') :
    (spellings counted entries).image pinned_id = (spellings counted entries').image pinned_id := by
  have hrefs : List.Forall₂ TechniqueRef.Respelled (entries.flatMap fun e => e.technique_refs)
      (entries'.flatMap fun e => e.technique_refs) :=
    List.rel_flatMap h fun e e' hentry => hentry.same.refs
  ext id
  rw [mem_image_spellings, mem_image_spellings]
  refine exists_mem_congr hrefs fun r r' hr => ?_
  rw [is_known_case hr.technique_id, hr.fidelity]
  refine and_congr_right fun hknown => ?_
  rw [pinned_id_congr hknown hr.technique_id]

theorem spellings_subset : spellings counted entries ⊆ referenced_ids entries := by
  intro id hid
  obtain ⟨r, hr, hknown, -, hspelling⟩ := mem_spellings.mp hid
  exact mem_spellings.mpr ⟨r, hr, hknown, rfl, hspelling⟩

theorem referenced_known {id : String} (hid : id ∈ referenced_ids entries) : is_known_id id = true := by
  obtain ⟨r, -, hknown, -, rfl⟩ := mem_spellings.mp hid
  exact hknown

/-- One spelling for each technique makes pinning one-to-one. -/
theorem injOn_iff : Set.InjOn pinned_id (referenced_ids entries) ↔ ∀ id ∈ referenced_ids entries,
    ∀ id' ∈ referenced_ids entries, Text.eqIgnoreAsciiCase id id' = true → id = id' := by
  constructor
  · intro hinj id hid id' hid' hcase
    exact hinj hid hid' (pinned_id_congr (referenced_known hid) hcase)
  · intro hone id hid id' hid' hpinned
    have hcase := Text.eqIgnoreAsciiCase_iff.mp (pinned_id_case id)
    have hcase' := Text.eqIgnoreAsciiCase_iff.mp (pinned_id_case id')
    rw [hpinned] at hcase
    exact hone id hid id' hid' (Text.eqIgnoreAsciiCase_iff.mpr (hcase.symm.trans hcase'))

theorem Spelled.card (hspelled : Spelled entries) (counted : Fidelity → Bool) :
    (spellings counted entries).card = ((spellings counted entries).image pinned_id).card :=
  (Finset.card_image_of_injOn ((injOn_iff.mpr hspelled.one_spelling).mono
    (Finset.coe_subset.mpr spellings_subset))).symm

/-- There are no more techniques than the taxonomy pins. -/
theorem image_card_le : ((referenced_ids entries).image pinned_id).card ≤ ALL_DEFS.length := by
  have hsubset : (referenced_ids entries).image pinned_id ⊆ (ALL_DEFS.map MitreTechnique.id).toFinset := by
    intro id hid
    obtain ⟨spelling, hspelling, rfl⟩ := Finset.mem_image.mp hid
    exact List.mem_toFinset.mpr (pinned_id_mem (referenced_known hspelling))
  refine (Finset.card_le_card hsubset).trans ((List.toFinset_card_le _).trans ?_)
  rw [List.length_map]

/-- The counts of the matrix depend on the numbers of spellings alone. -/
theorem counts_congr {role : Role} {matrix matrix' : MitreMatrix}
    (hcard : ∀ counted, (spellings counted entries).card = (spellings counted entries').card)
    (hmatrix : mitre_matrix role entries = .ok matrix) (hmatrix' : mitre_matrix role entries' = .ok matrix') :
    matrix.covered_techniques_count = matrix'.covered_techniques_count ∧
      matrix.techniques_referenced_count = matrix'.techniques_referenced_count ∧
      matrix.behavioral_coverage_count = matrix'.behavioral_coverage_count ∧
      matrix.marker_only_techniques_count = matrix'.marker_only_techniques_count := by
  obtain ⟨hreferenced, hcovered, hbehavioral, hmarker⟩ := mitre_matrix_counts hmatrix
  obtain ⟨hreferenced', hcovered', hbehavioral', hmarker'⟩ := mitre_matrix_counts hmatrix'
  have hreferenced_card : (referenced_ids entries).card = (referenced_ids entries').card := hcard _
  have hbehavioral_card : (behavioral_ids entries).card = (behavioral_ids entries').card := hcard _
  omega

/-- The scenarios a control lists. -/
def control_lists (d : ControlDef) (entries : List CatalogEntry) : List String × List String × List String :=
  let matching := entries.filter fun e => (scenario_meta e).matches_any d.techniques
  (matching.map fun e => e.id,
    (matching.filter fun e => (scenario_meta e).is_behavioral_for_any d.techniques).map fun e => e.id,
    (matching.filter fun e => !(scenario_meta e).is_behavioral_for_any d.techniques).map fun e => e.id)

theorem scenario_lists_eq (now : String) (entries : List CatalogEntry) (records : List AuditRecord) :
    scenario_lists now entries records = controls_defs.map fun d => control_lists d entries := by
  unfold scenario_lists ComplianceReport.generate
  dsimp only
  rw [List.map_map]
  refine List.map_congr_left fun d _ => ?_
  simp only [Function.comp_apply, ControlDef.evaluate, control_lists, List.filter_map, List.map_map]
  rfl

/-- All that a control takes of an entry. -/
def judged (d : ControlDef) (e : CatalogEntry) : String × Bool × Bool :=
  (e.id, (scenario_meta e).matches_any d.techniques, (scenario_meta e).is_behavioral_for_any d.techniques)

theorem control_lists_judged (d : ControlDef) (entries : List CatalogEntry) : control_lists d entries =
    let matching := (entries.map (judged d)).filter fun j => j.2.1
    (matching.map Prod.fst, (matching.filter fun j => j.2.2).map Prod.fst,
      (matching.filter fun j => !j.2.2).map Prod.fst) := by
  simp only [control_lists, List.filter_map, List.map_map]
  rfl

theorem control_lists_congr {d : ControlDef} (hd : d ∈ controls_defs)
    (h : List.Forall₂ CatalogEntry.Respelled entries entries') (hshown : ∀ e ∈ entries, e.Shown d.techniques)
    (hshown' : ∀ e ∈ entries', e.Shown d.techniques) : control_lists d entries = control_lists d entries' := by
  have hjudged : entries.map (judged d) = entries'.map (judged d) := by
    induction h with
    | nil => rfl
    | cons he _ ih =>
      rw [List.forall_mem_cons] at hshown hshown'
      obtain ⟨hmatching, hbehavioral⟩ := agree_of_shown (control_techniques_pinned d hd) he.same hshown.1 hshown'.1
      rw [List.map_cons, List.map_cons, ih hshown.2 hshown'.2, judged, judged, he.same.id, hmatching, hbehavioral]
  rw [control_lists_judged, control_lists_judged, hjudged]

/-- Where counts that can only grow from one list to the other stay the same, nothing has
grown. -/
theorem countP_tight {α : Type} {R : α → α → Prop} {p q : α → Bool} {l l' : List α} (h : List.Forall₂ R l l')
    (hpq : ∀ a b, R a b → p a = true → q b = true) : l.countP p ≤ l'.countP q ∧
      (l.countP p = l'.countP q → List.Forall₂ (fun a b => R a b ∧ (q b = true → p a = true)) l l') := by
  induction h with
  | nil => exact ⟨le_rfl, fun _ => List.Forall₂.nil⟩
  | @cons a b l l' hab _ ih =>
    obtain ⟨hle, htight⟩ := ih
    have hmono := hpq a b hab
    rw [List.countP_cons, List.countP_cons]
    by_cases hp : p a = true
    · rw [if_pos hp, if_pos (hmono hp)]
      exact ⟨by omega, fun heq => List.Forall₂.cons ⟨hab, fun _ => hp⟩ (htight (by omega))⟩
    · rw [if_neg hp]
      by_cases hq : q b = true
      · rw [if_pos hq]
        exact ⟨by omega, fun heq => by omega⟩
      · rw [if_neg hq]
        exact ⟨by omega, fun heq => List.Forall₂.cons ⟨hab, fun h => absurd h hq⟩ (htight (by omega))⟩

/-- A control that lists as much of a catalog as of a shown respelling shows it all. -/
theorem shown_of_lists {d : ControlDef} (hd : d ∈ controls_defs)
    (h : List.Forall₂ CatalogEntry.Respelled entries entries') (hshown' : ∀ e ∈ entries', e.Shown d.techniques)
    (hlists : control_lists d entries = control_lists d entries') : ∀ e ∈ entries, e.Shown d.techniques := by
  have hpinned := control_techniques_pinned d hd
  have hmatching : entries.countP (fun e => (scenario_meta e).matches_any d.techniques) =
      entries'.countP fun e => (scenario_meta e).matches_any d.techniques := by
    have hlength := congrArg (fun lists : List String × List String × List String => lists.1.length) hlists
    simpa [control_lists, ← List.countP_eq_length_filter] using hlength
  have hbehavioral : entries.countP (fun e => (scenario_meta e).is_behavioral_for_any d.techniques &&
      (scenario_meta e).matches_any d.techniques) = entries'.countP fun e =>
        (scenario_meta e).is_behavioral_for_any d.techniques && (scenario_meta e).matches_any d.techniques := by
    have hlength := congrArg (fun lists : List String × List String × List String => lists.2.1.length) hlists
    simpa [control_lists, List.filter_filter, ← List.countP_eq_length_filter] using hlength
  have hpairs : List.Forall₂ (fun e e' => e'.Shown d.techniques ∧ CatalogEntry.Respelled e e') entries entries' :=
    ((List.forall₂_and_left entries' entries).mpr ⟨hshown', h.flip⟩).flip
  have hmatched := (countP_tight hpairs fun e e' he => (judged_mono hpinned he.2.same he.1).1).2 hmatching
  have hjudged := (countP_tight hmatched fun e e' he hboth => ?_).2 hbehavioral
  · intro e he
    obtain ⟨e', -, ⟨⟨hshown, hrespelled⟩, hmatches⟩, hboth⟩ := mem_right hjudged.flip he
    refine shown_of_judged hpinned hrespelled.same hshown hmatches fun hm hb => ?_
    exact (Bool.and_eq_true_iff.mp (hboth (Bool.and_eq_true_iff.mpr ⟨hb, hm⟩))).1
  · obtain ⟨hb, hm⟩ := Bool.and_eq_true_iff.mp hboth
    obtain ⟨hmono, hmono'⟩ := judged_mono hpinned he.1.2.same he.1.1
    exact Bool.and_eq_true_iff.mpr ⟨hmono' hb, hmono hm⟩

end

theorem pinned_spelled (entries : List CatalogEntry) : Spelled (entries.map CatalogEntry.pinned) where
  one_spelling := by
    refine injOn_iff.mp fun id hid id' hid' hpinned => ?_
    have hself : ∀ id ∈ referenced_ids (entries.map CatalogEntry.pinned), pinned_id id = id := by
      intro id hid
      obtain ⟨r', hr', -, -, rfl⟩ := mem_spellings.mp hid
      obtain ⟨e', he', hr'⟩ := List.mem_flatMap.mp hr'
      obtain ⟨e, -, rfl⟩ := List.mem_map.mp he'
      obtain ⟨r, -, rfl⟩ := List.mem_map.mp hr'
      exact pinned_id_idem r.technique_id
    rwa [hself id hid, hself id' hid'] at hpinned
  shown := by
    intro e he d hd
    obtain ⟨e, -, rfl⟩ := List.mem_map.mp he
    exact pinned_shown e d.techniques

theorem encrypt_refs_pinned : (encrypt_manifest "T1486").resolved_technique_refs.map TechniqueRef.pinned =
    (encrypt_manifest "T1486").resolved_technique_refs := by
  decide +kernel

theorem encrypt_entry_pinned : (encrypt_entry "T1486").pinned = encrypt_entry "T1486" :=
  pinned_eq_self encrypt_refs_pinned

theorem encrypt_spelled : Spelled (encrypt_catalog "T1486").entries := by
  have hpinned : (encrypt_catalog "T1486").entries.map CatalogEntry.pinned = (encrypt_catalog "T1486").entries := by
    rw [encrypt_entries List.mem_cons_self, List.map_append]
    rw [List.map_singleton, encrypt_entry_pinned]
    refine congrArg (· ++ [encrypt_entry "T1486"]) ((List.map_congr_left fun e he => ?_).trans (List.map_id _))
    obtain ⟨b, hb, rfl⟩ := List.mem_map.mp he
    exact builtin_entry_pinned hb _ _
  rw [← hpinned]
  exact pinned_spelled _

theorem encrypt_case : ∀ id ∈ probed_spellings, ∀ id' ∈ probed_spellings, Text.eqIgnoreAsciiCase id id' = true := by
  decide

theorem encrypt_respelled {id id' : String} (hid : id ∈ probed_spellings) (hid' : id' ∈ probed_spellings) :
    List.Forall₂ CatalogEntry.Respelled (encrypt_catalog id).entries (encrypt_catalog id').entries := by
  have hm : (encrypt_manifest id).Respelled (encrypt_manifest id') :=
    ⟨Option.Rel.some (encrypt_case id hid id' hid'), Option.Rel.none, rfl⟩
  obtain ⟨hvalid, hplan⟩ := encrypt_facts id hid
  have hentry : (encrypt_entry id).Respelled (encrypt_entry id') :=
    .external _ _ _ _ (validate_manifest_spec hvalid) hplan hm
  rw [encrypt_entries hid, encrypt_entries hid']
  exact List.rel_append (List.forall₂_same.mpr fun e _ => .refl e) (List.Forall₂.cons hentry List.Forall₂.nil)

/-- Every catalog can be respelled well, and it reports what such a respelling reports
exactly if it is spelled well itself; then it does not reference more techniques than
there are. -/
theorem technique_case_insensitive {sign : List UInt8 → List UInt8 → Except String (List UInt8)}
    {is_valid : List UInt8 → List UInt8 → List UInt8 → Bool} {to_vec : ScenarioManifest → List UInt8} {serde : Serde}
    {catalog : Catalog} (hbuilt : catalog.Built sign is_valid to_vec serde) :
    (∃ respelled, List.Forall₂ CatalogEntry.Respelled catalog.entries respelled ∧ Spelled respelled) ∧
      ∀ respelled, List.Forall₂ CatalogEntry.Respelled catalog.entries respelled → Spelled respelled →
        ((SameReports catalog.entries respelled ∧ ∀ role matrix, mitre_matrix role catalog.entries = .ok matrix →
          matrix.techniques_referenced_count ≤ ALL_DEFS.length) ↔ Spelled catalog.entries) := by
  refine ⟨⟨catalog.entries.map CatalogEntry.pinned, ?_, pinned_spelled _⟩, fun respelled hrespelled hspelled' => ?_⟩
  · refine List.forall₂_map_right_iff.mpr (List.forall₂_same.mpr fun e he => ?_)
    exact (hbuilt.sourced e he).respelled_pinned
  constructor
  · rintro ⟨hsame, -⟩
    refine ⟨injOn_iff.mp (Finset.card_image_iff.mp ?_), fun e he d hd => ?_⟩
    · have hok : ∀ entries, mitre_matrix .Ciso entries =
          .ok ((entries.foldl MatrixTally.scenario .empty).matrix entries.length) := fun _ => rfl
      have hcount := (hsame.matrix .Ciso _ _ (hok _) (hok _)).2.1
      rw [(mitre_matrix_counts (hok _)).1, (mitre_matrix_counts (hok _)).1] at hcount
      rw [hcount, referenced_ids, referenced_ids, image_spellings hrespelled, hspelled'.card]
    · have hlists := hsame.controls "" []
      rw [scenario_lists_eq, scenario_lists_eq] at hlists
      refine shown_of_lists hd hrespelled (fun e' he' => hspelled'.shown e' he' d hd) ?_ e he
      exact List.map_inj_left.mp hlists d hd
  · intro hspelled
    refine ⟨⟨fun role matrix matrix' => ?_, fun now records => ?_⟩, ?_⟩
    · refine counts_congr fun counted => ?_
      rw [hspelled.card, hspelled'.card, image_spellings hrespelled]
    · rw [scenario_lists_eq, scenario_lists_eq]
      refine List.map_congr_left fun d hd => ?_
      exact control_lists_congr hd hrespelled (fun e he => hspelled.shown e he d hd)
        fun e he => hspelled'.shown e he d hd
    · intro role matrix hmatrix
      rw [(mitre_matrix_counts hmatrix).1, referenced_ids, hspelled.card]
      exact image_card_le

theorem encrypt_reports_agree : ∃ respelled,
    List.Forall₂ CatalogEntry.Respelled (encrypt_catalog "T1486").entries respelled ∧
      SameReports (encrypt_catalog "T1486").entries respelled := by
  obtain ⟨⟨respelled, hrespelled, hspelled⟩, hreports⟩ := technique_case_insensitive (encrypt_built "T1486")
  exact ⟨respelled, hrespelled, ((hreports respelled hrespelled hspelled).mpr encrypt_spelled).1⟩

/-- Next to the built-in scenarios a technique in the other case counts as one more, and
as one more that is exercised. -/
theorem respelled_technique_counted : ∃ (serde : Serde) (before after : Catalog),
    before.Built latency_sign (fun _ _ _ => true) builtin_vec serde ∧
      after.Built latency_sign (fun _ _ _ => true) builtin_vec serde ∧
        List.Forall₂ CatalogEntry.Respelled before.entries after.entries ∧
          ∃ matrix matrix', mitre_matrix .Ciso before.entries = .ok matrix ∧
            mitre_matrix .Ciso after.entries = .ok matrix' ∧ matrix.techniques_referenced_count = 12 ∧
              matrix'.techniques_referenced_count = 13 ∧ matrix.behavioral_coverage_count = 1 ∧
                matrix'.behavioral_coverage_count = 2 := by
  refine ⟨encrypt_serde, encrypt_catalog "T1486", encrypt_catalog "t1486", encrypt_built _, encrypt_built _,
    encrypt_respelled (by decide) (by decide), ?_⟩
  rw [encrypt_entries (by decide), encrypt_entries (by decide)]
  exact ⟨_, _, rfl, rfl, by decide +kernel, by decide +kernel, by decide +kernel, by decide +kernel⟩

end asmodeus.control_plane
