import Asmodeus.Dsl.Validation
import Mathlib.Data.List.Forall2
import Mathlib.Data.Option.Basic

namespace asmodeus.dsl

/-- The spelling of a technique id in the taxonomy. An unknown id is left as it is. -/
def pinned_id (id : String) : String := ((lookup_technique id).map MitreTechnique.id).getD id

section

variable {id other : String} {t : MitreTechnique}

/-- The lookup does not see the case of an id. -/
theorem lookup_technique_case (h : Text.eqIgnoreAsciiCase id other = true) :
    lookup_technique id = lookup_technique other := by
  unfold lookup_technique
  congr 1
  funext t
  rw [Text.eqIgnoreAsciiCase, Text.eqIgnoreAsciiCase, Text.eqIgnoreAsciiCase_iff.mp h]

theorem lookup_technique_some (h : lookup_technique id = some t) :
    t ∈ ALL_DEFS ∧ Text.eqIgnoreAsciiCase t.id id = true := by
  unfold lookup_technique at h
  exact ⟨List.mem_of_find?_eq_some h, by simpa using List.find?_some h⟩

theorem pinned_id_of_lookup (h : lookup_technique id = some t) : pinned_id id = t.id := by
  rw [pinned_id, h]
  rfl

/-- The taxonomy spells an id as its author did, up to the case. -/
theorem pinned_id_case (id : String) : Text.eqIgnoreAsciiCase (pinned_id id) id = true := by
  cases h : lookup_technique id with
  | none =>
    rw [pinned_id, h]
    exact Text.eqIgnoreAsciiCase_iff.mpr rfl
  | some t =>
    rw [pinned_id_of_lookup h]
    exact (lookup_technique_some h).2

theorem lookup_pinned_id (id : String) : lookup_technique (pinned_id id) = lookup_technique id :=
  lookup_technique_case (pinned_id_case id)

theorem is_known_pinned_id (id : String) : is_known_id (pinned_id id) = is_known_id id := by
  rw [is_known_id, lookup_pinned_id, is_known_id]

/-- A known id has one pinned spelling however its letters are cased. -/
theorem pinned_id_congr (hknown : is_known_id id = true) (h : Text.eqIgnoreAsciiCase id other = true) :
    pinned_id id = pinned_id other := by
  obtain ⟨t, ht⟩ := Option.isSome_iff_exists.mp hknown
  rw [pinned_id_of_lookup ht, pinned_id_of_lookup ((lookup_technique_case h).symm.trans ht)]

theorem pinned_id_idem (id : String) : pinned_id (pinned_id id) = pinned_id id := by
  cases h : lookup_technique id with
  | none =>
    have hself : pinned_id id = id := by rw [pinned_id, h]; rfl
    rw [hself, hself]
  | some t => rw [pinned_id_of_lookup h, pinned_id_of_lookup (((pinned_id_of_lookup h) ▸ lookup_pinned_id id).trans h)]

theorem pinned_id_mem (hknown : is_known_id id = true) : pinned_id id ∈ ALL_DEFS.map MitreTechnique.id := by
  obtain ⟨t, ht⟩ := Option.isSome_iff_exists.mp hknown
  rw [pinned_id_of_lookup ht]
  exact List.mem_map_of_mem (lookup_technique_some ht).1

end

theorem rel_cases {α : Type} {R : α → α → Prop} {a b : Option α} (h : Option.Rel R a b) :
    (a = none ∧ b = none) ∨ ∃ x y, a = some x ∧ b = some y ∧ R x y := by
  cases h with
  | none => exact Or.inl ⟨rfl, rfl⟩
  | some hr => exact Or.inr ⟨_, _, rfl, rfl, hr⟩

theorem exists_mem_congr {α : Type} {R : α → α → Prop} {P : α → Prop} {l l' : List α} (h : List.Forall₂ R l l')
    (hP : ∀ a b, R a b → (P a ↔ P b)) : (∃ a ∈ l, P a) ↔ ∃ b ∈ l', P b := by
  induction h with
  | nil => rfl
  | cons hr _ ih => rw [List.exists_mem_cons_iff, List.exists_mem_cons_iff, hP _ _ hr, ih]

theorem mem_right {α : Type} {R : α → α → Prop} {l l' : List α} (h : List.Forall₂ R l l') {b : α} (hb : b ∈ l') :
    ∃ a ∈ l, R a b := by
  induction h with
  | nil => cases hb
  | cons hr _ ih =>
    obtain rfl | hb := List.mem_cons.mp hb
    · exact ⟨_, List.mem_cons_self, hr⟩
    · obtain ⟨a, ha, hab⟩ := ih hb
      exact ⟨a, List.mem_cons_of_mem _ ha, hab⟩

/-- The same reference with its id in another case. -/
structure TechniqueRef.Respelled (r r' : TechniqueRef) : Prop where
  technique_id : Text.eqIgnoreAsciiCase r.technique_id r'.technique_id = true
  fidelity : r.fidelity = r'.fidelity

theorem TechniqueRef.Respelled.refl (r : TechniqueRef) : r.Respelled r := ⟨Text.eqIgnoreAsciiCase_iff.mpr rfl, rfl⟩

def TechniqueRef.pinned (r : TechniqueRef) : TechniqueRef := ⟨pinned_id r.technique_id, r.fidelity⟩

theorem TechniqueRef.respelled_pinned (r : TechniqueRef) : r.Respelled r.pinned :=
  ⟨Text.eqIgnoreAsciiCase_iff.mpr (Text.eqIgnoreAsciiCase_iff.mp (pinned_id_case r.technique_id)).symm, rfl⟩

/-- The same manifest with its technique ids in another case. -/
structure ScenarioManifest.Respelled (m m' : ScenarioManifest) : Prop where
  technique : Option.Rel (fun id id' => Text.eqIgnoreAsciiCase id id' = true) m.metadata.mitre_technique
    m'.metadata.mitre_technique
  techniques : Option.Rel (List.Forall₂ TechniqueRef.Respelled) m.metadata.mitre_techniques
    m'.metadata.mitre_techniques
  rest : m' = { m with metadata := { m.metadata with
    mitre_technique := m'.metadata.mitre_technique
    mitre_techniques := m'.metadata.mitre_techniques } }

/-- The manifest with its technique ids as the taxonomy spells them. -/
def ScenarioManifest.pinned (m : ScenarioManifest) : ScenarioManifest :=
  { m with metadata := { m.metadata with
    mitre_technique := m.metadata.mitre_technique.map pinned_id
    mitre_techniques := m.metadata.mitre_techniques.map (List.map TechniqueRef.pinned) } }

namespace ScenarioManifest

variable {m m' : ScenarioManifest}

theorem respelled_pinned (m : ScenarioManifest) : m.Respelled m.pinned := by
  refine ⟨?_, ?_, rfl⟩
  · unfold pinned
    cases m.metadata.mitre_technique with
    | none => exact Option.Rel.none
    | some id => exact Option.Rel.some (TechniqueRef.respelled_pinned ⟨id, .Unspecified⟩).technique_id
  · unfold pinned
    cases m.metadata.mitre_techniques with
    | none => exact Option.Rel.none
    | some refs =>
      refine Option.Rel.some (List.forall₂_map_right_iff.mpr ?_)
      exact List.forall₂_same.mpr fun r _ => r.respelled_pinned

theorem Respelled.spec (h : m.Respelled m') : m'.spec = m.spec := by
  rw [h.rest]

theorem Respelled.effective_fidelity (h : m.Respelled m') : m'.effective_fidelity = m.effective_fidelity := by
  rw [h.rest]
  rfl

theorem Respelled.technique_fidelity (h : m.Respelled m') {id id' : String} (ceiling : Fidelity)
    (hid : Text.eqIgnoreAsciiCase id id' = true) :
    m'.technique_fidelity id' ceiling = m.technique_fidelity id ceiling := by
  unfold ScenarioManifest.technique_fidelity
  rw [h.spec, Text.eqIgnoreAsciiCase, Text.eqIgnoreAsciiCase, Text.eqIgnoreAsciiCase_iff.mp hid]

/-- The references change with the manifest, and nothing about them but the case. -/
theorem Respelled.resolved (h : m.Respelled m') :
    List.Forall₂ TechniqueRef.Respelled m.resolved_technique_refs m'.resolved_technique_refs := by
  unfold resolved_technique_refs
  rw [h.effective_fidelity]
  obtain ⟨hnone, hnone'⟩ | ⟨refs, refs', hrefs, hrefs', hsame⟩ := rel_cases h.techniques
  · rw [hnone, hnone']
    obtain ⟨hno, hno'⟩ | ⟨id, id', hid, hid', hcase⟩ := rel_cases h.technique
    · rw [hno, hno']
      exact List.Forall₂.nil
    · rw [hid, hid']
      exact List.Forall₂.cons ⟨hcase, (h.technique_fidelity _ hcase).symm⟩ List.Forall₂.nil
  · rw [hrefs, hrefs']
    refine List.forall₂_map_left_iff.mpr (List.forall₂_map_right_iff.mpr (hsame.imp fun r r' hr => ?_))
    exact ⟨hr.technique_id, by rw [hr.fidelity, h.technique_fidelity _ hr.technique_id]⟩

theorem Respelled.primary (h : m.Respelled m') : m'.primary_technique = m.primary_technique := by
  unfold primary_technique
  obtain ⟨hnone, hnone'⟩ | ⟨refs, refs', hrefs, hrefs', hsame⟩ := rel_cases h.techniques
  · rw [hnone, hnone']
    obtain ⟨hno, hno'⟩ | ⟨id, id', hid, hid', hcase⟩ := rel_cases h.technique
    · rw [hno, hno']
    · rw [hid, hid']
      exact (lookup_technique_case hcase).symm
  · rw [hrefs, hrefs']
    cases hsame with
    | nil =>
      obtain ⟨hno, hno'⟩ | ⟨id, id', hid, hid', hcase⟩ := rel_cases h.technique
      · rw [hno, hno']
      · rw [hid, hid']
        exact (lookup_technique_case hcase).symm
    | cons hr _ => exact (lookup_technique_case hr.technique_id).symm

theorem Respelled.plan (h : m.Respelled m') : ExecutionPlan.from_manifest m' = ExecutionPlan.from_manifest m := by
  rw [h.rest]
  rfl

theorem resolved_pinned (m : ScenarioManifest) :
    m.pinned.resolved_technique_refs = m.resolved_technique_refs.map TechniqueRef.pinned := by
  have hrespelled := m.respelled_pinned
  have hfidelity : ∀ id ceiling, m.pinned.technique_fidelity (pinned_id id) ceiling = m.technique_fidelity id ceiling :=
    fun id ceiling => hrespelled.technique_fidelity ceiling
      (TechniqueRef.respelled_pinned ⟨id, .Unspecified⟩).technique_id
  unfold resolved_technique_refs
  rw [hrespelled.effective_fidelity]
  cases hrefs : m.metadata.mitre_techniques with
  | some refs =>
    have hpinned : m.pinned.metadata.mitre_techniques = some (refs.map TechniqueRef.pinned) := by
      rw [pinned, hrefs]
      rfl
    simp [hpinned, TechniqueRef.pinned, hfidelity]
  | none =>
    have hpinned : m.pinned.metadata.mitre_techniques = none := by
      rw [pinned, hrefs]
      rfl
    cases hid : m.metadata.mitre_technique with
    | some id =>
      have hpinned_id : m.pinned.metadata.mitre_technique = some (pinned_id id) := by
        rw [pinned, hid]
        rfl
      simp [hpinned, hpinned_id, TechniqueRef.pinned, hfidelity]
    | none =>
      have hpinned_id : m.pinned.metadata.mitre_technique = none := by
        rw [pinned, hid]
        rfl
      simp [hpinned, hpinned_id]

end ScenarioManifest

theorem is_known_case {id id' : String} (h : Text.eqIgnoreAsciiCase id id' = true) :
    is_known_id id' = is_known_id id := by
  rw [is_known_id, is_known_id, lookup_technique_case h]

/-- The gate does not see the case of a technique id. -/
theorem Accepted.respelled {m m' : ScenarioManifest} (haccepted : Accepted m) (h : m.Respelled m') : Accepted m' := by
  have hversion : m'.api_version = m.api_version := by rw [h.rest]
  refine ⟨?_, ?_, ?_, ?_, ?_, ?_, ?_, ?_, ?_, ?_, ?_⟩
  · rw [hversion]
    exact haccepted.api_version
  · rw [h.spec]
    exact haccepted.nature
  · rw [h.spec]
    exact haccepted.max_duration_sec
  · rw [h.spec]
    exact haccepted.cpu_limit_percent
  · rw [h.spec]
    exact haccepted.canary_directory_only
  · rw [h.spec]
    exact haccepted.target_path
  · rw [h.spec]
    exact haccepted.target_cidr
  · intro r' hr'
    obtain ⟨-, hnone'⟩ | ⟨refs, refs', hrefs, hrefs', hsame⟩ := rel_cases h.techniques
    · rw [hnone'] at hr'
      cases hr'
    · rw [hrefs'] at hr'
      obtain ⟨r, hr, hrr⟩ := mem_right hsame hr'
      rw [is_known_case hrr.technique_id]
      exact haccepted.techniques r (by rw [hrefs]; exact hr)
  · intro id' hid'
    obtain ⟨-, hno'⟩ | ⟨id, id'', hid, hid'', hcase⟩ := rel_cases h.technique
    · rw [hno'] at hid'
      cases hid'
    · obtain rfl := Option.some.inj (hid''.symm.trans hid')
      rw [is_known_case hcase]
      exact haccepted.technique id hid
  · have hmapping := haccepted.mapping
    unfold check_mapping at hmapping ⊢
    obtain ⟨-, hno'⟩ | ⟨id, id', hid, hid', hcase⟩ := rel_cases h.technique
    · rw [hno']
    · rw [hid] at hmapping
      rw [hid']
      obtain ⟨-, hnone'⟩ | ⟨refs, refs', hrefs, hrefs', hsame⟩ := rel_cases h.techniques
      · rw [hnone']
      · rw [hrefs] at hmapping
        rw [hrefs']
        cases hsame with
        | nil => exact hmapping
        | cons hr _ =>
          have hfirst := Text.eqIgnoreAsciiCase_iff.mp (require_ok hmapping)
          have hr := Text.eqIgnoreAsciiCase_iff.mp hr.technique_id
          have hcase := Text.eqIgnoreAsciiCase_iff.mp hcase
          exact if_pos (Text.eqIgnoreAsciiCase_iff.mpr (hr.symm.trans (hfirst.trans hcase)))
  · rw [h.plan]
    exact haccepted.plan

end asmodeus.dsl
