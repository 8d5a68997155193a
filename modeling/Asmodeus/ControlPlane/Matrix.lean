import Asmodeus.ControlPlane.Catalog
import Mathlib.Data.Finset.Card
import Mathlib.Data.List.Sort

open asmodeus.common asmodeus.dsl

namespace asmodeus.control_plane

/-- A scenario under a tactic, with the honest caveat about its fidelity. -/
structure MatrixRow where
  scenario_id : String
  scenario_name : String
  technique_id : String
  technique_name : String
  fidelity : String
  claims_behavioral_coverage : Bool
  severity : String
  detector : String

structure MatrixTactic where
  tactic : String
  scenarios_count : Nat
  scenarios : List MatrixRow

/-- The counts of the ATT&CK matrix and its rows. A referenced technique is not
behavioral coverage. -/
structure MitreMatrix where
  total_scenarios : Nat
  mitre_scenarios_count : Nat
  covered_techniques_count : Nat
  techniques_referenced_count : Nat
  behavioral_coverage_count : Nat
  marker_only_techniques_count : Nat
  tactics_count : Nat
  tactics : List MatrixTactic

/-- What the loop over the catalog collects. -/
structure MatrixTally where
  tactics_map : List (String × List MatrixRow)
  referenced_techniques : List String
  best_fidelity : List (String × Fidelity)
  mitre_scenarios_count : Nat

namespace MatrixTally

def empty : MatrixTally := ⟨[], [], [], 0⟩

/-- The better of two fidelities. -/
def better (slot fidelity : Fidelity) : Fidelity := if slot.rank < fidelity.rank then fidelity else slot

/-- The best fidelity seen so far at which a technique is exercised. -/
def best (self : MatrixTally) (id : String) : Fidelity :=
  ((KeyedList.find Prod.fst id self.best_fidelity).map Prod.snd).getD .Unspecified

def rows (self : MatrixTally) (tactic : String) : List MatrixRow :=
  ((KeyedList.find Prod.fst tactic self.tactics_map).map Prod.snd).getD []

/-- One reference of a scenario. An unknown technique is passed over. -/
def reference (entry : CatalogEntry) (self : MatrixTally) (r : TechniqueRef) : MatrixTally :=
  match lookup_technique r.technique_id with
  | none => self
  | some t =>
    let row : MatrixRow :=
      ⟨entry.id, entry.name, t.id, t.name, r.fidelity.as_str, r.fidelity.claims_behavioral, entry.severity,
        entry.detector⟩
    { self with
      tactics_map := KeyedList.upsert Prod.fst self.tactics_map (t.tactic, self.rows t.tactic ++ [row])
      referenced_techniques := self.referenced_techniques.insert r.technique_id
      best_fidelity := KeyedList.upsert Prod.fst self.best_fidelity
        (r.technique_id, better (self.best r.technique_id) r.fidelity) }

def scenario (self : MatrixTally) (entry : CatalogEntry) : MatrixTally :=
  if entry.technique_refs.isEmpty then self
  else entry.technique_refs.foldl (reference entry)
    { self with mitre_scenarios_count := self.mitre_scenarios_count + 1 }

def matrix (self : MatrixTally) (total_scenarios : Nat) : MitreMatrix :=
  let behavioral := self.best_fidelity.countP fun slot => slot.2.claims_behavioral
  let tactics := self.tactics_map.map fun (tactic, scenarios) =>
    (⟨tactic, scenarios.length, scenarios.insertionSort fun a b => a.technique_id ≤ b.technique_id⟩ : MatrixTactic)
  { total_scenarios := total_scenarios
    mitre_scenarios_count := self.mitre_scenarios_count
    covered_techniques_count := self.referenced_techniques.length
    techniques_referenced_count := self.referenced_techniques.length
    behavioral_coverage_count := behavioral
    marker_only_techniques_count := self.referenced_techniques.length - behavioral
    tactics_count := tactics.length
    tactics := tactics.insertionSort fun a b => a.tactic ≤ b.tactic }

end MatrixTally

/-- The matrix over the catalog's entries, in the order the map yields them. -/
def mitre_matrix (role : Role) (entries : List CatalogEntry) : Except String MitreMatrix :=
  if role.can .ViewReports then .ok ((entries.foldl MatrixTally.scenario .empty).matrix entries.length)
  else .error "role may not view MITRE matrix"

/-- The ids of pinned techniques, in the catalog's spelling, that it references at a
fidelity that counts. -/
def spellings (counted : Fidelity → Bool) (entries : List CatalogEntry) : Finset String :=
  (((entries.flatMap fun e => e.technique_refs).filter fun r =>
    is_known_id r.technique_id && counted r.fidelity).map TechniqueRef.technique_id).toFinset

def referenced_ids (entries : List CatalogEntry) : Finset String := spellings (fun _ => true) entries

def behavioral_ids (entries : List CatalogEntry) : Finset String := spellings Fidelity.claims_behavioral entries

theorem mem_spellings {counted : Fidelity → Bool} {entries : List CatalogEntry} {id : String} :
    id ∈ spellings counted entries ↔ ∃ r ∈ entries.flatMap fun e => e.technique_refs,
      is_known_id r.technique_id = true ∧ counted r.fidelity = true ∧ r.technique_id = id := by
  simp only [spellings, List.mem_toFinset, List.mem_map, List.mem_filter, Bool.and_eq_true, and_assoc]

/-- What the tally has collected after some references. -/
structure MatrixTally.Collected (tally : MatrixTally) (refs : List TechniqueRef) : Prop where
  distinct : tally.referenced_techniques.Nodup
  referenced : ∀ id, id ∈ tally.referenced_techniques ↔ ∃ r ∈ refs, is_known_id r.technique_id = true ∧
    r.technique_id = id
  unique : KeyedList.Unique Prod.fst tally.best_fidelity
  best : ∀ id, (tally.best id).claims_behavioral = true ↔
    ∃ r ∈ refs, is_known_id r.technique_id = true ∧ r.fidelity.claims_behavioral = true ∧ r.technique_id = id

namespace MatrixTally

variable {tally : MatrixTally} {refs : List TechniqueRef} {entry : CatalogEntry}

/-- A behavioral one of two fidelities is the better one. -/
theorem better_behavioral (slot fidelity : Fidelity) :
    (better slot fidelity).claims_behavioral = true ↔
      slot.claims_behavioral = true ∨ fidelity.claims_behavioral = true := by
  cases slot <;> cases fidelity <;> decide

theorem reference_known (tally : MatrixTally) (entry : CatalogEntry) {t : MitreTechnique} {r : TechniqueRef}
    (h : lookup_technique r.technique_id = some t) :
    (tally.reference entry r).referenced_techniques = tally.referenced_techniques.insert r.technique_id ∧
      (tally.reference entry r).best_fidelity = KeyedList.upsert Prod.fst tally.best_fidelity
        (r.technique_id, better (tally.best r.technique_id) r.fidelity) := by
  rw [MatrixTally.reference, h]
  exact ⟨rfl, rfl⟩

theorem best_upsert {next : MatrixTally} {id : String} {fidelity : Fidelity}
    (h : next.best_fidelity = KeyedList.upsert Prod.fst tally.best_fidelity (id, fidelity)) (other : String) :
    next.best other = if other = id then fidelity else tally.best other := by
  unfold MatrixTally.best
  rw [h]
  split
  · rename_i hid
    have hself : KeyedList.find Prod.fst id (KeyedList.upsert Prod.fst tally.best_fidelity (id, fidelity)) =
        some (id, fidelity) := KeyedList.find_upsert_self tally.best_fidelity (id, fidelity)
    rw [hid, hself]
    rfl
  · rename_i hne
    rw [KeyedList.find_upsert_of_ne hne]

theorem exists_mem_snoc {P : TechniqueRef → Prop} {last : TechniqueRef} :
    (∃ r ∈ refs ++ [last], P r) ↔ (∃ r ∈ refs, P r) ∨ P last := by
  simp [or_and_right, exists_or]

theorem Collected.reference (hcollected : tally.Collected refs) (r : TechniqueRef) :
    (tally.reference entry r).Collected (refs ++ [r]) := by
  cases hlookup : lookup_technique r.technique_id with
  | none =>
    have hskip : is_known_id r.technique_id = false := by rw [is_known_id, hlookup]; rfl
    rw [MatrixTally.reference, hlookup]
    refine ⟨hcollected.distinct, fun id => ?_, hcollected.unique, fun id => ?_⟩
    · rw [hcollected.referenced, exists_mem_snoc]
      simp [hskip]
    · rw [hcollected.best, exists_mem_snoc]
      simp [hskip]
  | some t =>
    have hknown : is_known_id r.technique_id = true := by rw [is_known_id, hlookup]; rfl
    obtain ⟨hreferenced, hbest⟩ := reference_known tally entry hlookup
    refine ⟨hreferenced ▸ hcollected.distinct.insert, fun id => ?_, hbest ▸ hcollected.unique.upsert, fun id => ?_⟩
    · rw [hreferenced, List.mem_insert_iff, exists_mem_snoc, ← hcollected.referenced, or_comm]
      simp [hknown, eq_comm]
    · rw [best_upsert hbest, exists_mem_snoc, ← hcollected.best]
      split
      · rename_i hid
        rw [better_behavioral, hid]
        simp [hknown]
      · rename_i hne
        simp [Ne.symm hne]

theorem Collected.references (hcollected : tally.Collected refs) (more : List TechniqueRef) :
    (more.foldl (MatrixTally.reference entry) tally).Collected (refs ++ more) := by
  induction more generalizing tally refs with
  | nil => rwa [List.append_nil]
  | cons r rest ih =>
    rw [List.append_cons]
    exact ih (hcollected.reference r)

theorem Collected.scenario (hcollected : tally.Collected refs) (entry : CatalogEntry) :
    (tally.scenario entry).Collected (refs ++ entry.technique_refs) := by
  unfold MatrixTally.scenario
  split
  · rename_i hempty
    rwa [List.isEmpty_iff.mp hempty, List.append_nil]
  · have hcounted : MatrixTally.Collected { tally with mitre_scenarios_count := tally.mitre_scenarios_count + 1 }
      refs :=
      ⟨hcollected.distinct, hcollected.referenced, hcollected.unique, hcollected.best⟩
    exact hcounted.references _

/-- The loop over a catalog collects the references of all its entries. -/
theorem collected (entries : List CatalogEntry) :
    (entries.foldl MatrixTally.scenario .empty).Collected (entries.flatMap fun e => e.technique_refs) := by
  have hrun : ∀ (tally : MatrixTally) refs, tally.Collected refs →
      (entries.foldl MatrixTally.scenario tally).Collected (refs ++ entries.flatMap fun e => e.technique_refs) := by
    induction entries with
    | nil => exact fun tally refs h => by rwa [List.flatMap_nil, List.append_nil]
    | cons entry rest ih =>
      intro tally refs hcollected
      rw [List.flatMap_cons, ← List.append_assoc]
      exact ih _ _ (hcollected.scenario entry)
  refine hrun .empty [] ⟨List.nodup_nil, fun id => ?_, KeyedList.unique_nil, fun id => ?_⟩
  · simp [empty]
  · simp only [List.not_mem_nil, false_and, exists_false, iff_false]
    exact Bool.eq_false_iff.mp rfl

theorem mem_behavioral (hcollected : tally.Collected refs) (id : String) :
    id ∈ (tally.best_fidelity.filter fun slot => slot.2.claims_behavioral).map Prod.fst ↔
      (tally.best id).claims_behavioral = true := by
  unfold MatrixTally.best
  constructor
  · intro h
    obtain ⟨slot, hslot, rfl⟩ := List.mem_map.mp h
    obtain ⟨hmem, hclaims⟩ := List.mem_filter.mp hslot
    rw [hcollected.unique.find_of_mem hmem]
    exact hclaims
  · intro h
    cases hfind : KeyedList.find Prod.fst id tally.best_fidelity with
    | none =>
      rw [hfind] at h
      cases h
    | some slot =>
      rw [hfind] at h
      obtain ⟨hmem, hid⟩ := KeyedList.find_some hfind
      exact List.mem_map.mpr ⟨slot, List.mem_filter.mpr ⟨hmem, h⟩, hid⟩

end MatrixTally

/-- The counts of the matrix are numbers of spellings. -/
theorem mitre_matrix_counts {role : Role} {entries : List CatalogEntry} {matrix : MitreMatrix}
    (h : mitre_matrix role entries = .ok matrix) :
    matrix.techniques_referenced_count = (referenced_ids entries).card ∧
      matrix.covered_techniques_count = (referenced_ids entries).card ∧
      matrix.behavioral_coverage_count = (behavioral_ids entries).card ∧
      matrix.marker_only_techniques_count = (referenced_ids entries).card - (behavioral_ids entries).card := by
  unfold mitre_matrix at h
  split at h
  · obtain rfl := Except.ok.inj h
    have hcollected := MatrixTally.collected entries
    have hreferenced : (entries.foldl MatrixTally.scenario .empty).referenced_techniques.length =
        (referenced_ids entries).card := by
      rw [← List.toFinset_card_of_nodup hcollected.distinct]
      congr 1
      ext id
      rw [List.mem_toFinset, hcollected.referenced, referenced_ids, mem_spellings]
      simp only [true_and]
    have hbehavioral : (entries.foldl MatrixTally.scenario .empty).best_fidelity.countP
        (fun slot => slot.2.claims_behavioral) = (behavioral_ids entries).card := by
      have hslots : ((entries.foldl MatrixTally.scenario .empty).best_fidelity.filter fun slot =>
          slot.2.claims_behavioral).map Prod.fst |>.Nodup :=
        hcollected.unique.filter _
      rw [List.countP_eq_length_filter, ← List.length_map Prod.fst, ← List.toFinset_card_of_nodup hslots]
      congr 1
      ext id
      rw [List.mem_toFinset, MatrixTally.mem_behavioral hcollected, hcollected.best, behavioral_ids, mem_spellings]
    exact ⟨hreferenced, hreferenced, hbehavioral, by rw [← hreferenced, ← hbehavioral]; rfl⟩
  · cases h

end asmodeus.control_plane
