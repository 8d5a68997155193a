import Asmodeus.Runner.ProcedureLocal.Reservations

open FileTree UnixPath
open asmodeus.common asmodeus.dsl

namespace asmodeus.runner

/-- What the executor of a suite returns, an attempt of the pool with that configuration has returned. -/
def Attests (pool : AttemptPool) (execute : Nat → LocalProcedureConfig → Except IoError LocalProcedureAttempt) : Prop :=
  ∀ turn config evidence, execute turn config = .ok evidence →
    ∃ (i : Nat) (run : AttemptRun), pool.parts[i]? = some run ∧ run.config = config ∧ run.evidence = some evidence

/-- The status that a variant comes to where nothing goes wrong. -/
def SuiteSlot.expected (slot : SuiteSlot) (suite_id : String) (timeout_ms : UInt64) : LocalAttemptStatus :=
  if (slot.config suite_id timeout_ms).supported then .Executed else .Unsupported

section

variable {suite_id : String} {timeout_ms : UInt64} {cancelled : Nat → Bool}
  {execute : Nat → LocalProcedureConfig → Except IoError LocalProcedureAttempt} {corpus_sha256 : String}
  {suite : LocalProcedureSuite} {outcome : SuiteSlot × VariantOutcome} {evidence : LocalProcedureAttempt}

/-- What a variant has returned is what the executor has returned. -/
theorem executed_of_outcome {turn : Nat} {slots : List SuiteSlot}
    (hmem : outcome ∈ suite_outcomes suite_id timeout_ms cancelled execute turn slots)
    (hreturned : outcome.2 = .returned evidence) :
    ∃ turn, execute turn (outcome.1.config suite_id timeout_ms) = .ok evidence := by
  induction slots generalizing turn with
  | nil => cases hmem
  | cons slot slots ih =>
    rw [suite_outcomes] at hmem
    rcases List.mem_cons.mp hmem with rfl | hrest
    · refine ⟨turn, ?_⟩
      simp only [variant_outcome] at hreturned
      split at hreturned
      · cases hreturned
      · split at hreturned
        · rename_i found hfound
          obtain rfl := VariantOutcome.returned.inj hreturned
          exact hfound
        · cases hreturned
    · exact ih hrest

/-- Each entry is that of an outcome. -/
theorem entry_outcome {outcomes : List (SuiteSlot × VariantOutcome)} {entries : List LocalSuiteEntry}
    {entry : LocalSuiteEntry}
    (h : List.Forall₂ (fun outcome entry => EntryOf suite_id outcome.1 outcome.2 entry) outcomes entries)
    (hmem : entry ∈ entries) : ∃ outcome ∈ outcomes, EntryOf suite_id outcome.1 outcome.2 entry := by
  induction h with
  | nil => cases hmem
  | cons hentry _ ih =>
    rcases List.mem_cons.mp hmem with rfl | hrest
    · exact ⟨_, List.mem_cons_self, hentry⟩
    · obtain ⟨outcome, houtcome, hof⟩ := ih hrest
      exact ⟨outcome, List.mem_cons_of_mem _ houtcome, hof⟩

theorem returned_of_evidence {variant : VariantOutcome} (h : variant.evidence = some evidence) :
    variant = .returned evidence := by
  cases variant with
  | returned found => exact congrArg _ (Option.some.inj h)
  | _ => cases h

/-- An honest attempt spoils nothing exactly where it comes to the status of its slot and is cleaned up after. -/
theorem Honest.spoilt_iff {digest : List UInt8 → List UInt8} {root : String} {slot : SuiteSlot} {events : List Event}
    (h : Honest digest root (slot.config suite_id timeout_ms) evidence events) :
    ¬ (VariantOutcome.returned evidence).Spoilt ↔
      evidence.cleanup.outcome = "VERIFIED" ∧ evidence.status = slot.expected suite_id timeout_ms := by
  unfold SuiteSlot.expected
  constructor
  · intro hunspoilt
    have hverified : evidence.cleanup.outcome = "VERIFIED" := by
      by_contra hfailed
      exact hunspoilt (Or.inr (Or.inl hfailed))
    refine ⟨hverified, ?_⟩
    have hstatus : evidence.status = .Executed ∨ evidence.status = .Unsupported := by
      by_contra hended
      exact hunspoilt (Or.inl (not_or.mp hended))
    rcases hstatus with hexecuted | hunsupported
    · rw [if_pos (h.executed hexecuted).1, hexecuted]
    · have hslot := (h.unsupported hunsupported).1
      rw [if_neg (by rw [hslot]; exact Bool.false_ne_true), hunsupported]
  · rintro ⟨hverified, hstatus⟩ (⟨hexecuted, hunsupported⟩ | hunverified | ⟨hexecuted, hempty⟩)
    · split at hstatus
      · exact hexecuted hstatus
      · exact hunsupported hstatus
    · exact hunverified hverified
    · have hcomplete := h.complete.mpr hexecuted
      unfold asmodeus.runner.complete at hcomplete
      rw [hempty] at hcomplete
      simp at hcomplete

variable {root : String} {follow : Option (FsTree Component) → FsPath → FsPath} {digest : List UInt8 → List UInt8}
  {debug : Except String Unit → String} {fuel : Nat} {t₀ : Option (FsTree Component)}
  {configs : List LocalProcedureConfig}
  {pool : AttemptPool} {labels : List (Nat × Answers)}

/-- The attempt behind a variant that has returned. -/
theorem Attests.attempt (h : Attests pool execute)
    (hkept : ∀ (i : Nat) run, pool.parts[i]? = some run → Conforms digest root run) {slots : List SuiteSlot}
    (hmem : outcome ∈ suite_outcomes suite_id timeout_ms cancelled execute 0 slots)
    (hreturned : outcome.2 = .returned evidence) :
    ∃ (i : Nat) (run : AttemptRun), pool.parts[i]? = some run ∧ run.config = outcome.1.config suite_id timeout_ms ∧
      run.evidence = some evidence ∧ Honest digest root (outcome.1.config suite_id timeout_ms) evidence run.events := by
  obtain ⟨turn, hexecute⟩ := executed_of_outcome hmem hreturned
  obtain ⟨i, run, hpart, hconfig, hevidence⟩ := h turn _ _ hexecute
  exact ⟨i, run, hpart, hconfig, hevidence, hconfig ▸ (hkept i run hpart).honest hevidence⟩

/-- The first slot, which has no fixture. -/
def container_exec : SuiteSlot := ⟨0, ⟨"container-exec", 1, "T1609"⟩, "positive", .Positive⟩

theorem container_exec_mem : container_exec ∈ suite_slots procedure_corpus := List.mem_cons_self

theorem container_exec_unsupported : (container_exec.config suite_id timeout_ms).supported = false := by
  simp [LocalProcedureConfig.supported, SuiteSlot.config, container_exec]

/-- A suite whose variants are attempts in one root, among whatever other attempts there are. Its gate is
never green, as not every slot has a fixture. It is not red exactly where every variant came to what its
slot has to offer and was cleaned up after. And each evidence in it is that of an attempt of
the suite's own, honest about what the attempt has done, with the reservation in the ledger. -/
theorem suite_attested (hreached : RootReached root t₀)
    (hrun : Transition.run (AttemptPool.step follow) (.start digest debug fuel root t₀ configs) labels = some pool)
    (hattests : Attests pool execute)
    (hsuite : run_suite suite_id timeout_ms cancelled execute corpus_sha256 = .ok suite) :
    suite.fixture_gate ≠ .Pass ∧
    (suite.fixture_gate = .Inconclusive ↔
      ∀ outcome ∈ suite_outcomes suite_id timeout_ms cancelled execute 0 (suite_slots procedure_corpus),
        ∃ evidence, outcome.2 = .returned evidence ∧ evidence.cleanup.outcome = "VERIFIED" ∧
          evidence.status = outcome.1.expected suite_id timeout_ms) ∧
    ∀ entry ∈ suite.entries, ∀ evidence, entry.evidence = some evidence →
      ∃ (i : Nat) (run : AttemptRun) (started : Nat), pool.parts[i]? = some run ∧
        run.config = ⟨entry.procedure_id, entry.attempt_id, entry.variant, timeout_ms⟩ ∧
          Honest digest root run.config evidence run.events ∧
            node (ownership_record root entry.attempt_id) pool.shared =
              some (.file (reservation root run.config started)) := by
  have hhonest := suite_honest hsuite
  have hkept := attempts_kept hrun
  have hstanding := attempts_stand hreached hrun
  have hincomplete : ¬ ∀ outcome ∈ suite_outcomes suite_id timeout_ms cancelled execute 0
      (suite_slots procedure_corpus), outcome.2.Complete := by
    intro hcomplete
    have hslot := container_exec_mem
    rw [← @suite_outcomes_slots suite_id timeout_ms cancelled execute 0 (suite_slots procedure_corpus)] at hslot
    obtain ⟨outcome, hmem, hfirst⟩ := List.mem_map.mp hslot
    have hdone := hcomplete outcome hmem
    cases hreturned : outcome.2 with
    | returned evidence =>
      obtain ⟨i, run, -, -, -, hrun⟩ := hattests.attempt hkept hmem hreturned
      rw [hreturned] at hdone
      have hsupported := (hrun.executed hdone.1).1
      rw [hfirst] at hsupported
      rw [container_exec_unsupported] at hsupported
      cases hsupported
    | _ =>
      rw [hreturned] at hdone
      exact hdone
  refine ⟨fun hpass => hincomplete (hhonest.pass.mp hpass), ?_, fun entry hentry evidence hevidence => ?_⟩
  · rw [hhonest.inconclusive, and_iff_right hincomplete]
    constructor
    · intro hunspoilt outcome hmem
      have hclean : ¬ outcome.2.Spoilt := fun hspoilt => hunspoilt ⟨outcome, hmem, hspoilt⟩
      cases hreturned : outcome.2 with
      | returned evidence =>
        obtain ⟨i, run, -, -, -, hrun⟩ := hattests.attempt hkept hmem hreturned
        rw [hreturned] at hclean
        exact ⟨evidence, rfl, hrun.spoilt_iff.mp hclean⟩
      | _ =>
        rw [hreturned] at hclean
        exact absurd trivial hclean
    · rintro hall ⟨outcome, hmem, hspoilt⟩
      obtain ⟨evidence, hreturned, hended⟩ := hall outcome hmem
      obtain ⟨i, run, -, -, -, hrun⟩ := hattests.attempt hkept hmem hreturned
      rw [hreturned] at hspoilt
      exact hrun.spoilt_iff.mpr hended hspoilt
  · obtain ⟨outcome, hmem, hof⟩ := entry_outcome hhonest.entries hentry
    obtain ⟨hid, -, -, hvariant, hattempt⟩ := hof.slot_kept
    have hreturned := returned_of_evidence (hof.evidence.symm.trans hevidence)
    obtain ⟨i, run, hpart, hconfig, hfound, hrun⟩ := hattests.attempt hkept hmem hreturned
    have hengaged : run.Engaged := Or.inr ⟨evidence, hfound⟩
    obtain ⟨hclaimed, started, -, hnode⟩ := hstanding.reservation (hkept i run hpart) hpart hengaged
    have hledger := ((hkept i run hpart).locatable hclaimed).ownership_record_eq
    have hsame : run.config = ⟨entry.procedure_id, entry.attempt_id, entry.variant, timeout_ms⟩ := by
      rw [hconfig, hid, hvariant, hattempt, SuiteSlot.config]
    rw [← hledger] at hnode
    refine ⟨i, run, started, hpart, hsame, hconfig.symm ▸ hrun, ?_⟩
    have hname : run.config.attempt_id = entry.attempt_id := by rw [hsame]
    rw [← hname]
    exact hnode

end

/-- One attempt's evidence, and none for the others. -/
def control_executor (evidence : LocalProcedureAttempt) (_turn : Nat) (config : LocalProcedureConfig) :
    Except IoError LocalProcedureAttempt :=
  if config.procedure_id = control_config.procedure_id ∧ config.attempt_id = control_config.attempt_id ∧
      config.variant = control_config.variant ∧ config.timeout_ms = control_config.timeout_ms then .ok evidence
  else .error (.other "no such attempt")

theorem control_suite_attested : ∃ pool evidence suite, control_attempts 1 (List.replicate 46 0) = some pool ∧
    run_suite "control" 2000 (fun _ => false) (control_executor evidence) "" = .ok suite ∧
      suite.fixture_gate ≠ .Pass := by
  have hended : ((control_attempts 1 (List.replicate 46 0)).bind fun pool =>
      pool.parts[0]?.bind AttemptRun.evidence).isSome = true := by decide +kernel
  obtain ⟨evidence, hfound⟩ := Option.isSome_iff_exists.mp hended
  obtain ⟨pool, hpool, hparts⟩ := Option.bind_eq_some_iff.mp hfound
  obtain ⟨run, hpart, hevidence⟩ := Option.bind_eq_some_iff.mp hparts
  have hconfig : control_config = run.config := Option.some.inj (attempts_config hpool hpart)
  have hattests : Attests pool (control_executor evidence) := by
    intro turn config found hreturned
    unfold control_executor at hreturned
    split at hreturned
    · rename_i hsame
      obtain ⟨hid, hattempt, hvariant, htimeout⟩ := hsame
      obtain rfl := Except.ok.inj hreturned
      refine ⟨0, run, hpart, ?_, hevidence⟩
      obtain ⟨procedure_id, attempt_id, variant, timeout_ms⟩ := config
      subst hid hattempt hvariant htimeout
      exact hconfig.symm
    · cases hreturned
  have hruns : ∃ suite, run_suite "control" 2000 (fun _ => false) (control_executor evidence) "" = .ok suite := by
    unfold run_suite
    rw [if_neg (by decide), if_neg (by decide)]
    exact ⟨_, rfl⟩
  obtain ⟨suite, hsuite⟩ := hruns
  obtain ⟨hgate, -⟩ := suite_attested (fun canary hcanary _ => bare_host_unlinked canary hcanary) hpool hattests hsuite
  exact ⟨pool, evidence, suite, hpool, hsuite, hgate⟩

end asmodeus.runner
