import Asmodeus.Common.Io
import Asmodeus.Dsl.Procedure
import Asmodeus.Lib.Chunks
import Asmodeus.Lib.Utf8
import Mathlib.Data.List.Forall2
import Mathlib.Tactic.SplitIfs

open asmodeus.common asmodeus.dsl

namespace asmodeus.runner

structure LocalProcedureConfig where
  procedure_id : String
  attempt_id : String
  variant : ProcedureVariantKind
  timeout_ms : UInt64

inductive LocalAttemptStatus
  | Executed
  | Unsupported
  | Cancelled
  | Failed
  deriving DecidableEq

def LocalAttemptStatus.debug : LocalAttemptStatus → String
  | .Executed => "Executed"
  | .Unsupported => "Unsupported"
  | .Cancelled => "Cancelled"
  | .Failed => "Failed"

structure LocalReceipt where
  protocol : String
  receiver : String
  elapsed_ms : UInt64
  bytes : Nat
  sha256 : String
  payload_kind : String

structure LocalCleanup where
  outcome : String
  detail : String
  crash_cleanup : String

/-- What an attempt reports: the parts the suite reads. -/
structure LocalProcedureAttempt where
  status : LocalAttemptStatus
  receipts : List LocalReceipt
  cleanup : LocalCleanup
  detail : String

inductive LocalSuiteGate
  | Pass
  | Failed
  | Inconclusive
  deriving DecidableEq

structure LocalSuiteEntry where
  procedure_id : String
  procedure_revision : Nat
  technique_id : String
  variant : ProcedureVariantKind
  attempt_id : String
  evidence : Option LocalProcedureAttempt
  gap : Option String

structure LocalProcedureSuite where
  schema_version : String
  suite_id : String
  corpus_version : String
  corpus_sha256 : String
  attack_version : String
  scope : String
  signature_status : String
  slot_denominator : Nat
  variant_denominator : Nat
  executed_variants : Nat
  complete_local_pairs : Nat
  fixture_gate : LocalSuiteGate
  protection_result : LocalSuiteGate
  entries : List LocalSuiteEntry
  limitations : List String

def SUITE_LIMITATIONS : List String :=
  ["Local receipts do not establish sensor observation, detection, prevention, containment or ATT&CK coverage. " ++
      "Product policy, sensor health and trusted feedback are unverified.",
    "The fixture gate requires all six slots and both variants; unsupported or missing variants cannot yield PASS. " ++
      "A fixture PASS would still leave protection INCONCLUSIVE.",
    "This unsigned local suite is separate from durable signed campaign runs and APEX validation evidence. " ++
      "SIGKILL may prevent report export; crash cleanup remains NOT_VERIFIED. No automatic retry or recovery is " ++
      "performed."]

def complete (evidence : LocalProcedureAttempt) : Bool :=
  decide (evidence.status = .Executed) && decide (evidence.cleanup.outcome = "VERIFIED") && !evidence.receipts.isEmpty

/-- One pass of the two loops: a procedure, its index and one of its variants. -/
structure SuiteSlot where
  index : Nat
  procedure : ProcedureDefinition
  suffix : String
  variant : ProcedureVariantKind

def suite_slots (corpus : ProcedureCorpus) : List SuiteSlot :=
  corpus.procedures.zipIdx.flatMap fun (procedure, index) =>
    [⟨index, procedure, "positive", .Positive⟩, ⟨index, procedure, "benign", .BenignControl⟩]

def SuiteSlot.attempt_id (slot : SuiteSlot) (suite_id : String) : String :=
  suite_id ++ "-" ++ toString slot.index ++ "-" ++ slot.suffix

def SuiteSlot.config (slot : SuiteSlot) (suite_id : String) (timeout_ms : UInt64) : LocalProcedureConfig :=
  ⟨slot.procedure.id, slot.attempt_id suite_id, slot.variant, timeout_ms⟩

def SuiteSlot.entry (slot : SuiteSlot) (suite_id : String) : LocalSuiteEntry :=
  ⟨slot.procedure.id, slot.procedure.revision, slot.procedure.technique_id, slot.variant, slot.attempt_id suite_id,
    none, none⟩

section

variable (suite_id : String) (timeout_ms : UInt64)

/-- The body of the loops, with the entries so far and the mutable `failed`. The flag is what the
load of `cancel` returns, the executor is called at most once. -/
def run_slot (cancelled : Bool) (execute : LocalProcedureConfig → Except IoError LocalProcedureAttempt)
    (slot : SuiteSlot) (entries : List LocalSuiteEntry) (failed : Bool) : List LocalSuiteEntry × Bool :=
  let entry := slot.entry suite_id
  if cancelled then
    (entries ++ [{ entry with gap := some "NOT_RUN: suite cancelled before this variant" }], true)
  else match execute (slot.config suite_id timeout_ms) with
    | .ok evidence =>
      if !complete evidence then
        let failed :=
          if evidence.status ≠ .Unsupported ∨ evidence.cleanup.outcome ≠ "VERIFIED" then true else failed
        let gap := evidence.status.debug ++ ": " ++ evidence.detail ++ "; cleanup=" ++ evidence.cleanup.outcome ++
          "; receipts=" ++ toString evidence.receipts.length
        (entries ++ [{ entry with gap := some gap, evidence := some evidence }], failed)
      else (entries ++ [{ entry with evidence := some evidence }], failed)
    | .error error =>
      (entries ++ [{ entry with gap := some ("NOT_RUN: attempt rejected: " ++ error.message) }], true)

-- What the flag and the executor answer at each variant in turn.
variable (cancelled : Nat → Bool) (execute : Nat → LocalProcedureConfig → Except IoError LocalProcedureAttempt)

def run_slots : Nat → List SuiteSlot → List LocalSuiteEntry → Bool → List LocalSuiteEntry × Bool
  | _, [], entries, failed => (entries, failed)
  | turn, slot :: slots, entries, failed =>
    let state := run_slot suite_id timeout_ms (cancelled turn) (execute turn) slot entries failed
    run_slots (turn + 1) slots state.1 state.2

def suite_id_byte (b : UInt8) : Bool :=
  decide (48 ≤ b ∧ b ≤ 57 ∨ 65 ≤ b ∧ b ≤ 90 ∨ 97 ≤ b ∧ b ≤ 122) || b == 45 || b == 95

/-- The fixed experiment over every slot of the corpus and both controls. -/
def run_suite (corpus_sha256 : String) : Except IoError LocalProcedureSuite :=
  if suite_id.isEmpty || decide (48 < suite_id.utf8ByteSize) || !((Utf8.encode suite_id.toList).all suite_id_byte) then
    .error ⟨.InvalidInput, "suite ID must contain 1..=48 ASCII letters, digits, hyphens or underscores"⟩
  else if !decide (1 ≤ timeout_ms ∧ timeout_ms ≤ 10000) then
    .error ⟨.InvalidInput, "timeout_ms must be within 1..=10000"⟩
  else
    let corpus := procedure_corpus
    let state := run_slots suite_id timeout_ms cancelled execute 0 (suite_slots corpus) [] false
    let entries := state.1
    let executed_variants := entries.countP fun e => e.evidence.any complete
    let complete_local_pairs :=
      (Chunks.pairs entries).countP fun pair => pair.1.evidence.any complete && pair.2.evidence.any complete
    let fixture_gate : LocalSuiteGate :=
      if state.2 then .Failed
      else if complete_local_pairs = corpus.denominator then .Pass
      else .Inconclusive
    .ok {
      schema_version := "asmodeus.local-procedure-suite.v1"
      suite_id := suite_id
      corpus_version := PROCEDURE_CORPUS_VERSION
      corpus_sha256 := corpus_sha256
      attack_version := ATTACK_VERSION
      scope := "LOCAL_FIXTURE: owned loopback receivers only"
      signature_status := "UNSIGNED"
      slot_denominator := corpus.denominator
      variant_denominator := entries.length
      executed_variants := executed_variants
      complete_local_pairs := complete_local_pairs
      fixture_gate := fixture_gate
      protection_result := .Inconclusive
      entries := entries
      limitations := SUITE_LIMITATIONS
    }

end

/-- What became of a variant. -/
inductive VariantOutcome
  | not_run
  | rejected (error : IoError)
  | returned (evidence : LocalProcedureAttempt)

/-- What the flag and the executor make of a variant. -/
def variant_outcome (cancelled : Bool) (result : Except IoError LocalProcedureAttempt) : VariantOutcome :=
  if cancelled then .not_run
  else match result with
    | .ok evidence => .returned evidence
    | .error error => .rejected error

namespace VariantOutcome

/-- The variant was executed, cleaned up after and leaves a receipt. -/
def Complete : VariantOutcome → Prop
  | .returned evidence =>
    evidence.status = .Executed ∧ evidence.cleanup.outcome = "VERIFIED" ∧ evidence.receipts ≠ []
  | _ => False

/-- The variant was not run or rejected, ended badly, left its cleanup unverified or has no receipt. -/
def Spoilt : VariantOutcome → Prop
  | .not_run | .rejected _ => True
  | .returned evidence =>
    (evidence.status ≠ .Executed ∧ evidence.status ≠ .Unsupported) ∨ evidence.cleanup.outcome ≠ "VERIFIED" ∨
      (evidence.status = .Executed ∧ evidence.receipts = [])

def evidence : VariantOutcome → Option LocalProcedureAttempt
  | .returned evidence => some evidence
  | _ => none

theorem complete_iff (outcome : VariantOutcome) : outcome.evidence.any complete = true ↔ outcome.Complete := by
  cases outcome with
  | not_run => simp [evidence, Complete]
  | rejected error => simp [evidence, Complete]
  | returned attempt => simp [evidence, Complete, complete, and_assoc]

theorem Complete.not_spoilt {outcome : VariantOutcome} (h : outcome.Complete) : ¬ outcome.Spoilt := by
  cases outcome with
  | not_run => exact h.elim
  | rejected error => exact h.elim
  | returned attempt =>
    obtain ⟨hstatus, hcleanup, hreceipts⟩ := h
    rintro (hended | hunverified | hempty)
    · exact hended.1 hstatus
    · exact hunverified hcleanup
    · exact hreceipts hempty.2

/-- What is incomplete is spoilt unless it is unsupported and clean. -/
theorem spoilt_iff {evidence : LocalProcedureAttempt} (h : ¬ (returned evidence).Complete) :
    (returned evidence).Spoilt ↔ evidence.status ≠ .Unsupported ∨ evidence.cleanup.outcome ≠ "VERIFIED" := by
  simp only [Complete, Spoilt] at h ⊢
  constructor
  · rintro (hended | hunverified | hempty)
    · exact Or.inl hended.2
    · exact Or.inr hunverified
    · refine Or.inl ?_
      rw [hempty.1]
      decide
  · rintro (hsupported | hunverified)
    · by_cases hexecuted : evidence.status = .Executed
      · by_cases hverified : evidence.cleanup.outcome = "VERIFIED"
        · have hempty : evidence.receipts = [] := by
            by_contra hreceipts
            exact h ⟨hexecuted, hverified, hreceipts⟩
          exact Or.inr (Or.inr ⟨hexecuted, hempty⟩)
        · exact Or.inr (Or.inl hverified)
      · exact Or.inl ⟨hexecuted, hsupported⟩
    · exact Or.inr (Or.inl hunverified)

end VariantOutcome

/-- The entry of a slot after an outcome. -/
structure EntryOf (suite_id : String) (slot : SuiteSlot) (outcome : VariantOutcome) (entry : LocalSuiteEntry) :
    Prop where
  slot_kept : entry.procedure_id = slot.procedure.id ∧ entry.procedure_revision = slot.procedure.revision ∧
    entry.technique_id = slot.procedure.technique_id ∧ entry.variant = slot.variant ∧
    entry.attempt_id = slot.attempt_id suite_id
  evidence : entry.evidence = outcome.evidence
  gap : entry.gap = none ↔ outcome.Complete

section

variable {suite_id : String} {timeout_ms : UInt64}

/-- One variant adds one entry, and fails the suite exactly where it is spoilt. -/
theorem run_slot_spec (cancelled : Bool) (execute : LocalProcedureConfig → Except IoError LocalProcedureAttempt)
    (slot : SuiteSlot) (entries : List LocalSuiteEntry) (failed : Bool) :
    ∃ entry failed', run_slot suite_id timeout_ms cancelled execute slot entries failed =
      (entries ++ [entry], failed') ∧
      EntryOf suite_id slot (variant_outcome cancelled (execute (slot.config suite_id timeout_ms))) entry ∧
      (failed' = true ↔ failed = true ∨
        (variant_outcome cancelled (execute (slot.config suite_id timeout_ms))).Spoilt) := by
  unfold run_slot variant_outcome
  cases cancelled with
  | true =>
    refine ⟨_, _, rfl, ⟨⟨rfl, rfl, rfl, rfl, rfl⟩, rfl, ?_⟩, ?_⟩
    · simp [VariantOutcome.Complete]
    · simp [VariantOutcome.Spoilt]
  | false =>
    cases execute (slot.config suite_id timeout_ms) with
    | error error =>
      refine ⟨_, _, rfl, ⟨⟨rfl, rfl, rfl, rfl, rfl⟩, rfl, ?_⟩, ?_⟩
      · simp [VariantOutcome.Complete]
      · simp [VariantOutcome.Spoilt]
    | ok evidence =>
      have hcomplete := VariantOutcome.complete_iff (.returned evidence)
      rw [VariantOutcome.evidence, Option.any_some] at hcomplete
      dsimp only
      by_cases hfull : complete evidence = true
      · have hdone := hcomplete.mp hfull
        rw [hfull]
        refine ⟨_, _, rfl, ⟨⟨rfl, rfl, rfl, rfl, rfl⟩, rfl, ?_⟩, ?_⟩
        · exact iff_of_true rfl hdone
        · exact ⟨Or.inl, fun h => h.resolve_right hdone.not_spoilt⟩
      · have hgap : ¬ (VariantOutcome.returned evidence).Complete := fun h => hfull (hcomplete.mpr h)
        rw [Bool.not_eq_true] at hfull
        rw [hfull]
        refine ⟨_, _, rfl, ⟨⟨rfl, rfl, rfl, rfl, rfl⟩, rfl, ?_⟩, ?_⟩
        · exact iff_of_false (by simp) hgap
        · simp only [Bool.false_eq_true, if_false, VariantOutcome.spoilt_iff hgap]
          by_cases hspoilt : evidence.status ≠ .Unsupported ∨ evidence.cleanup.outcome ≠ "VERIFIED"
          · simp [hspoilt]
          · simp only [if_neg hspoilt]
            exact ⟨Or.inl, fun h => h.resolve_right hspoilt⟩

variable (suite_id timeout_ms) (cancelled : Nat → Bool)
  (execute : Nat → LocalProcedureConfig → Except IoError LocalProcedureAttempt)

/-- What becomes of each slot, from a turn on. -/
def suite_outcomes : Nat → List SuiteSlot → List (SuiteSlot × VariantOutcome)
  | _, [] => []
  | turn, slot :: slots =>
    (slot, variant_outcome (cancelled turn) (execute turn (slot.config suite_id timeout_ms))) ::
      suite_outcomes (turn + 1) slots

variable {suite_id timeout_ms cancelled execute}

theorem suite_outcomes_slots (turn : Nat) (slots : List SuiteSlot) :
    (suite_outcomes suite_id timeout_ms cancelled execute turn slots).map Prod.fst = slots := by
  induction slots generalizing turn with
  | nil => rfl
  | cons slot slots ih => rw [suite_outcomes, List.map_cons, ih]

/-- A run adds the entries of all slots in order. -/
theorem run_slots_spec (turn : Nat) (slots : List SuiteSlot) (entries : List LocalSuiteEntry) (failed : Bool) :
    ∃ added failed', run_slots suite_id timeout_ms cancelled execute turn slots entries failed =
        (entries ++ added, failed') ∧
      List.Forall₂ (fun outcome entry => EntryOf suite_id outcome.1 outcome.2 entry)
        (suite_outcomes suite_id timeout_ms cancelled execute turn slots) added ∧
      (failed' = true ↔ failed = true ∨
        ∃ outcome ∈ suite_outcomes suite_id timeout_ms cancelled execute turn slots, outcome.2.Spoilt) := by
  induction slots generalizing turn entries failed with
  | nil => exact ⟨[], failed, by rw [run_slots, List.append_nil], List.Forall₂.nil, by simp [suite_outcomes]⟩
  | cons slot slots ih =>
    obtain ⟨entry, failed', hslot, hentry, hfailed⟩ :=
      run_slot_spec (cancelled turn) (execute turn) slot entries failed
    obtain ⟨added, failed'', hrun, hadded, hfailed'⟩ := ih (turn + 1) (entries ++ [entry]) failed'
    refine ⟨entry :: added, failed'', ?_, List.Forall₂.cons hentry hadded, ?_⟩
    · rw [run_slots, hslot, hrun, List.append_assoc, List.singleton_append]
    · rw [hfailed', hfailed, suite_outcomes, or_assoc]
      simp only [List.exists_mem_cons_iff]

/-- The suite says of the outcomes what they are, and nothing of protection. -/
structure HonestSuite (suite_id : String) (outcomes : List (SuiteSlot × VariantOutcome))
    (suite : LocalProcedureSuite) : Prop where
  entries : List.Forall₂ (fun outcome entry => EntryOf suite_id outcome.1 outcome.2 entry) outcomes suite.entries
  in_order : (suite.entries.map fun e => (e.procedure_id, e.procedure_revision, e.technique_id, e.variant)) =
    procedure_corpus.procedures.flatMap fun p =>
      [(p.id, p.revision, p.technique_id, .Positive), (p.id, p.revision, p.technique_id, .BenignControl)]
  pass : suite.fixture_gate = .Pass ↔ ∀ outcome ∈ outcomes, outcome.2.Complete
  failed : suite.fixture_gate = .Failed ↔ ∃ outcome ∈ outcomes, outcome.2.Spoilt
  inconclusive : suite.fixture_gate = .Inconclusive ↔
    ¬ (∀ outcome ∈ outcomes, outcome.2.Complete) ∧ ¬ ∃ outcome ∈ outcomes, outcome.2.Spoilt
  counts : suite.fixture_gate = .Pass →
    suite.executed_variants = suite.variant_denominator ∧ suite.complete_local_pairs = suite.slot_denominator
  gaps : ∀ entry ∈ suite.entries, entry.evidence.any complete = false → ∃ gap, entry.gap = some gap
  protection : suite.protection_result ≠ .Pass

theorem suite_slots_names (corpus : ProcedureCorpus) :
    ((suite_slots corpus).map fun slot =>
      (slot.procedure.id, slot.procedure.revision, slot.procedure.technique_id, slot.variant)) =
    corpus.procedures.flatMap fun p =>
      [(p.id, p.revision, p.technique_id, .Positive), (p.id, p.revision, p.technique_id, .BenignControl)] := by
  rw [suite_slots]
  generalize 0 = start
  induction corpus.procedures generalizing start with
  | nil => rfl
  | cons p procedures ih =>
    rw [List.zipIdx_cons, List.flatMap_cons, List.map_append, ih, List.flatMap_cons]
    rfl

theorem forall_entries {outcomes : List (SuiteSlot × VariantOutcome)} {entries : List LocalSuiteEntry}
    (h : List.Forall₂ (fun outcome entry => EntryOf suite_id outcome.1 outcome.2 entry) outcomes entries) :
    (∀ entry ∈ entries, entry.evidence.any complete = true) ↔ ∀ outcome ∈ outcomes, outcome.2.Complete := by
  induction h with
  | nil => simp
  | cons hentry _ ih =>
    rw [List.forall_mem_cons, List.forall_mem_cons, ih, hentry.evidence, VariantOutcome.complete_iff]

theorem entries_names {outcomes : List (SuiteSlot × VariantOutcome)} {entries : List LocalSuiteEntry}
    (h : List.Forall₂ (fun outcome entry => EntryOf suite_id outcome.1 outcome.2 entry) outcomes entries) :
    (entries.map fun e => (e.procedure_id, e.procedure_revision, e.technique_id, e.variant)) =
      (outcomes.map Prod.fst).map fun slot =>
        (slot.procedure.id, slot.procedure.revision, slot.procedure.technique_id, slot.variant) := by
  induction h with
  | nil => rfl
  | cons hentry _ ih =>
    obtain ⟨hid, hrevision, htechnique, hvariant, -⟩ := hentry.slot_kept
    rw [List.map_cons, List.map_cons, List.map_cons, ih, hid, hrevision, htechnique, hvariant]

theorem entries_gaps {outcomes : List (SuiteSlot × VariantOutcome)} {entries : List LocalSuiteEntry}
    (h : List.Forall₂ (fun outcome entry => EntryOf suite_id outcome.1 outcome.2 entry) outcomes entries) :
    ∀ entry ∈ entries, entry.evidence.any complete = false → ∃ gap, entry.gap = some gap := by
  induction h with
  | nil => simp
  | @cons outcome entry _ _ hentry _ ih =>
    refine List.forall_mem_cons.mpr ⟨fun hincomplete => ?_, ih⟩
    rw [hentry.evidence] at hincomplete
    refine Option.ne_none_iff_exists'.mp fun hnone => ?_
    rw [(VariantOutcome.complete_iff outcome.2).mpr (hentry.gap.mp hnone)] at hincomplete
    cases hincomplete

/-- The pairs are all complete exactly where the entries are. -/
theorem complete_pairs_iff {entries : List LocalSuiteEntry} (hlength : entries.length = 12) :
    ((Chunks.pairs entries).countP fun pair =>
        pair.1.evidence.any complete && pair.2.evidence.any complete) = procedure_corpus.denominator ↔
      ∀ entry ∈ entries, entry.evidence.any complete = true := by
  have hpairs : (Chunks.pairs entries).length = procedure_corpus.denominator := by
    rw [Chunks.pairs_length, hlength]
    rfl
  rw [← hpairs, List.countP_eq_length, ← Chunks.forall_pairs _ entries (by rw [hlength])]
  simp only [Bool.and_eq_true]

/-- The gate follows the flag first and the pairs second. -/
theorem gate_iff {failed : Bool} {pairs denominator : Nat} {Complete Spoilt : Prop} (hfailed : failed = true ↔ Spoilt)
    (hpairs : pairs = denominator ↔ Complete) (hexclusive : Complete → ¬ Spoilt) :
    ((if failed then LocalSuiteGate.Failed else if pairs = denominator then .Pass else .Inconclusive) = .Pass ↔
        Complete) ∧
      ((if failed then LocalSuiteGate.Failed else if pairs = denominator then .Pass else .Inconclusive) = .Failed ↔
        Spoilt) ∧
      ((if failed then LocalSuiteGate.Failed else if pairs = denominator then .Pass else .Inconclusive) =
        .Inconclusive ↔ ¬ Complete ∧ ¬ Spoilt) := by
  by_cases hspoilt : Spoilt
  · have hincomplete : ¬ Complete := fun h => hexclusive h hspoilt
    simp [hfailed.mpr hspoilt, hspoilt, hincomplete]
  · have hclean : failed = false := Bool.not_eq_true _ |>.mp fun h => hspoilt (hfailed.mp h)
    by_cases hcomplete : Complete
    · simp [hclean, hpairs.mpr hcomplete, hspoilt, hcomplete]
    · have hmissing : pairs ≠ denominator := fun h => hcomplete (hpairs.mp h)
      simp [hclean, hmissing, hspoilt, hcomplete]

/-- The requests a suite runs for. -/
structure ValidSuiteRequest (suite_id : String) (timeout_ms : UInt64) : Prop where
  nonempty : suite_id ≠ ""
  length : suite_id.utf8ByteSize ≤ 48
  bytes : ∀ b ∈ Utf8.encode suite_id.toList, suite_id_byte b = true
  timeout : 1 ≤ timeout_ms ∧ timeout_ms ≤ 10000

/-- A suite is honest about every variant. -/
theorem suite_honest {corpus_sha256 : String} {suite : LocalProcedureSuite}
    (hsuite : run_suite suite_id timeout_ms cancelled execute corpus_sha256 = .ok suite) :
    HonestSuite suite_id (suite_outcomes suite_id timeout_ms cancelled execute 0 (suite_slots procedure_corpus))
      suite := by
  unfold run_suite at hsuite
  split_ifs at hsuite
  obtain ⟨entries, failed, hrun, hentries, hfailed⟩ :=
    @run_slots_spec suite_id timeout_ms cancelled execute 0 (suite_slots procedure_corpus) [] false
  rw [List.nil_append] at hrun
  simp only [hrun, Except.ok.injEq] at hsuite
  subst hsuite
  have hlength : entries.length = 12 := by
    rw [← hentries.length_eq, ← List.length_map Prod.fst, suite_outcomes_slots]
    rfl
  have hall := (complete_pairs_iff hlength).trans (forall_entries hentries)
  have hspoilt : failed = true ↔ _ := hfailed.trans (or_iff_right Bool.false_ne_true)
  obtain ⟨hpass, hred, hrest⟩ := gate_iff hspoilt hall fun hcomplete hspoiling => by
    obtain ⟨outcome, houtcome, hbad⟩ := hspoiling
    exact (hcomplete outcome houtcome).not_spoilt hbad
  have hnames := entries_names hentries
  rw [suite_outcomes_slots, suite_slots_names] at hnames
  refine ⟨hentries, hnames, hpass, hred, hrest, fun hgate => ?_, entries_gaps hentries, by simp⟩
  have hcomplete := hpass.mp hgate
  exact ⟨List.countP_eq_length.mpr ((forall_entries hentries).mpr hcomplete), hall.mpr hcomplete⟩

/-- However the executor answers and whenever the suite is cancelled, a valid request gets a suite that
is honest about every variant. -/
theorem run_suite_honest (suite_id : String) (timeout_ms : UInt64) (cancelled : Nat → Bool)
    (execute : Nat → LocalProcedureConfig → Except IoError LocalProcedureAttempt) (corpus_sha256 : String) :
    (ValidSuiteRequest suite_id timeout_ms ↔
      ∃ suite, run_suite suite_id timeout_ms cancelled execute corpus_sha256 = .ok suite) ∧
    ∀ suite, run_suite suite_id timeout_ms cancelled execute corpus_sha256 = .ok suite →
      HonestSuite suite_id (suite_outcomes suite_id timeout_ms cancelled execute 0 (suite_slots procedure_corpus))
        suite := by
  have hrequest : ValidSuiteRequest suite_id timeout_ms ↔
      ¬ ((suite_id.isEmpty || decide (48 < suite_id.utf8ByteSize) ||
          !((Utf8.encode suite_id.toList).all suite_id_byte)) = true) ∧
        ¬ ((!decide (1 ≤ timeout_ms ∧ timeout_ms ≤ 10000)) = true) := by
    simp only [Bool.or_eq_true, not_or, decide_eq_true_eq, Nat.not_lt, Bool.not_eq_true', Bool.not_eq_false,
      List.all_eq_true, decide_eq_false_iff_not, not_not, String.isEmpty_iff]
    exact ⟨fun h => ⟨⟨⟨h.nonempty, h.length⟩, h.bytes⟩, h.timeout⟩, fun h => ⟨h.1.1.1, h.1.1.2, h.1.2, h.2⟩⟩
  refine ⟨?_, fun suite hsuite => suite_honest hsuite⟩
  rw [hrequest]
  unfold run_suite
  split_ifs with hid htimeout
  · exact iff_of_false (fun h => h.1 hid) (by simp)
  · exact iff_of_false (fun h => h.2 htimeout) (by simp)
  · exact iff_of_true ⟨hid, htimeout⟩ ⟨_, rfl⟩

end

end asmodeus.runner
