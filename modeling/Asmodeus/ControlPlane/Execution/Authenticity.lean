import Asmodeus.Common.HexReaders
import Asmodeus.ControlPlane.Execution.Facts

open asmodeus.common asmodeus.telemetry

namespace asmodeus.telemetry

/-- Verify the signature against a trusted public key. The key that the record carries is not asked. -/
def AuditRecord.verify_with_key (is_valid : List UInt8 → List UInt8 → List UInt8 → Bool)
    (trusted_public_key : List UInt8)
    (self : AuditRecord) : Bool :=
  if self.signature_hex = "" then false
  else match from_hex self.signature_hex with
    | none => false
    | some sig => is_valid self.canonical_bytes sig trusted_public_key

theorem from_hex_to_hex (bytes : List UInt8) : from_hex (to_hex bytes) = some bytes := by
  rw [from_hex_eq, (to_hex_eq bytes).1, Hex.decodeParsed_eq, Hex.decode_encode]
  intro hsigned
  refine hsigned.not_wellformed ((Hex.decode_isSome_iff _).mp ?_)
  rw [Hex.decode_encode]
  rfl

theorem to_hex_ne_empty {bytes : List UInt8} (h : bytes ≠ []) : to_hex bytes ≠ "" := by
  intro hempty
  have hlength := Hex.encode_length bytes
  rw [← (to_hex_eq bytes).1, hempty] at hlength
  have hnil : "".toList.length = 0 := rfl
  refine h (List.length_eq_zero_iff.mp ?_)
  omega

end asmodeus.telemetry

namespace asmodeus.control_plane

/-- The key pair of the control plane: its signatures verify, and signing does not fail. -/
structure KeyPair (env : Env) (is_valid : List UInt8 → List UInt8 → List UInt8 → Bool) (public_key : List UInt8) :
    Prop where
  verify : env.verify_with_key = AuditRecord.verify_with_key is_valid public_key
  derived : env.crypto.public_key_from_secret_key env.key = .ok public_key
  signs : ∀ message, ∃ sig, env.crypto.sign_message message env.key = .ok sig
  genuine : ∀ message sig, env.crypto.sign_message message env.key = .ok sig →
    sig ≠ [] ∧ is_valid message sig public_key = true

/-- The record was signed with the control plane's key. -/
def SignedBy (env : Env) (record : AuditRecord) : Prop :=
  ∃ unsigned : AuditRecord, unsigned.sign env.crypto env.key = .ok record

section

variable {env : Env} {is_valid : List UInt8 → List UInt8 → List UInt8 → Bool} {public_key : List UInt8}
  {s next : ExecutionState} {record : AuditRecord} {label : ExecutionLabel}

theorem SignedBy.of_revision {revise : AuditRecord → AuditRecord} {old : AuditRecord}
    (h : signed_revision env.crypto env.key revise old = .ok record) : SignedBy env record := by
  rw [signed_revision] at h
  cases hsign : (revise old).sign env.crypto env.key with
  | error e =>
    rw [hsign] at h
    cases h
  | ok signed =>
    rw [hsign] at h
    obtain rfl := Except.ok.inj h
    exact ⟨_, hsign⟩

/-- Signing a record gives one that verifies. -/
theorem KeyPair.sign (hkeys : KeyPair env is_valid public_key) (unsigned : AuditRecord) :
    ∃ record, unsigned.sign env.crypto env.key = .ok record ∧ record.verify_with_key is_valid public_key = true := by
  obtain ⟨sig, hsig⟩ := hkeys.signs unsigned.canonical_bytes
  obtain ⟨hne, hvalid⟩ := hkeys.genuine _ _ hsig
  refine ⟨{ unsigned with signature_hex := to_hex sig, public_key_hex := to_hex public_key }, ?_, ?_⟩
  · unfold AuditRecord.sign
    rw [hsig, hkeys.derived]
    rfl
  · unfold AuditRecord.verify_with_key
    rw [if_neg (to_hex_ne_empty hne), from_hex_to_hex]
    exact hvalid

theorem SignedBy.verifies (h : SignedBy env record) (hkeys : KeyPair env is_valid public_key) :
    record.verify_with_key is_valid public_key = true := by
  obtain ⟨unsigned, hsign⟩ := h
  obtain ⟨signed, hsigned, hverify⟩ := hkeys.sign unsigned
  rw [hsign] at hsigned
  exact Except.ok.inj hsigned ▸ hverify

/-- All that was committed, and all that waits to be, is signed with the control plane's key. -/
structure ExecutionState.Authentic (env : Env) (s : ExecutionState) : Prop where
  history : ∀ revision ∈ s.history, SignedBy env revision.2
  workers : ∀ (handle : Nat) (w : Worker), s.workers[handle]? = some w → SignedBy env w.record

/-- The workers are as before, as far as their records go. -/
def ExecutionState.SameRecords (s next : ExecutionState) : Prop :=
  ∀ (handle : Nat) (w' : Worker), next.workers[handle]? = some w' →
    ∃ w, s.workers[handle]? = some w ∧ w'.record = w.record

theorem ExecutionState.SameRecords.refl (s : ExecutionState) : s.SameRecords s := fun _ w hw => ⟨w, hw, rfl⟩

theorem ExecutionState.SameRecords.set_worker {handle : Nat} {w w' : Worker} (hw : s.workers[handle]? = some w)
    (hrecord : w'.record = w.record) : s.SameRecords (s.set_worker handle w') := by
  intro j x hx
  rcases get_set_worker hx with ⟨rfl, rfl⟩ | ⟨-, hother⟩
  · exact ⟨w, hw, hrecord⟩
  · exact ⟨x, hother, rfl⟩

theorem ExecutionState.SameRecords.stopped (s : ExecutionState) (stop : StopRequest) :
    s.SameRecords (s.stopped stop) := by
  intro j x hx
  obtain ⟨y, hy, hkeeps⟩ := stopped_keeps s stop j x hx
  exact ⟨y, hy, hkeeps.record⟩

theorem ExecutionState.Authentic.kept (h : s.Authentic env) (hhistory : next.history = s.history)
    (hworkers : s.SameRecords next) : next.Authentic env := by
  refine ⟨fun revision hmem => h.history revision (hhistory ▸ hmem), fun handle w' hw' => ?_⟩
  obtain ⟨w, hw, hrecord⟩ := hworkers handle w' hw'
  rw [hrecord]
  exact h.workers handle w hw

theorem ExecutionState.Authentic.committed {author : Author} (h : s.Authentic env)
    (hhistory : next.history = s.history ++ [(author, record)]) (hsigned : SignedBy env record)
    (hworkers : s.SameRecords next) : next.Authentic env := by
  have hkept : ExecutionState.Authentic env { next with history := s.history } := h.kept rfl hworkers
  refine ⟨fun revision hmem => ?_, hkept.workers⟩
  rw [hhistory] at hmem
  rcases List.mem_append.mp hmem with hbefore | hnow
  · exact h.history revision hbefore
  · rw [List.mem_singleton.mp hnow]
    exact hsigned

/-- Every move signs what it commits. -/
theorem ExecutionState.Authentic.moves (h : s.Authentic env) (hmoves : s.Moves env label next) :
    next.Authentic env := by
  cases hmoves with
  | crash => exact ⟨h.history, fun handle w hw => by cases hw⟩
  | restart audit hdown hload =>
    refine ⟨fun revision hmem => ?_, h.workers⟩
    dsimp only at hmem
    split at hmem
    · exact h.history revision hmem
    · cases hmem
  | serve hrecovered => exact h.kept rfl (.refl s)
  | recover old record pending now hrecovering hsign => exact h.committed rfl ⟨_, hsign⟩ (.refl s)
  | start id entry role selected now record hserving hrole hsign =>
    refine ⟨h.history, fun handle w hw => ?_⟩
    rcases List.mem_append.mp (List.mem_of_getElem? hw) with hbefore | hnow
    · obtain ⟨j, hj⟩ := List.getElem?_of_mem hbefore
      exact h.workers j w hj
    · rw [List.mem_singleton.mp hnow]
      exact ⟨_, hsign⟩
  | refuse handle w hserving hw hphase => exact h.kept rfl (.set_worker hw rfl)
  | append handle w hserving hw hphase hnew => exact h.committed rfl (h.workers handle w hw) (.set_worker hw rfl)
  | insert handle w hserving hw hphase => exact h.kept rfl (ExecutionState.SameRecords.set_worker hw rfl)
  | settle handle w settlement hserving hw hphase => exact h.kept rfl (.set_worker hw rfl)
  | unsave handle w hserving hw hphase => exact h.kept rfl (.set_worker hw rfl)
  | vanish handle w hserving hw hphase hgone => exact h.kept rfl (.set_worker hw rfl)
  | commit handle w settlement now old record hserving hw hphase hold hrevise hid hsettlement =>
    exact h.committed rfl (.of_revision hrevise) (ExecutionState.SameRecords.set_worker hw rfl)
  | remove handle w hserving hw hphase => exact h.kept rfl (ExecutionState.SameRecords.set_worker hw rfl)
  | check_feedback feedback old hserving hold hterminal => exact h.kept rfl (.refl s)
  | drop_feedback request hserving => exact h.kept rfl (.refl s)
  | commit_feedback request feedback now old record hserving hfeedback hold hrevise hid =>
    exact h.committed rfl (.of_revision hrevise) (.refl s)
  | begin_cancel role run_id record category hserving hrecord hcategory hrole => exact h.kept rfl (.refl s)
  | begin_abort role hserving => exact h.kept rfl (.refl s)
  | stop_pass request stop hserving hstop hpending =>
    refine h.kept ?_ (ExecutionState.SameRecords.stopped s stop)
    dsimp only
    rw [stopped_frame s stop]
  | cancel_scenario run_id hserving =>
    rw [cancel_scenario_eq_stopped]
    refine h.kept ?_ (.stopped s _)
    rw [stopped_frame]

theorem mem_replay {revisions : List AuditRecord} (h : record ∈ replay revisions) : record ∈ revisions := by
  induction revisions using List.reverseRecOn with
  | nil => cases h
  | append_singleton revisions last ih =>
    rw [replay_snoc] at h
    rcases KeyedList.mem_upsert h with rfl | hbefore
    · exact List.mem_append_right _ List.mem_cons_self
    · exact List.mem_append_left _ (ih hbefore)

/-- The trail holds signed records only. -/
theorem ExecutionState.Authentic.trail (h : s.Authentic env) (hsound : s.Sound)
    (hmem : record ∈ s.audit.trail.records) :
    SignedBy env record := by
  rw [hsound.faithful.records] at hmem
  obtain ⟨revision, hrevision, rfl⟩ := List.mem_map.mp (mem_replay hmem)
  exact h.history revision hrevision

theorem AuditStore.mem_incomplete {self : AuditStore} {run_id : String} (hget : self.get run_id = some record)
    (hrunning : record.is_terminal = false) : record ∈ self.incomplete := by
  refine List.mem_filter.mpr ⟨(KeyedList.find_some hget).1, ?_⟩
  simp [hrunning]

/-- The log loads, its records pass the check, and what is loaded is the store
that wrote it. Without a log the process starts empty. -/
theorem ExecutionState.Authentic.loads (h : s.Authentic env) (hsound : s.Sound)
    (hkeys : KeyPair env is_valid public_key) :
    ∃ audit, AuditStore.load env.reader s.audit.log = .ok audit ∧
      (audit.trail.records.all env.verify_with_key) = true ∧ (s.audit.log.isSome = true → audit = s.audit) := by
  cases hlog : s.audit.log with
  | none => exact ⟨_, rfl, rfl, fun hsome => by cases hsome⟩
  | some file =>
    refine ⟨s.audit, hsound.faithful.reload env.reader hlog, ?_, fun _ => rfl⟩
    refine List.all_eq_true.mpr fun record hmem => ?_
    rw [hkeys.verify]
    exact (h.trail hsound hmem).verifies hkeys

/-- What is unfinished in the store is still to be closed. -/
def ExecutionState.OpenIn (s : ExecutionState) (pending : List AuditRecord) : Prop :=
  ∀ (run_id : String) (record : AuditRecord), s.audit.get run_id = some record → record.is_terminal = false →
    record ∈ pending

/-- The runs of the store are still known. -/
def ExecutionState.KeepsRuns (s next : ExecutionState) : Prop :=
  ∀ run_id : String, (s.audit.get run_id).isSome = true → (next.audit.get run_id).isSome = true

/-- A stopped process starts again on its own log. -/
theorem ExecutionState.Authentic.restart (h : s.Authentic env) (hsound : s.Sound)
    (hkeys : KeyPair env is_valid public_key)
    (hdown : s.process = .down) : ∃ next pending, s.step env .restart = some next ∧ next.process = .recovering pending ∧
      next.OpenIn pending ∧ (s.audit.log.isSome = true → s.KeepsRuns next) := by
  obtain ⟨audit, hloaded, htrusted, hsame⟩ := h.loads hsound hkeys
  have hstep : s.step env .restart = some { s with
      process := .recovering audit.incomplete
      audit := audit
      history := if s.audit.log.isSome then s.history else [] } := by
    change s.restart env = _
    rw [ExecutionState.restart, hdown]
    dsimp only
    rw [hloaded]
    dsimp only
    rw [if_pos htrusted]
  refine ⟨_, audit.incomplete, hstep, rfl, fun _ _ => AuditStore.mem_incomplete, fun hsome run_id hknown => ?_⟩
  change (audit.get run_id).isSome = true
  rw [hsame hsome]
  exact hknown

end

end asmodeus.control_plane
