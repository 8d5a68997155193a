import Asmodeus.Lib.Transition
import Asmodeus.Runner.NetChaos
import Mathlib.Data.List.Nodup
import Mathlib.Logic.Function.Basic

namespace asmodeus.runner

/-- In-process backend: records applied rules and drops them on revert. -/
structure SimBackend where
  installed : List RuleHandle
  next_token : UInt64

namespace SimBackend

def default : SimBackend := ⟨[], 0⟩

/-- Rules currently installed. -/
def active_rules (self : SimBackend) : List RuleHandle := self.installed

/-- The first half of `apply`: `fetch_add` wraps around. -/
def fetch_token (self : SimBackend) (spec : NetChaosSpec) : RuleHandle × SimBackend :=
  (⟨spec.iface, spec.target_cidr, self.next_token.toNat⟩, { self with next_token := self.next_token + 1 })

/-- The second half of `apply`, under the lock. -/
def push (self : SimBackend) (handle : RuleHandle) : SimBackend :=
  { self with installed := self.installed ++ [handle] }

def revert (self : SimBackend) (handle : RuleHandle) : Except NetChaosError Unit × SimBackend :=
  let rules := self.installed.filter fun r => decide (r.token ≠ handle.token)
  (if rules.length = self.installed.length then .error (.Backend ("no such rule token=" ++ toString handle.token))
    else .ok (), { self with installed := rules })

end SimBackend

/-- A live chaos rule with a guaranteed rollback. -/
structure NetChaosSession where
  handle : Option RuleHandle

/-- Where a session is, from before its start to after its drop. -/
inductive SessionPhase
  | idle
  | refused (error : NetChaosError)
  | applying (handle : RuleHandle)
  | live (session : NetChaosSession)
  | reverting (handle : RuleHandle)
  | dropping (handle : RuleHandle)
  | dropped

/-- One atomic step of one session: the token is fetched, the rule pushed, the handle taken and the
rule removed, each with anything of other sessions in between. -/
inductive SessionOp (ι : Type)
  | start (session : ι) (spec : NetChaosSpec)
  | push (session : ι)
  | revert (session : ι)
  | drop (session : ι)
  | remove (session : ι)

def SessionOp.session {ι : Type} : SessionOp ι → ι
  | .start session _ | .push session | .revert session | .drop session | .remove session => session

def SessionOp.is_start {ι : Type} : SessionOp ι → Bool
  | .start _ _ => true
  | _ => false

/-- Sessions that share a backend, with the errors that reverts have reported. -/
structure ChaosSystem (ι : Type) where
  backend : SimBackend
  sessions : ι → SessionPhase
  errors : List NetChaosError

namespace ChaosSystem

variable {ι : Type} [DecidableEq ι]

def initial : ChaosSystem ι := ⟨.default, fun _ => .idle, []⟩

/-- The last step of a revert, before the session goes on. -/
def remove (s : ChaosSystem ι) (i : ι) (handle : RuleHandle) (after : SessionPhase) : ChaosSystem ι where
  backend := (s.backend.revert handle).2
  sessions := Function.update s.sessions i after
  errors := match (s.backend.revert handle).1 with
    | .ok () => s.errors
    | .error e => s.errors ++ [e]

def step (s : ChaosSystem ι) : SessionOp ι → Option (ChaosSystem ι)
  | .start i spec => match s.sessions i with
    | .idle => match spec.validate with
      | .error e => some { s with sessions := Function.update s.sessions i (.refused e) }
      | .ok () => some { s with
          backend := (s.backend.fetch_token spec).2
          sessions := Function.update s.sessions i (.applying (s.backend.fetch_token spec).1) }
    | _ => none
  | .push i => match s.sessions i with
    | .applying handle => some { s with
        backend := s.backend.push handle
        sessions := Function.update s.sessions i (.live ⟨some handle⟩) }
    | _ => none
  -- A taken handle leaves `None` behind: the next revert is a no-op.
  | .revert i => match s.sessions i with
    | .live ⟨some handle⟩ => some { s with sessions := Function.update s.sessions i (.reverting handle) }
    | .live ⟨none⟩ => some s
    | _ => none
  | .drop i => match s.sessions i with
    | .live ⟨some handle⟩ => some { s with sessions := Function.update s.sessions i (.dropping handle) }
    | .live ⟨none⟩ => some { s with sessions := Function.update s.sessions i .dropped }
    | _ => none
  | .remove i => match s.sessions i with
    | .reverting handle => some (s.remove i handle (.live ⟨none⟩))
    | .dropping handle => some (s.remove i handle .dropped)
    | _ => none

end ChaosSystem

namespace SessionPhase

/-- The rule a session has installed and not yet removed. -/
def rule : SessionPhase → Option RuleHandle
  | .live session => session.handle
  | .reverting handle | .dropping handle => some handle
  | _ => none

/-- The handle of a session, from the moment its token is fetched. -/
def claim : SessionPhase → Option RuleHandle
  | .applying handle => some handle
  | phase => phase.rule

theorem claim_of_rule {phase : SessionPhase} {handle : RuleHandle} (h : phase.rule = some handle) :
    phase.claim = some handle := by
  cases phase with
  | applying _ => cases h
  | _ => exact h

end SessionPhase

namespace ChaosSystem

variable {ι : Type} [DecidableEq ι]

/-- What a step can do: fetch a token, push a rule, remove a rule, or leave the rules alone. -/
inductive Does (s : ChaosSystem ι) : SessionOp ι → ChaosSystem ι → Prop
  | fetch (i : ι) (spec : NetChaosSpec) (hidle : s.sessions i = .idle) (hvalid : spec.validate = .ok ()) :
    Does s (.start i spec) { s with
      backend := (s.backend.fetch_token spec).2
      sessions := Function.update s.sessions i (.applying (s.backend.fetch_token spec).1) }
  | push (i : ι) (handle : RuleHandle) (happlying : s.sessions i = .applying handle) :
    Does s (.push i) { s with
      backend := s.backend.push handle
      sessions := Function.update s.sessions i (.live ⟨some handle⟩) }
  | pass (op : SessionOp ι) (phase : SessionPhase) (hrule : phase.rule = (s.sessions op.session).rule)
    (hclaim : phase.claim = (s.sessions op.session).claim) :
    Does s op { s with sessions := Function.update s.sessions op.session phase }
  | remove (i : ι) (handle : RuleHandle) (after : SessionPhase) (hrule : (s.sessions i).rule = some handle)
    (hafter : after.claim = none) : Does s (.remove i) (s.remove i handle after)

theorem step_does {s s' : ChaosSystem ι} {op : SessionOp ι} (h : s.step op = some s') : s.Does op s' := by
  have hkept : ∀ i, Function.update s.sessions i (s.sessions i) = s.sessions :=
    fun i => Function.update_eq_self i s.sessions
  cases op with
  | start i spec =>
    simp only [step] at h
    split at h
    · rename_i hidle
      split at h
      · obtain rfl := Option.some.inj h
        exact .pass (.start i spec) (.refused _) (by rw [SessionOp.session, hidle]; rfl)
          (by rw [SessionOp.session, hidle]; rfl)
      · rename_i hvalid
        obtain rfl := Option.some.inj h
        exact .fetch i spec hidle hvalid
    · cases h
  | push i =>
    simp only [step] at h
    split at h
    · rename_i handle happlying
      obtain rfl := Option.some.inj h
      exact .push i handle happlying
    · cases h
  | revert i =>
    simp only [step] at h
    split at h
    · rename_i handle hlive
      obtain rfl := Option.some.inj h
      exact .pass (.revert i) (.reverting handle) (by rw [SessionOp.session, hlive]; rfl)
        (by rw [SessionOp.session, hlive]; rfl)
    · obtain rfl := Option.some.inj h
      have hpass := Does.pass (s := s) (.revert i) (s.sessions i) rfl rfl
      rwa [SessionOp.session, hkept] at hpass
    · cases h
  | drop i =>
    simp only [step] at h
    split at h
    · rename_i handle hlive
      obtain rfl := Option.some.inj h
      exact .pass (.drop i) (.dropping handle) (by rw [SessionOp.session, hlive]; rfl)
        (by rw [SessionOp.session, hlive]; rfl)
    · rename_i hlive
      obtain rfl := Option.some.inj h
      exact .pass (.drop i) .dropped (by rw [SessionOp.session, hlive]; rfl) (by rw [SessionOp.session, hlive]; rfl)
    · cases h
  | remove i =>
    simp only [step] at h
    split at h
    · rename_i handle hreverting
      obtain rfl := Option.some.inj h
      exact .remove i handle (.live ⟨none⟩) (by rw [hreverting]; rfl) rfl
    · rename_i handle hdropping
      obtain rfl := Option.some.inj h
      exact .remove i handle .dropped (by rw [hdropping]; rfl) rfl
    · cases h

/-- Every active rule is the rule of one session, and every rule of a session is active. -/
structure Owned (s : ChaosSystem ι) : Prop where
  rules : ∀ handle, handle ∈ s.backend.active_rules ↔ ∃ i, (s.sessions i).rule = some handle
  once : (s.backend.active_rules.map RuleHandle.token).Nodup
  unique : ∀ i j handle handle', (s.sessions i).claim = some handle → (s.sessions j).claim = some handle' →
    handle.token = handle'.token → i = j
  no_errors : s.errors = []

/-- The token a start is given is not one that a session still has. -/
def Fresh (s : ChaosSystem ι) : SessionOp ι → Prop
  | .start _ _ => ∀ j handle, (s.sessions j).claim = some handle → handle.token ≠ s.backend.next_token.toNat
  | _ => True

omit [DecidableEq ι] in
theorem initial_owned : (initial : ChaosSystem ι).Owned where
  rules handle := by simp [initial, SimBackend.default, SimBackend.active_rules, SessionPhase.rule]
  once := List.nodup_nil
  unique i j handle handle' h := by simp [initial, SessionPhase.claim, SessionPhase.rule] at h
  no_errors := rfl

omit [DecidableEq ι] in
/-- Removing the rule of a session takes that rule and no other, and succeeds. -/
theorem Owned.revert {s : ChaosSystem ι} (h : s.Owned) {i : ι} {handle : RuleHandle}
    (hrule : (s.sessions i).rule = some handle) :
    (s.backend.revert handle).1 = .ok () ∧
      ∀ other, other ∈ (s.backend.revert handle).2.active_rules ↔ other ∈ s.backend.active_rules ∧ other ≠ handle := by
  have hactive : handle ∈ s.backend.installed := (h.rules handle).mpr ⟨i, hrule⟩
  constructor
  · have hshorter : (s.backend.installed.filter fun r => decide (r.token ≠ handle.token)).length ≠
        s.backend.installed.length := by
      intro heq
      have hall := List.length_filter_eq_length_iff.mp heq handle hactive
      simp at hall
    rw [SimBackend.revert]
    exact if_neg hshorter
  · intro other
    have hmem : other ∈ (s.backend.revert handle).2.active_rules ↔
        other ∈ s.backend.active_rules ∧ other.token ≠ handle.token := by
      simp [SimBackend.revert, SimBackend.active_rules]
    rw [hmem]
    refine and_congr_right fun hother => not_congr ⟨fun htoken => ?_, fun heq => by rw [heq]⟩
    exact List.inj_on_of_nodup_map h.once hother hactive htoken

theorem rule_of_claim_none {phase : SessionPhase} (h : phase.claim = none) : phase.rule = none := by
  cases hrule : phase.rule with
  | none => rfl
  | some handle =>
    rw [SessionPhase.claim_of_rule hrule] at h
    cases h

theorem update_cases (sessions : ι → SessionPhase) (i : ι) (phase : SessionPhase) (j : ι) :
    (j = i ∧ Function.update sessions i phase j = phase) ∨
      (j ≠ i ∧ Function.update sessions i phase j = sessions j) := by
  by_cases hj : j = i
  · exact Or.inl ⟨hj, by rw [hj, Function.update_self]⟩
  · exact Or.inr ⟨hj, Function.update_of_ne hj phase sessions⟩

/-- A session that keeps its rule and its handle leaves the ownership as it is. -/
theorem Owned.pass {s : ChaosSystem ι} (h : s.Owned) {i : ι} {phase : SessionPhase}
    (hrule : phase.rule = (s.sessions i).rule) (hclaim : phase.claim = (s.sessions i).claim) :
    ({ s with sessions := Function.update s.sessions i phase } : ChaosSystem ι).Owned := by
  have hsame : ∀ j, (Function.update s.sessions i phase j).rule = (s.sessions j).rule ∧
      (Function.update s.sessions i phase j).claim = (s.sessions j).claim := by
    intro j
    obtain ⟨rfl, hj⟩ | ⟨-, hj⟩ := update_cases s.sessions i phase j
    · rw [hj]
      exact ⟨hrule, hclaim⟩
    · rw [hj]
      exact ⟨rfl, rfl⟩
  refine ⟨fun handle => ?_, h.once, fun j k first second hj hk htoken => ?_, h.no_errors⟩
  · simp only [hsame]
    exact h.rules handle
  · exact h.unique j k first second ((hsame j).2.symm.trans hj) ((hsame k).2.symm.trans hk) htoken

/-- A fresh token belongs to its session alone. -/
theorem Owned.fetch {s : ChaosSystem ι} (h : s.Owned) {i : ι} {spec : NetChaosSpec} (hidle : s.sessions i = .idle)
    (hfresh : ∀ j handle, (s.sessions j).claim = some handle → handle.token ≠ s.backend.next_token.toNat) :
    ({ s with
      backend := (s.backend.fetch_token spec).2
      sessions := Function.update s.sessions i (.applying (s.backend.fetch_token spec).1) } : ChaosSystem ι).Owned := by
  have hrules : ∀ j, (Function.update s.sessions i (.applying (s.backend.fetch_token spec).1) j).rule =
      (s.sessions j).rule := by
    intro j
    obtain ⟨rfl, hj⟩ | ⟨-, hj⟩ := update_cases s.sessions i (.applying (s.backend.fetch_token spec).1) j
    · rw [hj, hidle]
      rfl
    · rw [hj]
  have hclaims : ∀ j handle,
      (Function.update s.sessions i (.applying (s.backend.fetch_token spec).1) j).claim = some handle →
      (j = i ∧ handle.token = s.backend.next_token.toNat) ∨ (s.sessions j).claim = some handle := by
    intro j handle hclaim
    obtain ⟨rfl, hj⟩ | ⟨-, hj⟩ := update_cases s.sessions i (.applying (s.backend.fetch_token spec).1) j
    · rw [hj, SessionPhase.claim, Option.some.injEq] at hclaim
      exact Or.inl ⟨rfl, by rw [← hclaim]; rfl⟩
    · exact Or.inr (hj ▸ hclaim)
  refine ⟨fun handle => ?_, h.once, fun j k first second hj hk htoken => ?_, h.no_errors⟩
  · simp only [hrules]
    exact h.rules handle
  · obtain ⟨rfl, hnew⟩ | hold := hclaims j first hj
    · obtain ⟨rfl, -⟩ | hold' := hclaims k second hk
      · rfl
      · exact absurd (htoken.symm.trans hnew) (hfresh k second hold')
    · obtain ⟨rfl, hnew⟩ | hold' := hclaims k second hk
      · exact absurd (htoken.trans hnew) (hfresh j first hold)
      · exact h.unique j k first second hold hold' htoken

/-- The rule that is pushed is the session's own. -/
theorem Owned.push {s : ChaosSystem ι} (h : s.Owned) {i : ι} {handle : RuleHandle}
    (happlying : s.sessions i = .applying handle) :
    ({ s with
      backend := s.backend.push handle
      sessions := Function.update s.sessions i (.live ⟨some handle⟩) } : ChaosSystem ι).Owned := by
  have hnone : (s.sessions i).rule = none := by rw [happlying]; rfl
  have hclaim : (s.sessions i).claim = some handle := by rw [happlying]; rfl
  have hclaims : ∀ j, (Function.update s.sessions i (.live ⟨some handle⟩) j).claim = (s.sessions j).claim := by
    intro j
    obtain ⟨rfl, hj⟩ | ⟨-, hj⟩ := update_cases s.sessions i (.live ⟨some handle⟩) j
    · rw [hj, hclaim]
      rfl
    · rw [hj]
  have hnew : handle.token ∉ s.backend.active_rules.map RuleHandle.token := by
    intro hmem
    obtain ⟨other, hother, htoken⟩ := List.mem_map.mp hmem
    obtain ⟨j, hrule⟩ := (h.rules other).mp hother
    obtain rfl := h.unique j i other handle (SessionPhase.claim_of_rule hrule) hclaim htoken
    rw [hnone] at hrule
    cases hrule
  refine ⟨fun other => ?_, ?_, fun j k first second hj hk htoken => ?_, h.no_errors⟩
  · have hmem : other ∈ (s.backend.push handle).active_rules ↔ other ∈ s.backend.active_rules ∨ other = handle := by
      simp [SimBackend.push, SimBackend.active_rules]
    rw [hmem, h.rules other]
    constructor
    · rintro (⟨j, hrule⟩ | rfl)
      · obtain ⟨rfl, -⟩ | ⟨-, hj⟩ := update_cases s.sessions i (.live ⟨some handle⟩) j
        · rw [hnone] at hrule
          cases hrule
        · exact ⟨j, (congrArg SessionPhase.rule hj).trans hrule⟩
      · exact ⟨i, by simp [SessionPhase.rule]⟩
    · rintro ⟨j, hrule⟩
      obtain ⟨rfl, hj⟩ | ⟨-, hj⟩ := update_cases s.sessions i (.live ⟨some handle⟩) j
      · exact Or.inr (Option.some.inj ((congrArg SessionPhase.rule hj).symm.trans hrule)).symm
      · exact Or.inl ⟨j, (congrArg SessionPhase.rule hj).symm.trans hrule⟩
  · have honce := h.once
    simp only [SimBackend.push, SimBackend.active_rules, List.map_append, List.map_cons, List.map_nil,
      List.nodup_append, List.mem_singleton] at honce hnew ⊢
    refine ⟨honce, List.nodup_singleton _, fun token htoken other hother => ?_⟩
    rw [hother]
    rintro rfl
    exact hnew htoken
  · exact h.unique j k first second ((hclaims j).symm.trans hj) ((hclaims k).symm.trans hk) htoken

/-- A session that removes its rule has none left, and the others keep theirs. -/
theorem Owned.remove {s : ChaosSystem ι} (h : s.Owned) {i : ι} {handle : RuleHandle} {after : SessionPhase}
    (hrule : (s.sessions i).rule = some handle) (hafter : after.claim = none) : (s.remove i handle after).Owned := by
  obtain ⟨hok, hleft⟩ := h.revert hrule
  have hclaims : ∀ j other, (Function.update s.sessions i after j).claim = some other →
      (s.sessions j).claim = some other := by
    intro j other hclaim
    obtain ⟨rfl, hj⟩ | ⟨-, hj⟩ := update_cases s.sessions i after j
    · rw [hj, hafter] at hclaim
      cases hclaim
    · exact hj ▸ hclaim
  refine ⟨fun other => ?_, ?_, fun j k first second hj hk htoken => ?_, ?_⟩
  · refine (hleft other).trans ?_
    rw [h.rules other]
    constructor
    · rintro ⟨⟨j, hother⟩, hne⟩
      obtain ⟨rfl, -⟩ | ⟨-, hj⟩ := update_cases s.sessions i after j
      · exact absurd (Option.some.inj (hother.symm.trans hrule)) hne
      · exact ⟨j, (congrArg SessionPhase.rule hj).trans hother⟩
    · rintro ⟨j, hother⟩
      obtain ⟨rfl, hj⟩ | ⟨hne, hj⟩ := update_cases s.sessions i after j
      · have hnone := (congrArg SessionPhase.rule hj).trans (rule_of_claim_none hafter)
        cases hnone.symm.trans hother
      · have hkept : (s.sessions j).rule = some other := (congrArg SessionPhase.rule hj).symm.trans hother
        refine ⟨⟨j, hkept⟩, ?_⟩
        rintro rfl
        exact hne (h.unique j i other other (SessionPhase.claim_of_rule hkept) (SessionPhase.claim_of_rule hrule) rfl)
  · exact h.once.sublist (List.filter_sublist.map _)
  · exact h.unique j k first second (hclaims j first hj) (hclaims k second hk) htoken
  · rw [ChaosSystem.remove, hok]
    exact h.no_errors

theorem owned_preserved {s s' : ChaosSystem ι} {op : SessionOp ι} (h : s.Owned) (hfresh : s.Fresh op)
    (hstep : s.step op = some s') : s'.Owned := by
  cases step_does hstep with
  | fetch i spec hidle hvalid => exact h.fetch hidle hfresh
  | push i handle happlying => exact h.push happlying
  | pass op phase hrule hclaim => exact h.pass hrule hclaim
  | remove i handle after hrule hafter => exact h.remove hrule hafter

/-- A step takes away no rule but that of its own session. -/
theorem Owned.step_keeps {s s' : ChaosSystem ι} {op : SessionOp ι} (h : s.Owned) (hstep : s.step op = some s')
    {handle : RuleHandle} (hactive : handle ∈ s.backend.active_rules) (hgone : handle ∉ s'.backend.active_rules) :
    (s.sessions op.session).rule = some handle := by
  cases step_does hstep with
  | fetch i spec hidle hvalid => exact absurd hactive hgone
  | push i other happlying => exact absurd (List.mem_append_left [other] hactive) hgone
  | pass op phase hrule hclaim => exact absurd hactive hgone
  | remove i other after hrule hafter =>
    have hleft := ((h.revert hrule).2 handle).not.mp hgone
    rw [not_and_not_right] at hleft
    rw [SessionOp.session, hrule, hleft hactive]

/-- The first tokens have been given out, and sessions have no other. -/
structure TokensBelow (s : ChaosSystem ι) (given : Nat) : Prop where
  next : s.backend.next_token.toNat = given % 2 ^ 64
  below : ∀ i handle, (s.sessions i).claim = some handle → handle.token < given

/-- A start gives out the next token, and no other step gives out any. -/
theorem TokensBelow.step {s s' : ChaosSystem ι} {given : Nat} {op : SessionOp ι} (h : s.TokensBelow given)
    (hbound : op.is_start = true → given < 2 ^ 64) (hstep : s.step op = some s') :
    s'.TokensBelow given ∨ (op.is_start = true ∧ s'.TokensBelow (given + 1)) := by
  cases step_does hstep with
  | fetch i spec hidle hvalid =>
    have hgiven : s.backend.next_token.toNat = given := h.next.trans (Nat.mod_eq_of_lt (hbound rfl))
    refine Or.inr ⟨rfl, ?_, fun j handle hclaim => ?_⟩
    · rw [SimBackend.fetch_token, UInt64.toNat_add, hgiven]
      rfl
    · obtain ⟨rfl, hj⟩ | ⟨-, hj⟩ := update_cases s.sessions i (.applying (s.backend.fetch_token spec).1) j
      · have hnew := (congrArg SessionPhase.claim hj).symm.trans hclaim
        rw [SessionPhase.claim, Option.some.injEq] at hnew
        rw [← hnew]
        exact hgiven.trans_lt (Nat.lt_succ_self given)
      · exact (h.below j handle ((congrArg SessionPhase.claim hj).symm.trans hclaim)).trans (Nat.lt_succ_self given)
  | push i handle happlying =>
    refine Or.inl ⟨h.next, fun j other hclaim => ?_⟩
    obtain ⟨rfl, hj⟩ | ⟨-, hj⟩ := update_cases s.sessions i (.live ⟨some handle⟩) j
    · refine h.below j other ?_
      rw [happlying]
      exact (congrArg SessionPhase.claim hj).symm.trans hclaim
    · exact h.below j other ((congrArg SessionPhase.claim hj).symm.trans hclaim)
  | pass op phase hrule hclaim =>
    refine Or.inl ⟨h.next, fun j other hother => ?_⟩
    obtain ⟨rfl, hj⟩ | ⟨-, hj⟩ := update_cases s.sessions op.session phase j
    · exact h.below _ other (hclaim.symm.trans ((congrArg SessionPhase.claim hj).symm.trans hother))
    · exact h.below j other ((congrArg SessionPhase.claim hj).symm.trans hother)
  | remove i handle after hrule hafter =>
    refine Or.inl ⟨h.next, fun j other hclaim => ?_⟩
    obtain ⟨rfl, hj⟩ | ⟨-, hj⟩ := update_cases s.sessions i after j
    · have hnone := (congrArg SessionPhase.claim hj).trans hafter
      cases hnone.symm.trans hclaim
    · exact h.below j other ((congrArg SessionPhase.claim hj).symm.trans hclaim)

omit [DecidableEq ι] in
theorem TokensBelow.fresh {s : ChaosSystem ι} {given : Nat} (h : s.TokensBelow given) (op : SessionOp ι)
    (hbound : op.is_start = true → given < 2 ^ 64) : s.Fresh op := by
  cases op with
  | start i spec =>
    intro j handle hclaim htoken
    have hlt := h.below j handle hclaim
    rw [htoken, h.next, Nat.mod_eq_of_lt (hbound rfl)] at hlt
    exact Nat.lt_irrefl given hlt
  | _ => trivial

/-- As long as the counter has not come round, every token is fresh. -/
theorem fresh_of_starts {ops : List (SessionOp ι)} {s : ChaosSystem ι} (hrun : Transition.run step initial ops = some s)
    (hstarts : ops.countP SessionOp.is_start ≤ 2 ^ 64) :
    Transition.Always step (fun s op _ => s.Fresh op) initial ops := by
  have hinduction : ops.countP SessionOp.is_start ≤ 2 ^ 64 →
      Transition.Always step (fun s op _ => s.Fresh op) initial ops ∧
        ∃ given ≤ ops.countP SessionOp.is_start, s.TokensBelow given := by
    refine Transition.run_induction (P := fun ops s => ops.countP SessionOp.is_start ≤ 2 ^ 64 →
      Transition.Always step (fun s op _ => s.Fresh op) initial ops ∧
        ∃ given ≤ ops.countP SessionOp.is_start, s.TokensBelow given) ?_ ?_ hrun
    · intro _
      refine ⟨trivial, 0, Nat.zero_le _, rfl, fun i handle hclaim => ?_⟩
      simp [initial, SessionPhase.claim, SessionPhase.rule] at hclaim
    · intro ops s op s' hrun ih hstep hcount
      rw [List.countP_append, List.countP_singleton] at hcount
      obtain ⟨halways, given, hgiven, hbelow⟩ := ih (by omega)
      have hbound : op.is_start = true → given < 2 ^ 64 := by
        intro hstart
        rw [if_pos hstart] at hcount
        omega
      refine ⟨halways.extend hrun fun next _ => ⟨hbelow.fresh op hbound, trivial⟩, ?_⟩
      rw [List.countP_append, List.countP_singleton]
      obtain hbelow' | ⟨hstart, hbelow'⟩ := hbelow.step hbound hstep
      · exact ⟨given, by omega, hbelow'⟩
      · rw [if_pos hstart]
        exact ⟨given + 1, by omega, hbelow'⟩
  exact (hinduction hstarts).1

/-- In every interleaving whose starts are given tokens that no session still has, the active rules are
those of the sessions that have not removed theirs, each the rule of one; no step takes away another
session's rule, no revert has failed and a refused start has installed nothing. Until the counter of
tokens has come round, every interleaving is one of these. -/
theorem sessions_own_rules :
    (∀ (ops : List (SessionOp ι)) (s : ChaosSystem ι), Transition.run step initial ops = some s →
      Transition.Always step (fun s op _ => s.Fresh op) initial ops →
      s.Owned ∧ ∀ op s', s.step op = some s' →
        (∀ handle ∈ s.backend.active_rules, handle ∉ s'.backend.active_rules →
          (s.sessions op.session).rule = some handle) ∧
        ∀ i spec error, op = .start i spec → spec.validate = .error error → s'.backend = s.backend) ∧
    ∀ (ops : List (SessionOp ι)) (s : ChaosSystem ι), Transition.run step initial ops = some s →
      ops.countP SessionOp.is_start ≤ 2 ^ 64 → Transition.Always step (fun s op _ => s.Fresh op) initial ops := by
  refine ⟨fun ops s hrun hfresh => ?_, fun ops s hrun hstarts => fresh_of_starts hrun hstarts⟩
  have hpreserved : ∀ (state : ChaosSystem ι) op next, state.Owned → state.Fresh op → state.step op = some next →
      next.Owned := fun _ _ _ howned hfresh hstep => owned_preserved howned hfresh hstep
  have howned : s.Owned := Transition.Always.preserves hpreserved hfresh initial_owned hrun
  refine ⟨howned, fun op s' hstep => ⟨fun handle hactive hgone => howned.step_keeps hstep hactive hgone, ?_⟩⟩
  rintro i spec error rfl hinvalid
  cases hphase : s.sessions i with
  | idle =>
    rw [step, hphase, hinvalid] at hstep
    rw [← Option.some.inj hstep]
  | _ => simp [step, hphase] at hstep

/-- A session that is started and dropped at once. -/
def churn (spec : NetChaosSpec) (i : ι) : List (SessionOp ι) := [.start i spec, .push i, .drop i, .remove i]

/-- It leaves the rules of the others, but for those of its own token. -/
theorem run_churn {s : ChaosSystem ι} {i : ι} {spec : NetChaosSpec} (hidle : s.sessions i = .idle)
    (hvalid : spec.validate = .ok ()) :
    ∃ s', Transition.run step s (churn spec i) = some s' ∧
      s'.backend.next_token = s.backend.next_token + 1 ∧
      s'.backend.installed = s.backend.installed.filter (fun r => decide (r.token ≠ s.backend.next_token.toNat)) ∧
      s'.sessions = Function.update s.sessions i .dropped := by
  simp [churn, Transition.run, step, hidle, hvalid, remove, SimBackend.fetch_token, SimBackend.push, SimBackend.revert]

def loopback_spec : NetChaosSpec := ⟨"lo", "127.0.0.0/8", 10, 0, 0, 1000⟩

theorem loopback_spec_valid : loopback_spec.validate = .ok () := by
  decide +kernel

def first_rule : RuleHandle := ⟨"lo", "127.0.0.0/8", 0⟩

/-- The first session outlives any number of others, until the counter comes round. -/
theorem run_churns (n : Nat) (hn : n < 2 ^ 64) :
    ∃ (ops : List (SessionOp Nat)) (s : ChaosSystem Nat), Transition.run step initial ops = some s ∧
      s.backend.next_token = UInt64.ofNat (n + 1) ∧ s.backend.installed = [first_rule] ∧
      s.sessions 0 = .live ⟨some first_rule⟩ ∧ ∀ j, n < j → s.sessions j = .idle := by
  induction n with
  | zero =>
    have hstart := loopback_spec_valid
    refine ⟨[.start 0 loopback_spec, .push 0], ⟨⟨[first_rule], 1⟩,
      Function.update (Function.update (fun _ => .idle) 0 (.applying first_rule)) 0 (.live ⟨some first_rule⟩), []⟩,
      ?_, rfl, rfl, rfl, fun j hj => ?_⟩
    · simp only [Transition.run, step, initial, hstart, Option.bind_some, Function.update_self]
      rfl
    · have hne : j ≠ 0 := Nat.ne_of_gt hj
      exact (Function.update_of_ne hne _ _).trans (Function.update_of_ne hne _ _)
  | succ n ih =>
    obtain ⟨ops, s, hrun, hnext, hinstalled, hfirst, hidle⟩ := ih (by omega)
    obtain ⟨s', hchurn, hnext', hinstalled', hsessions⟩ := run_churn (hidle (n + 1) (by omega)) loopback_spec_valid
    have htoken : s.backend.next_token.toNat = n + 1 := by
      rw [hnext, UInt64.toNat_ofNat']
      exact Nat.mod_eq_of_lt hn
    refine ⟨ops ++ churn loopback_spec (n + 1), s', Transition.run_append_eq_some.mpr ⟨s, hrun, hchurn⟩, ?_, ?_, ?_,
      fun j hj => ?_⟩
    · rw [hnext', hnext, UInt64.ofNat_add (n + 1) 1]
      rfl
    · rw [hinstalled', hinstalled, htoken]
      simp [first_rule]
    · rw [hsessions, Function.update_of_ne (Nat.succ_ne_zero n).symm, hfirst]
    · rw [hsessions, Function.update_of_ne (by omega), hidle j (by omega)]

/-- A token that comes round takes a live rule with it. -/
theorem reissued_token_removes_live_rule :
    ∃ (ops : List (SessionOp Nat)) (s : ChaosSystem Nat) (i : Nat) (handle : RuleHandle),
      Transition.run step initial ops = some s ∧ s.sessions i = .live ⟨some handle⟩ ∧
        handle ∉ s.backend.active_rules := by
  obtain ⟨ops, s, hrun, hnext, hinstalled, hfirst, hidle⟩ := run_churns (2 ^ 64 - 1) (by omega)
  obtain ⟨s', hchurn, -, hinstalled', hsessions⟩ := run_churn (hidle (2 ^ 64) (by omega)) loopback_spec_valid
  have htoken : s.backend.next_token.toNat = 0 := by
    rw [hnext, UInt64.toNat_ofNat']
    exact Nat.mod_self (2 ^ 64)
  refine ⟨ops ++ churn loopback_spec (2 ^ 64), s', 0, first_rule,
    Transition.run_append_eq_some.mpr ⟨s, hrun, hchurn⟩, ?_, ?_⟩
  · rw [hsessions, Function.update_of_ne (by omega), hfirst]
  · rw [SimBackend.active_rules, hinstalled', hinstalled, htoken]
    simp [first_rule]

end ChaosSystem

end asmodeus.runner
