import Asmodeus.Dsl.Net
import Mathlib.Data.List.Infix

open asmodeus.dsl

namespace asmodeus.runner

def MAX_LATENCY_MS : Nat := 5000
def MAX_JITTER_MS : Nat := 1000
def MAX_LOSS_PCT : Nat := 50
def MAX_DURATION_MS : Nat := 120000

/-- Distinctive test-interface markers. -/
def IFACE_MARKERS : List String := ["test", "chaos", "veth", "dummy"]

/-- Declarative network-chaos rule. -/
structure NetChaosSpec where
  iface : String
  target_cidr : String
  latency_ms : UInt32
  jitter_ms : UInt32
  loss_pct : UInt8
  duration_ms : UInt32
  deriving DecidableEq

/-- Why a chaos rule was refused or failed. -/
inductive NetChaosError
  | OutOfScope (cidr : String)
  | IfaceOutOfScope (iface : String)
  | BudgetExceeded (detail : String)
  | Backend (message : String)
  deriving DecidableEq

def NetChaosError.display : NetChaosError → String
  | .OutOfScope cidr => "target out of net scope (not a test block): " ++ cidr
  | .IfaceOutOfScope iface => "interface out of scope: " ++ iface
  | .BudgetExceeded detail => "resource budget exceeded: " ++ detail
  | .Backend message => "netchaos backend error: " ++ message

/-- `lo`, or `lo` followed by an index. -/
def is_loopback (iface : String) : Bool :=
  match iface.toList with
  | ['l', 'o'] => true
  | 'l' :: 'o' :: rest => rest.all Char.isDigit
  | _ => false

/-- The interface is a loopback or an explicit test interface. -/
def iface_in_scope (iface : String) : Bool :=
  if iface.utf8ByteSize = 0 ∨ 15 < iface.utf8ByteSize then false
  else is_loopback iface || IFACE_MARKERS.any fun marker => decide (marker.toList <:+: iface.toList)

def over_budget (field : String) (value max : Nat) : NetChaosError :=
  .BudgetExceeded (field ++ "=" ++ toString value ++ " (max " ++ toString max ++ ")")

/-- INV-0 and budget gate. -/
def NetChaosSpec.validate (self : NetChaosSpec) : Except NetChaosError Unit :=
  if !net_target_in_scope self.target_cidr then .error (.OutOfScope self.target_cidr)
  else if !iface_in_scope self.iface then .error (.IfaceOutOfScope self.iface)
  else if MAX_LATENCY_MS < self.latency_ms.toNat then
    .error (over_budget "latency_ms" self.latency_ms.toNat MAX_LATENCY_MS)
  else if MAX_JITTER_MS < self.jitter_ms.toNat then
    .error (over_budget "jitter_ms" self.jitter_ms.toNat MAX_JITTER_MS)
  else if MAX_LOSS_PCT < self.loss_pct.toNat then
    .error (over_budget "loss_pct" self.loss_pct.toNat MAX_LOSS_PCT)
  else if self.duration_ms.toNat = 0 ∨ MAX_DURATION_MS < self.duration_ms.toNat then
    .error (.BudgetExceeded ("duration_ms=" ++ toString self.duration_ms.toNat ++ " (allowed 1..=" ++
      toString MAX_DURATION_MS ++ ")"))
  else .ok ()

/-- Opaque handle to an installed rule. -/
structure RuleHandle where
  iface : String
  target_cidr : String
  token : Nat
  deriving DecidableEq

theorem NetChaosSpec.validate_ok_iff (self : NetChaosSpec) :
    self.validate = .ok () ↔ net_target_in_scope self.target_cidr = true ∧ iface_in_scope self.iface = true ∧
      self.latency_ms.toNat ≤ MAX_LATENCY_MS ∧ self.jitter_ms.toNat ≤ MAX_JITTER_MS ∧
      self.loss_pct.toNat ≤ MAX_LOSS_PCT ∧ 0 < self.duration_ms.toNat ∧ self.duration_ms.toNat ≤ MAX_DURATION_MS := by
  unfold NetChaosSpec.validate
  grind

end asmodeus.runner
