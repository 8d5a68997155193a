import Asmodeus.Lib.Lines

namespace asmodeus.dsl

/-- How faithfully a synthetic scenario reproduces its technique. -/
inductive Fidelity
  | Unspecified
  | MarkerOnly
  | Behavioral
  deriving DecidableEq

/-- Ordering is by trust. -/
def Fidelity.rank : Fidelity → Nat
  | .Unspecified => 0
  | .MarkerOnly => 1
  | .Behavioral => 2

def Fidelity.min (self other : Fidelity) : Fidelity := if self.rank ≤ other.rank then self else other

/-- The strongest kind of coverage a fidelity level may contribute to a report. -/
inductive CoverageClass
  | IndicatorOnly
  | BehavioralSignal
  deriving DecidableEq

/-- Parse a manifest string. -/
def Fidelity.parse (s : String) : Option Fidelity :=
  let name := String.ofList ((Lines.trim s.toList).map Char.toLower)
  if name = "unspecified" then some .Unspecified
  else if name = "marker_only" ∨ name = "marker-only" ∨ name = "markeronly" then some .MarkerOnly
  else if name = "behavioral" ∨ name = "behavioural" then some .Behavioral
  else none

def Fidelity.as_str : Fidelity → String
  | .Unspecified => "unspecified"
  | .MarkerOnly => "marker_only"
  | .Behavioral => "behavioral"

def Fidelity.coverage_class : Fidelity → CoverageClass
  | .Unspecified => .IndicatorOnly
  | .MarkerOnly => .IndicatorOnly
  | .Behavioral => .BehavioralSignal

def Fidelity.claims_behavioral (self : Fidelity) : Bool := decide (self.coverage_class = .BehavioralSignal)

def Fidelity.permits_prevention_claim (self : Fidelity) : Bool := self.claims_behavioral

/-- A scenario's reference to one technique, with the fidelity at which it is
exercised. -/
structure TechniqueRef where
  technique_id : String
  fidelity : Fidelity
  deriving DecidableEq

@[simp] theorem Fidelity.claims_behavioral_iff {self : Fidelity} :
    self.claims_behavioral = true ↔ self = .Behavioral := by
  cases self <;> decide

/-- Only two behavioral levels have a behavioral minimum. -/
@[simp] theorem Fidelity.min_behavioral {self other : Fidelity} :
    self.min other = .Behavioral ↔ self = .Behavioral ∧ other = .Behavioral := by
  cases self <;> cases other <;> decide

theorem Fidelity.parse_as_str (self : Fidelity) : parse self.as_str = some self := by
  cases self <;> decide

end asmodeus.dsl
