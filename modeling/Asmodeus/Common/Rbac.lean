import Asmodeus.Lib.Lines

namespace asmodeus.common

/-- Actions guarded by RBAC. -/
inductive Capability
  | RunRedTeam
  | InjectChaos
  | ViewReports
  | ManageScenarios
  deriving DecidableEq

inductive Role
  | Admin
  | RedTeam
  | DevSecOps
  | Ciso
  | SecOps
  | Auditor
  deriving DecidableEq

/-- The RBAC matrix, row by row. -/
def Role.can : Role → Capability → Bool
  | .Admin, _ => true
  | .RedTeam, .RunRedTeam => true
  | .RedTeam, .ViewReports => true
  | .RedTeam, .ManageScenarios => true
  | .RedTeam, .InjectChaos => false
  | .DevSecOps, .InjectChaos => true
  | .DevSecOps, .ViewReports => true
  | .DevSecOps, .ManageScenarios => true
  | .DevSecOps, .RunRedTeam => false
  | .Ciso, .ViewReports => true
  | .SecOps, .ViewReports => true
  | .Auditor, .ViewReports => true
  | .Ciso, _ => false
  | .SecOps, _ => false
  | .Auditor, _ => false

/-- Canonical wire spelling. -/
def Role.as_str : Role → String
  | .Admin => "admin"
  | .RedTeam => "red_team"
  | .DevSecOps => "devsecops"
  | .Ciso => "ciso"
  | .SecOps => "secops"
  | .Auditor => "auditor"

/-- Category of a scenario. Decides which capability the caller needs. -/
inductive Category
  | RedTeam
  | Chaos
  deriving DecidableEq

def Category.required_capability : Category → Capability
  | .RedTeam => .RunRedTeam
  | .Chaos => .InjectChaos

def Category.as_str : Category → String
  | .RedTeam => "red_team"
  | .Chaos => "chaos"

def Category.tag : Category → String
  | .RedTeam => "🔴 [RED TEAM EXERCISE]"
  | .Chaos => "⚡ [CHAOS TEST]"

/-- The parser of category names. -/
def Category.from_str (s : String) : Except String Category :=
  let name := String.ofList ((Lines.trim s.toList).map Char.toLower)
  if name = "red_team" ∨ name = "redteam" then .ok .RedTeam
  else if name = "chaos" then .ok .Chaos
  else .error "unknown category"

theorem Category.from_str_as_str (category : Category) : from_str category.as_str = .ok category := by
  cases category <;> decide

/-- A role that may launch scenarios of some category passes the coarse gate of
the abort and campaign handlers. -/
theorem Role.may_launch_some {role : Role} {category : Category}
    (h : role.can category.required_capability = true) :
    role.can .RunRedTeam = true ∨ role.can .InjectChaos = true := by
  cases category with
  | RedTeam => exact Or.inl h
  | Chaos => exact Or.inr h

end asmodeus.common
