import Asmodeus.Lib.Text

namespace asmodeus.dsl

/-- A technique or sub-technique of the pinned taxonomy. -/
structure MitreTechnique where
  id : String
  name : String
  tactic : String
  tactics : List String
  parent : Option String
  deriving DecidableEq

/-- Every pinned technique and sub-technique. -/
def ALL_DEFS : List MitreTechnique :=
  [⟨"T1486", "Data Encrypted for Impact", "Impact", ["Impact"], none⟩,
    ⟨"T1611", "Escape to Host", "Privilege Escalation", ["Privilege Escalation"], none⟩,
    ⟨"T1059", "Command and Scripting Interpreter", "Execution", ["Execution"], none⟩,
    ⟨"T1071", "Application Layer Protocol", "Command and Control", ["Command and Control"], none⟩,
    ⟨"T1568", "Dynamic Resolution", "Command and Control", ["Command and Control"], none⟩,
    ⟨"T1003", "OS Credential Dumping", "Credential Access", ["Credential Access"], none⟩,
    ⟨"T1070", "Indicator Removal on Host", "Defense Evasion", ["Defense Evasion"], none⟩,
    ⟨"T1053", "Scheduled Task/Job", "Persistence", ["Persistence", "Execution", "Privilege Escalation"], none⟩,
    ⟨"T1041", "Exfiltration Over C2 Channel", "Exfiltration", ["Exfiltration"], none⟩,
    ⟨"T1562", "Impair Defenses: Disable Tools", "Defense Evasion", ["Defense Evasion"], none⟩,
    ⟨"T1609", "Container Administration Command", "Execution", ["Execution"], none⟩,
    ⟨"T1059.004", "Command and Scripting Interpreter: Unix Shell", "Execution", ["Execution"], some "T1059"⟩,
    ⟨"T1071.001", "Application Layer Protocol: Web Protocols", "Command and Control", ["Command and Control"],
      some "T1071"⟩,
    ⟨"T1071.004", "Application Layer Protocol: DNS", "Command and Control", ["Command and Control"], some "T1071"⟩,
    ⟨"T1562.001", "Impair Defenses: Disable or Modify Tools", "Defense Evasion", ["Defense Evasion"], some "T1562"⟩]

/-- Look up a technique by its id. Case-insensitive. -/
def lookup_technique (id : String) : Option MitreTechnique :=
  ALL_DEFS.find? fun t => Text.eqIgnoreAsciiCase t.id id

def is_known_id (id : String) : Bool := (lookup_technique id).isSome

/-- Resolve the base technique for any id. -/
def base_technique (id : String) : Option MitreTechnique :=
  match lookup_technique id with
  | none => none
  | some t => match t.parent with
    | none => some t
    | some parent_id => lookup_technique parent_id

/-- No two pinned ids differ in case only, and the primary tactic is the first of
the tactic set. -/
theorem all_defs_well_formed :
    (ALL_DEFS.map fun t => t.id.toList.map Char.toLower).Nodup ∧ ∀ t ∈ ALL_DEFS, t.tactics.head? = some t.tactic := by
  decide

end asmodeus.dsl
