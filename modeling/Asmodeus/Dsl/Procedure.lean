import Mathlib.Data.List.Basic

namespace asmodeus.dsl

def ATTACK_VERSION : String := "ATT&CK Enterprise v15.1"
def PROCEDURE_CORPUS_VERSION : String := "asmodeus.procedure-corpus.v1"
def PROCEDURE_SLOT_DENOMINATOR : Nat := 6

def SLOTS : List (String × String) :=
  [("container-exec", "T1609"), ("shell-execution", "T1059.004"), ("runtime-socket-prerequisite", "T1611"),
    ("http-beacon", "T1071.001"), ("dns-pattern", "T1071.004"), ("synthetic-transfer", "T1041")]

inductive ProcedureVariantKind
  | Positive
  | BenignControl
  deriving DecidableEq

/-- What names a procedure. -/
structure ProcedureDefinition where
  id : String
  revision : Nat
  technique_id : String
  deriving DecidableEq

structure ProcedureCorpus where
  version : String
  attack_version : String
  denominator : Nat
  procedures : List ProcedureDefinition

/-- The fixed corpus of six slots. -/
def procedure_corpus : ProcedureCorpus where
  version := PROCEDURE_CORPUS_VERSION
  attack_version := ATTACK_VERSION
  denominator := PROCEDURE_SLOT_DENOMINATOR
  procedures := SLOTS.map fun slot => ⟨slot.1, 1, slot.2⟩

/-- Every slot is in the denominator. -/
theorem procedure_corpus_denominator : procedure_corpus.procedures.length = procedure_corpus.denominator := rfl

end asmodeus.dsl
