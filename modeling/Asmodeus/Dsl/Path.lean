import Asmodeus.Lib.UnixPath
import Mathlib.Data.List.DropRight

open UnixPath

namespace asmodeus.dsl

/-- Canary filesystem sandbox: the only paths any runner action may touch. -/
def CANARY_PREFIXES : List String := ["/var/tmp/asmodeus-canary/", "/tmp/asmodeus-canary/"]

/-- The directories the prefixes stand for. -/
def CANARY_ROOTS : List String := ["/var/tmp/asmodeus-canary", "/tmp/asmodeus-canary"]

/-- The path is confined to the canary blast radius. -/
def path_in_scope (path : String) : Bool :=
  if (path.toList.splitOn '/').any fun component => decide (component = ['.', '.']) then false
  else
    let trimmed := path.toList.rdropWhile fun c => decide (c = '/')
    decide (trimmed = "/var/tmp/asmodeus-canary".toList) || decide (trimmed = "/tmp/asmodeus-canary".toList) ||
      CANARY_PREFIXES.any fun pre => pre.toList.isPrefixOf path.toList

/-- With `.`, `..` and empty parts resolved, the path is a canary root or below one. -/
def Confined (path : List Char) : Prop := ∃ root ∈ CANARY_ROOTS, Within root.toList path

/-- Each prefix is a root with a separator. -/
theorem canary_prefix_root : ∀ pre ∈ CANARY_PREFIXES, ∃ root ∈ CANARY_ROOTS,
    pre.toList = root.toList ++ [separator] := by
  decide

/-- The text of a path in scope is a canary root, or one followed by a separator. -/
theorem path_in_scope_text {path : String} (hscope : path_in_scope path = true) :
    NoParent path.toList ∧ ∃ root ∈ CANARY_ROOTS,
      path.toList = root.toList ∨ ∃ rest, path.toList = root.toList ++ separator :: rest := by
  have htrimmed {root : String}
      (h : path.toList.rdropWhile (fun c => decide (c = '/')) = root.toList) :
      path.toList = root.toList ∨ ∃ rest, path.toList = root.toList ++ separator :: rest := by
    have hsplit := List.rdropWhile_append_rtakeWhile (p := fun c => decide (c = '/')) (l := path.toList)
    rw [h] at hsplit
    cases hslashes : path.toList.rtakeWhile (fun c => decide (c = '/')) with
    | nil => exact Or.inl (by rw [← hsplit, hslashes, List.append_nil])
    | cons c rest =>
      have hc := List.mem_rtakeWhile_imp (hslashes ▸ List.mem_cons_self : c ∈ path.toList.rtakeWhile _)
      exact Or.inr ⟨rest, by rw [← hsplit, hslashes, of_decide_eq_true hc]; rfl⟩
  unfold path_in_scope at hscope
  split at hscope
  · cases hscope
  · rename_i hparent
    refine ⟨fun hmem => hparent (List.any_eq_true.mpr ⟨_, hmem, decide_eq_true rfl⟩), ?_⟩
    simp only [Bool.or_eq_true, decide_eq_true_eq, List.any_eq_true, List.isPrefixOf_iff_prefix] at hscope
    obtain (hvar | htmp) | ⟨pre, hpre, rest, hrest⟩ := hscope
    · exact ⟨_, List.mem_cons_self, htrimmed hvar⟩
    · exact ⟨_, List.mem_cons_of_mem _ List.mem_cons_self, htrimmed htmp⟩
    · obtain ⟨root, hroot, hpreroot⟩ := canary_prefix_root pre hpre
      refine ⟨root, hroot, Or.inr ⟨rest, ?_⟩⟩
      rw [← hrest, hpreroot, List.append_assoc, List.singleton_append]

theorem canary_root_absolute : ∀ root ∈ CANARY_ROOTS, root.toList.head? = some separator := by
  decide

theorem canary_root_resolved : ∀ root ∈ CANARY_ROOTS, resolve root.toList = components root.toList := by
  decide

/-- A path in scope is absolute, resolves to itself and starts at a canary root. -/
theorem path_in_scope_components {path : String} (hscope : path_in_scope path = true) :
    path.toList.head? = some separator ∧ NoParent path.toList ∧
      resolve path.toList = components path.toList ∧
      ∃ root ∈ CANARY_ROOTS, components root.toList <+: components path.toList := by
  obtain ⟨hparent, root, hroot, htext⟩ := path_in_scope_text hscope
  have hroothead := canary_root_absolute root hroot
  have hrootne : root.toList ≠ [] := by
    intro hnil
    rw [hnil] at hroothead
    cases hroothead
  have hhead : path.toList.head? = some separator := by
    obtain htext | ⟨rest, htext⟩ := htext
    · rw [htext, hroothead]
    · rw [htext, List.head?_append_of_ne_nil _ hrootne, hroothead]
  refine ⟨hhead, hparent, ?_, root, hroot, ?_⟩
  · rw [resolve_absolute hhead hparent, components, headComponent, if_pos hhead]
    rfl
  · obtain htext | ⟨rest, htext⟩ := htext
    · rw [htext]
    · rw [htext, components_append rest hrootne]
      exact List.prefix_append _ _

/-- What the string-level check accepts is confined after lexical resolution. -/
theorem path_in_scope_confined {path : String} (hscope : path_in_scope path = true) : Confined path.toList := by
  obtain ⟨-, -, hresolve, root, hroot, hprefix⟩ := path_in_scope_components hscope
  exact ⟨root, hroot, by rwa [Within, canary_root_resolved root hroot, hresolve]⟩

theorem noParent_join {path name : List Char} (hpath : NoParent path) (hname : IsName name) :
    NoParent (join path name) := by
  have hhead : name.head? ≠ some separator := fun h => hname.2.2.2 (List.mem_of_mem_head? h)
  have hsplit : name.splitOn separator = [name] := List.splitOn_eq_singleton hname.2.2.2
  have hsingle : ['.', '.'] ∉ [name] := fun h => hname.2.2.1 (List.mem_singleton.mp h).symm
  unfold NoParent at *
  rw [join, if_neg hhead]
  split
  · rename_i hlast
    by_cases hnil : path = []
    · rwa [hnil, List.nil_append, hsplit]
    · obtain ⟨front, rfl⟩ : ∃ front, path = front ++ [separator] :=
        ⟨path.dropLast, (List.dropLast_append_getLast? separator (hlast.resolve_left hnil)).symm⟩
      rw [List.append_assoc, List.singleton_append, List.splitOn_append_cons_self, hsplit, List.mem_append]
      rw [List.splitOn_append_cons_self, List.mem_append] at hpath
      exact fun h => h.elim (fun h => hpath (Or.inl h)) hsingle
  · rw [List.splitOn_append_cons_self, hsplit, List.mem_append]
    exact fun h => h.elim hpath hsingle

/-- A name joined to a path in scope is one component below it. -/
theorem resolve_join {path : String} {name : List Char} (hscope : path_in_scope path = true) (hname : IsName name) :
    resolve (join path.toList name) = resolve path.toList ++ [.normal name] := by
  obtain ⟨hhead, hparent, hresolve, -⟩ := path_in_scope_components hscope
  have hpathne : path.toList ≠ [] := by
    intro hnil
    rw [hnil] at hhead
    cases hhead
  have hnamehead : name.head? ≠ some separator := fun h => hname.2.2.2 (List.mem_of_mem_head? h)
  have hjoinhead : (join path.toList name).head? = some separator := by
    rw [join, if_neg hnamehead]
    split <;> rw [List.head?_append_of_ne_nil _ hpathne, hhead]
  have hcomponents : resolve (join path.toList name) = components (join path.toList name) := by
    rw [resolve_absolute hjoinhead (noParent_join hparent hname), components, headComponent, if_pos hjoinhead]
    rfl
  rw [hcomponents, hresolve, components_join hpathne hname]

theorem canary_root_prefix : ∀ root ∈ CANARY_ROOTS, root.toList ≠ [] ∧ root.toList.getLast? ≠ some separator ∧
    ∃ pre ∈ CANARY_PREFIXES, pre.toList = root.toList ++ [separator] := by
  decide

/-- A name joined to a path in scope is in scope too. -/
theorem join_in_scope {path : String} {name : List Char} (hscope : path_in_scope path = true) (hname : IsName name) :
    path_in_scope (String.ofList (join path.toList name)) = true := by
  obtain ⟨hparent, root, hroot, htext⟩ := path_in_scope_text hscope
  obtain ⟨hne, hlast, pre, hpre, hprefix⟩ := canary_root_prefix root hroot
  have hnamehead : name.head? ≠ some separator := fun h => hname.2.2.2 (List.mem_of_mem_head? h)
  have hbelow : root.toList ++ [separator] <+: join path.toList name := by
    rw [join, if_neg hnamehead]
    obtain htext | ⟨rest, htext⟩ := htext
    · rw [htext, if_neg (not_or.mpr ⟨hne, hlast⟩)]
      exact ⟨name, by rw [List.append_assoc, List.singleton_append]⟩
    · rw [htext]
      split
      · exact ⟨rest ++ name, by simp⟩
      · exact ⟨rest ++ separator :: name, by simp⟩
  have hnone : ((join path.toList name).splitOn '/').any (fun component => decide (component = ['.', '.'])) =
    false := by
    refine Bool.eq_false_iff.mpr fun hany => noParent_join hparent hname ?_
    obtain ⟨component, hmem, hcomponent⟩ := List.any_eq_true.mp hany
    exact of_decide_eq_true hcomponent ▸ hmem
  rw [path_in_scope, String.toList_ofList, hnone, if_neg Bool.false_ne_true]
  refine Bool.or_eq_true_iff.mpr (Or.inr (List.any_eq_true.mpr ⟨pre, hpre, ?_⟩))
  rw [List.isPrefixOf_iff_prefix, hprefix]
  exact hbelow

end asmodeus.dsl
