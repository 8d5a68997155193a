import Mathlib.Data.List.Infix

namespace UnixPath

def separator : Char := '/'

/-- One step of a path. -/
inductive Component
  | rootDir
  | curDir
  | parentDir
  | normal (name : List Char)
  deriving DecidableEq

/-- The component a part between separators stands for. Empty parts and `.` stand
for none. -/
def partComponent (part : List Char) : Option Component :=
  if part = [] ∨ part = ['.'] then none
  else if part = ['.', '.'] then some .parentDir
  else some (.normal part)

/-- The parts of a path after its first component. -/
def tailComponents (path : List Char) : List Component :=
  (path.splitOn separator).filterMap partComponent

/-- The first component: the root directory, or an explicit current directory. -/
def headComponent (path : List Char) : List Component :=
  if path.head? = some separator then [.rootDir]
  else if (path.splitOn separator).head? = some ['.'] then [.curDir]
  else []

def components (path : List Char) : List Component := headComponent path ++ tailComponents path

/-- A path begins with all components of another one. -/
def startsWith (path base : List Char) : Prop := components base <+: components path

instance (path base : List Char) : Decidable (startsWith path base) := by
  unfold startsWith
  infer_instance

/-- Append a relative path, or replace the path by an absolute one. -/
def join (path relative : List Char) : List Char :=
  if relative.head? = some separator then relative
  else if path = [] ∨ path.getLast? = some separator then path ++ relative
  else path ++ separator :: relative

/-- One component applied to the components so far, the last one first. -/
def resolveStep : List Component → Component → List Component
  | seen, .curDir => seen
  | .normal _ :: seen, .parentDir => seen
  | .rootDir :: seen, .parentDir => .rootDir :: seen
  | seen, component => component :: seen

/-- The path with `.` and `..` resolved lexically. -/
def resolve (path : List Char) : List Component := ((components path).foldl resolveStep []).reverse

/-- After lexical resolution a path is another one or below it. -/
def Within (scope path : List Char) : Prop := resolve scope <+: resolve path

/-- After lexical resolution a path is strictly below another one. -/
def StrictlyWithin (scope path : List Char) : Prop := ∃ name rest, resolve path = resolve scope ++ name :: rest

/-- One component below a path within a scope is strictly within that scope. -/
theorem Within.strictly {scope path child : List Char} {name : Component} (hpath : Within scope path)
    (hchild : resolve child = resolve path ++ [name]) : StrictlyWithin scope child := by
  obtain ⟨below, hbelow⟩ := hpath
  rw [StrictlyWithin, hchild, ← hbelow, List.append_assoc]
  cases below with
  | nil => exact ⟨name, [], rfl⟩
  | cons first rest => exact ⟨first, rest ++ [name], rfl⟩

/-- A name that is a path component of its own. -/
def IsName (name : List Char) : Prop :=
  name ≠ [] ∧ name ≠ ['.'] ∧ name ≠ ['.', '.'] ∧ separator ∉ name

theorem IsName.partComponent {name : List Char} (hname : IsName name) :
    partComponent name = some (.normal name) := by
  obtain ⟨hne, hcur, hparent, -⟩ := hname
  rw [UnixPath.partComponent, if_neg (by simp [hne, hcur]), if_neg hparent]

theorem IsName.tailComponents {name : List Char} (hname : IsName name) : tailComponents name = [.normal name] := by
  rw [UnixPath.tailComponents, List.splitOn_eq_singleton hname.2.2.2]
  simp [hname.partComponent]

/-- The components after a separator follow those before it. -/
theorem components_append {front : List Char} (back : List Char) (hfront : front ≠ []) :
    components (front ++ separator :: back) = components front ++ tailComponents back := by
  have hhead : headComponent (front ++ separator :: back) = headComponent front := by
    have hfirst : (front ++ separator :: back).head? = front.head? := by
      cases front with
      | nil => exact absurd rfl hfront
      | cons c front => rfl
    have hpart : ((front ++ separator :: back).splitOn separator).head? = (front.splitOn separator).head? := by
      rw [List.splitOn_append_cons_self]
      cases hsplit : front.splitOn separator with
      | nil => exact absurd hsplit (List.splitOn_ne_nil _ _)
      | cons part parts => rfl
    rw [headComponent, headComponent, hfirst, hpart]
  rw [components, components, hhead, tailComponents, List.splitOn_append_cons_self, List.filterMap_append,
    List.append_assoc]
  rfl

/-- A path without `..` parts. -/
def NoParent (path : List Char) : Prop := ['.', '.'] ∉ path.splitOn separator

theorem tailComponents_normal {path : List Char} (hpath : NoParent path) :
    ∀ c ∈ tailComponents path, ∃ name, c = .normal name := by
  intro c hc
  obtain ⟨part, hpart, hcomponent⟩ := List.mem_filterMap.mp hc
  unfold partComponent at hcomponent
  split at hcomponent
  · cases hcomponent
  · split at hcomponent
    · rename_i hparent
      exact absurd (hparent ▸ hpart) hpath
    · exact ⟨part, (Option.some.inj hcomponent).symm⟩

theorem foldl_resolveStep_normal {names : List Component} (hnames : ∀ c ∈ names, ∃ name, c = .normal name)
    (seen : List Component) : names.foldl resolveStep seen = names.reverse ++ seen := by
  induction names generalizing seen with
  | nil => rfl
  | cons c names ih =>
    obtain ⟨name, rfl⟩ := hnames c List.mem_cons_self
    have hstep : resolveStep seen (.normal name) = .normal name :: seen := by
      cases seen with
      | nil => rfl
      | cons head rest => cases head <;> rfl
    rw [List.foldl_cons, hstep, ih fun c hc => hnames c (List.mem_cons_of_mem _ hc), List.reverse_cons,
      List.append_assoc]
    rfl

/-- Nothing is left to resolve in an absolute path without `..`. -/
theorem resolve_absolute {path : List Char} (habsolute : path.head? = some separator) (hpath : NoParent path) :
    resolve path = .rootDir :: tailComponents path := by
  have hcomponents : components path = .rootDir :: tailComponents path := by
    rw [components, headComponent, if_pos habsolute]
    rfl
  rw [resolve, hcomponents, List.foldl_cons]
  change (List.foldl resolveStep [.rootDir] (tailComponents path)).reverse = _
  rw [foldl_resolveStep_normal (tailComponents_normal hpath), List.reverse_append, List.reverse_reverse]
  rfl

/-- Joining a name adds one component. -/
theorem components_join {path name : List Char} (hpath : path ≠ []) (hname : IsName name) :
    components (join path name) = components path ++ [.normal name] := by
  have hhead : name.head? ≠ some separator := fun h => hname.2.2.2 (List.mem_of_mem_head? h)
  rw [join, if_neg hhead]
  split
  · rename_i hlast
    obtain ⟨front, rfl⟩ : ∃ front, path = front ++ [separator] := by
      have hlast := hlast.resolve_left hpath
      exact ⟨path.dropLast, (List.dropLast_append_getLast? separator hlast).symm⟩
    by_cases hfront : front = []
    · subst hfront
      have hroot : components (separator :: name) = .rootDir :: tailComponents (separator :: name) := rfl
      have hsplit : (separator :: name).splitOn separator = [] :: name.splitOn separator := by
        simpa using List.splitOn_append_cons_self (a := separator) [] name
      rw [List.nil_append, List.singleton_append, hroot, UnixPath.tailComponents, hsplit]
      change .rootDir :: tailComponents name = _
      rw [hname.tailComponents]
      rfl
    · rw [List.append_assoc, List.singleton_append, components_append name hfront, components_append [] hfront,
        hname.tailComponents, List.append_assoc]
      rfl
  · rw [components_append name hpath, hname.tailComponents]

end UnixPath
