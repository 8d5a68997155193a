import Asmodeus.Lib.Transition

/-- A program that makes calls and goes on with their replies. -/
inductive Program (Op : Type) (Reply : Op → Type) (α : Type)
  | done (value : α)
  | call (op : Op) (next : Reply op → Program Op Reply α)

namespace Program

variable {Op : Type} {Reply : Op → Type} {α β σ τ ι : Type}

def bind : Program Op Reply α → (α → Program Op Reply β) → Program Op Reply β
  | .done a, f => f a
  | .call op next, f => .call op fun reply => (next reply).bind f

instance : Monad (Program Op Reply) where
  pure := .done
  bind := bind

@[simp] theorem pure_eq (a : α) : (pure a : Program Op Reply α) = .done a := rfl

@[simp] theorem done_bind (a : α) (f : α → Program Op Reply β) : (.done a >>= f : Program Op Reply β) = f a := rfl

@[simp] theorem call_bind (op : Op) (next : Reply op → Program Op Reply α) (f : α → Program Op Reply β) :
    (.call op next >>= f : Program Op Reply β) = .call op fun reply => next reply >>= f := rfl

/-- A program that makes its calls through a wider interface. -/
def embed {Op' : Type} {Reply' : Op' → Type} (wide : Op → Op') (narrow : ∀ op, Reply' (wide op) → Reply op) :
    Program Op Reply α → Program Op' Reply' α
  | .done a => .done a
  | .call op next => .call (wide op) fun reply => (next (narrow op reply)).embed wide narrow

theorem embed_bind {Op' : Type} {Reply' : Op' → Type} (wide : Op → Op') (narrow : ∀ op, Reply' (wide op) → Reply op)
    (program : Program Op Reply α) (f : α → Program Op Reply β) :
    (program >>= f).embed wide narrow = program.embed wide narrow >>= fun a => (f a).embed wide narrow := by
  induction program with
  | done a => rfl
  | call op next ih =>
    have hnext : (fun reply => (next (narrow op reply) >>= f).embed wide narrow) =
        fun reply => (next (narrow op reply)).embed wide narrow >>= fun a => (f a).embed wide narrow :=
      funext fun reply => ih (narrow op reply)
    exact congrArg (Program.call (wide op)) hnext

section

-- How a call is answered, and what it does to the state. The input is what the program
-- does not decide.
variable (exec : ι → (op : Op) → σ → Reply op × σ)

/-- A run of the whole program. -/
def run : Program Op Reply α → (Nat → ι) → σ → α × σ
  | .done a, _, s => (a, s)
  | .call op next, inputs, s =>
    (next (exec (inputs 0) op s).1).run (fun n => inputs (n + 1)) (exec (inputs 0) op s).2

/-- Whatever the inputs are, every call is legal and the end meets the postcondition. -/
def wp (legal : Op → Prop) (Post : α → σ → Prop) : Program Op Reply α → σ → Prop
  | .done a, s => Post a s
  | .call op next, s => legal op ∧ ∀ input, (next (exec input op s).1).wp legal Post (exec input op s).2

/-- As `wp`, where others may move the state before every call and at the end. -/
def Holds (Rely Guarantee : σ → σ → Prop) (Post : α → σ → Prop) : Program Op Reply α → σ → Prop
  | .done a, s => ∀ t, Rely s t → Post a t
  | .call op next, s => ∀ t, Rely s t → ∀ input,
      Guarantee t (exec input op t).2 ∧ (next (exec input op t).1).Holds Rely Guarantee Post (exec input op t).2

end

section

variable {exec : ι → (op : Op) → σ → Reply op × σ} {legal : Op → Prop} {Rely Guarantee : σ → σ → Prop}
  {Post Post' : α → σ → Prop} {s t : σ}

theorem wp.mono {program : Program Op Reply α} (h : program.wp exec legal Post s)
    (hpost : ∀ a t, Post a t → Post' a t) :
    program.wp exec legal Post' s := by
  induction program generalizing s with
  | done a => exact hpost a s h
  | call op next ih => exact ⟨h.1, fun input => ih _ (h.2 input)⟩

theorem wp_bind {program : Program Op Reply α} {f : α → Program Op Reply β} {Post : β → σ → Prop}
    (h : program.wp exec legal (fun a t => (f a).wp exec legal Post t) s) :
    (program >>= f).wp exec legal Post s := by
  induction program generalizing s with
  | done a => exact h
  | call op next ih => exact ⟨h.1, fun input => ih _ (h.2 input)⟩

/-- A run ends where the postcondition says. -/
theorem wp.run {program : Program Op Reply α} (h : program.wp exec legal Post s) (inputs : Nat → ι) :
    Post (program.run exec inputs s).1 (program.run exec inputs s).2 := by
  induction program generalizing s inputs with
  | done a => exact h
  | call op next ih => exact ih _ (h.2 (inputs 0)) _

theorem run_comp {κ : Type} (program : Program Op Reply α) (f : κ → ι) (inputs : Nat → κ) (s : σ) :
    program.run (fun k => exec (f k)) inputs s = program.run exec (fun n => f (inputs n)) s := by
  induction program generalizing s inputs with
  | done a => rfl
  | call op next ih => exact ih _ _ _

theorem Holds.mono {program : Program Op Reply α} (h : program.Holds exec Rely Guarantee Post s)
    (hpost : ∀ a t, Post a t → Post' a t) : program.Holds exec Rely Guarantee Post' s := by
  induction program generalizing s with
  | done a => exact fun t hrely => hpost a t (h t hrely)
  | call op next ih =>
    intro t hrely input
    exact ⟨(h t hrely input).1, ih _ (h t hrely input).2⟩

theorem Holds.promise {Guarantee' : σ → σ → Prop} {program : Program Op Reply α}
    (h : program.Holds exec Rely Guarantee Post s) (hpromise : ∀ a b, Guarantee a b → Guarantee' a b) :
    program.Holds exec Rely Guarantee' Post s := by
  induction program generalizing s with
  | done a => exact h
  | call op next ih =>
    intro t hrely input
    exact ⟨hpromise t _ (h t hrely input).1, ih _ (h t hrely input).2⟩

/-- Others may go on with what they may do. -/
theorem Holds.rely {program : Program Op Reply α} (htrans : ∀ a b c, Rely a b → Rely b c → Rely a c)
    (h : program.Holds exec Rely Guarantee Post s) (hrely : Rely s t) : program.Holds exec Rely Guarantee Post t := by
  cases program with
  | done a => exact fun u hu => h u (htrans s t u hrely hu)
  | call op next => exact fun u hu => h u (htrans s t u hrely hu)

theorem Holds.call {op : Op} {next : Reply op → Program Op Reply α} (hrefl : ∀ a, Rely a a)
    (h : (Program.call op next).Holds exec Rely Guarantee Post s) (input : ι) :
    Guarantee s (exec input op s).2 ∧ (next (exec input op s).1).Holds exec Rely Guarantee Post (exec input op s).2 :=
  h s (hrefl s) input

theorem holds_bind {program : Program Op Reply α} {f : α → Program Op Reply β} {Post : β → σ → Prop}
    (hrefl : ∀ a, Rely a a)
    (h : program.Holds exec Rely Guarantee (fun a t => (f a).Holds exec Rely Guarantee Post t) s) :
    (program >>= f).Holds exec Rely Guarantee Post s := by
  induction program generalizing s with
  | done a =>
    have hrely : (f a).Holds exec Rely Guarantee Post s := h s (hrefl s)
    exact hrely
  | call op next ih =>
    intro t hrely input
    exact ⟨(h t hrely input).1, ih _ (h t hrely input).2⟩

/-- A run of the program alone. -/
theorem Holds.run {program : Program Op Reply α} (hrefl : ∀ a, Rely a a) (hsame : ∀ a, Guarantee a a)
    (htrans : ∀ a b c, Guarantee a b → Guarantee b c → Guarantee a c)
    (h : program.Holds exec Rely Guarantee Post s) (inputs : Nat → ι) :
    Post (program.run exec inputs s).1 (program.run exec inputs s).2 ∧ Guarantee s (program.run exec inputs s).2 := by
  induction program generalizing s inputs with
  | done a => exact ⟨h s (hrefl s), hsame s⟩
  | call op next ih =>
    obtain ⟨hfirst, hnext⟩ := h.call hrefl (inputs 0)
    obtain ⟨hpost, hrest⟩ := ih _ hnext fun n => inputs (n + 1)
    exact ⟨hpost, htrans s _ _ hfirst hrest⟩

/-- A program whose calls work on a view of the state that is left alone by the others. -/
theorem wp.holds {view : σ → τ} {local_exec : ι → (op : Op) → τ → Reply op × τ} {Inv : σ → Prop} {Post : α → τ → Prop}
    (hothers : ∀ s t, Inv s → Rely s t → Inv t ∧ view t = view s)
    (hexec : ∀ input op s, Inv s → legal op → (exec input op s).1 = (local_exec input op (view s)).1 ∧
      view (exec input op s).2 = (local_exec input op (view s)).2 ∧ Inv (exec input op s).2 ∧
      Guarantee s (exec input op s).2)
    {program : Program Op Reply α} (hinv : Inv s) (h : program.wp local_exec legal Post (view s)) :
    program.Holds exec Rely Guarantee (fun a t => Inv t ∧ Post a (view t)) s := by
  induction program generalizing s with
  | done a =>
    intro t hrely
    obtain ⟨hinv', hview⟩ := hothers s t hinv hrely
    exact ⟨hinv', hview ▸ h⟩
  | call op next ih =>
    intro t hrely input
    obtain ⟨hinv', hview⟩ := hothers s t hinv hrely
    obtain ⟨hreply, hafter, hinv'', hguarantee⟩ := hexec input op t hinv' h.1
    refine ⟨hguarantee, ih _ hinv'' ?_⟩
    rw [hreply, hafter, hview]
    exact h.2 input

end

end Program

/-- Parts that move one at a time over a shared state. -/
structure Pool (σ τ : Type) where
  shared : σ
  parts : List τ

namespace Pool

variable {σ τ ι : Type}

/-- One part moves. -/
def step (move : τ → ι → σ → Option (τ × σ)) (pool : Pool σ τ) (label : Nat × ι) : Option (Pool σ τ) :=
  match pool.parts[label.1]? with
  | none => none
  | some part => match move part label.2 pool.shared with
    | none => none
    | some (part, shared) => some ⟨shared, pool.parts.set label.1 part⟩

theorem step_cases {move : τ → ι → σ → Option (τ × σ)} {pool next : Pool σ τ} {label : Nat × ι}
    (h : pool.step move label = some next) : ∃ part part' shared, pool.parts[label.1]? = some part ∧
      move part label.2 pool.shared = some (part', shared) ∧ next = ⟨shared, pool.parts.set label.1 part'⟩ := by
  unfold step at h
  split at h
  · cases h
  · rename_i part hpart
    split at h
    · cases h
    · rename_i part' shared hmove
      exact ⟨part, part', shared, hpart, hmove, (Option.some.inj h).symm⟩

/-- After a move of one part, each part is the moved one or as before. -/
theorem set_cases {parts : List τ} {moved moved' part : τ} {i j : Nat} (hmoved : parts[i]? = some moved)
    (hpart : (parts.set i moved')[j]? = some part) : (j = i ∧ part = moved') ∨ (j ≠ i ∧ parts[j]? = some part) := by
  by_cases hj : j = i
  · obtain ⟨hlt, -⟩ := List.getElem?_eq_some_iff.mp hmoved
    rw [hj, List.getElem?_set_self hlt] at hpart
    exact Or.inl ⟨hj, (Option.some.inj hpart).symm⟩
  · rw [List.getElem?_set_ne (Ne.symm hj)] at hpart
    exact Or.inr ⟨hj, hpart⟩

/-- The rule of parallel composition: each part keeps its own invariant by what it does,
and the guarantee of a part is all the others and the whole rely on. -/
theorem parallel {move : τ → ι → σ → Option (τ × σ)} (Inv : Nat → τ → σ → Prop) (Rely Guarantee : Nat → σ → σ → Prop)
    (Whole : σ → Prop)
    (hown : ∀ i part input s part' s', Inv i part s → move part input s = some (part', s') →
      Inv i part' s' ∧ Guarantee i s s')
    (hothers : ∀ i part s s', Inv i part s → Rely i s s' → Inv i part s')
    (hcompatible : ∀ i j part other s s', i ≠ j → Inv i part s → Inv j other s → Guarantee i s s' → Rely j s s')
    (hwhole : ∀ i part s s', Inv i part s → Guarantee i s s' → Whole s → Whole s') :
    Transition.Preserved (step move) fun pool =>
      (∀ i part, pool.parts[i]? = some part → Inv i part pool.shared) ∧ Whole pool.shared := by
  rintro pool ⟨i, input⟩ next ⟨hinv, hshared⟩ hstep
  obtain ⟨moved, moved', shared, hmoved, hmove, rfl⟩ := step_cases hstep
  obtain ⟨hkept, hguarantee⟩ := hown i moved input pool.shared moved' shared (hinv i moved hmoved) hmove
  refine ⟨fun j part hpart => ?_, hwhole i moved pool.shared shared (hinv i moved hmoved) hguarantee hshared⟩
  obtain ⟨rfl, rfl⟩ | ⟨hj, hpart⟩ := set_cases hmoved hpart
  · exact hkept
  · exact hothers j part pool.shared shared (hinv j part hpart)
      (hcompatible i j moved part pool.shared shared (Ne.symm hj) (hinv i moved hmoved) (hinv j part hpart) hguarantee)

end Pool
