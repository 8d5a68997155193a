import Mathlib.Data.List.Basic
import Mathlib.Tactic.TypeStar

namespace PrefixCode

variable {α β τ : Type*}

/-- No symbol of the given kind comes first. -/
def NotAhead (digit : τ → Prop) (text : List τ) : Prop :=
  ∀ c, text.head? = some c → ¬ digit c

@[simp] theorem notAhead_nil (digit : τ → Prop) : NotAhead digit [] := by
  intro c hc
  cases hc

@[simp] theorem notAhead_cons (digit : τ → Prop) (c : τ) (text : List τ) :
    NotAhead digit (c :: text) ↔ ¬ digit c := by
  simp [NotAhead]

/-- A code whose words can be read off the front of any longer text, provided
the text after the word does not start with a symbol that could continue it. -/
def UnambiguousBefore (digit : τ → Prop) (code : α → List τ) : Prop :=
  ∀ a b rest rest', NotAhead digit rest → NotAhead digit rest' →
    code a ++ rest = code b ++ rest' → a = b ∧ rest = rest'

/-- A code whose words can be read off the front of any longer text. -/
def Unambiguous (code : α → List τ) : Prop :=
  ∀ a b rest rest', code a ++ rest = code b ++ rest' → a = b ∧ rest = rest'

theorem Unambiguous.before {code : α → List τ} (hcode : Unambiguous code) (digit : τ → Prop) :
    UnambiguousBefore digit code :=
  fun a b rest rest' _ _ h => hcode a b rest rest' h

/-- A closing symbol that cannot continue a word makes the code unambiguous
whatever follows. -/
theorem UnambiguousBefore.close {digit : τ → Prop} {code : α → List τ} {closing : τ}
    (hcode : UnambiguousBefore digit code) (hclosing : ¬ digit closing) :
    Unambiguous (fun a => code a ++ [closing]) := by
  intro a b rest rest' h
  simp only [List.append_assoc, List.singleton_append] at h
  obtain ⟨hab, htail⟩ := hcode a b _ _ (by simpa using hclosing) (by simpa using hclosing) h
  exact ⟨hab, (List.cons.inj htail).2⟩

theorem UnambiguousBefore.injective {digit : τ → Prop} {code : α → List τ}
    (hcode : UnambiguousBefore digit code) : Function.Injective code := by
  intro a b hab
  exact (hcode a b [] [] (notAhead_nil digit) (notAhead_nil digit) (by simpa using hab)).1

/-- A word is never a prefix of another one when neither can be continued by
what follows: the shorter text would be the same word. -/
theorem Unambiguous.eq_of_prefix {code : α → List τ} (hcode : Unambiguous code) {a b : α}
    (hpre : code a <+: code b) : a = b := by
  obtain ⟨rest, hrest⟩ := hpre
  exact (hcode a b rest [] (by simpa using hrest)).1

/-- Symbol-by-symbol escaping up to a closing symbol that starts no escape. -/
theorem Unambiguous.escaped {escape : α → List τ} {closing : τ} (hescape : Unambiguous escape)
    (hne : ∀ a, escape a ≠ []) (hclosing : ∀ a, (escape a).head? ≠ some closing) :
    Unambiguous (fun text : List α => text.flatMap escape ++ [closing]) := by
  intro a
  induction a with
  | nil =>
    intro b rest rest' h
    cases b with
    | nil => simpa using h
    | cons c cs =>
      exfalso
      obtain ⟨head, tail, hhead⟩ := List.exists_cons_of_ne_nil (hne c)
      simp only [List.flatMap_nil, List.nil_append, List.flatMap_cons, hhead, List.cons_append,
        List.append_assoc, List.cons.injEq] at h
      exact hclosing c (by rw [hhead, ← h.1]; rfl)
  | cons d ds ih =>
    intro b rest rest' h
    cases b with
    | nil =>
      exfalso
      obtain ⟨head, tail, hhead⟩ := List.exists_cons_of_ne_nil (hne d)
      simp only [List.flatMap_nil, List.nil_append, List.flatMap_cons, hhead, List.cons_append,
        List.append_assoc, List.cons.injEq] at h
      exact hclosing d (by rw [hhead, h.1]; rfl)
    | cons c cs =>
      simp only [List.flatMap_cons, List.append_assoc] at h
      obtain ⟨hdc, htail⟩ := hescape d c _ _ h
      obtain ⟨hds, hrest⟩ := ih cs rest rest' (by simpa using htail)
      exact ⟨by rw [hdc, hds], hrest⟩

/-- A code none of whose words is a prefix of another one is unambiguous. -/
theorem Unambiguous.of_prefix_free {code : α → List τ}
    (hfree : ∀ a b, code a <+: code b → a = b) : Unambiguous code := by
  intro a b rest rest' h
  have hab : a = b := by
    rcases Nat.le_total (code a).length (code b).length with hle | hle
    · exact hfree a b (List.prefix_of_prefix_length_le ⟨rest, rfl⟩ ⟨rest', h.symm⟩ hle)
    · exact (hfree b a (List.prefix_of_prefix_length_le ⟨rest', rfl⟩ ⟨rest, h⟩ hle)).symm
  subst hab
  exact ⟨rfl, List.append_cancel_left h⟩

/-- A word behind a header that tells its size, where no word of the same size
continues it. -/
theorem UnambiguousBefore.measured {digit : τ → Prop} {header : Nat → List τ} {separator : τ} {size : List τ → Nat}
    (hheader : UnambiguousBefore digit header) (hseparator : ¬ digit separator)
    (hsize : ∀ word more, size (word ++ more) = size word → more = []) (closing : List τ) :
    Unambiguous (fun word : List τ => header (size word) ++ separator :: (word ++ closing)) := by
  intro a b rest rest' h
  simp only [List.append_assoc, List.cons_append] at h
  obtain ⟨hsizes, htail⟩ := hheader _ _ _ _ (by simpa using hseparator) (by simpa using hseparator) h
  have htail := (List.cons.inj htail).2
  have hab : a = b := by
    rcases List.append_eq_append_iff.mp htail with ⟨more, hb, -⟩ | ⟨more, ha, -⟩
    · rw [hb] at hsizes
      rw [hb, hsize a more hsizes.symm, List.append_nil]
    · rw [ha] at hsizes
      rw [ha, hsize b more hsizes, List.append_nil]
  subst hab
  exact ⟨rfl, List.append_cancel_left (List.append_cancel_left htail)⟩

/-- A sequence of words can be read back word by word. -/
theorem Unambiguous.flatMap_injective {code : α → List τ} (hcode : Unambiguous code) (hne : ∀ a, code a ≠ []) :
    Function.Injective (fun words : List α => words.flatMap code) := by
  intro a
  induction a with
  | nil =>
    intro b h
    cases b with
    | nil => rfl
    | cons word words =>
      simp only [List.flatMap_nil, List.flatMap_cons] at h
      exact absurd (List.append_eq_nil_iff.mp h.symm).1 (hne word)
  | cons word words ih =>
    intro b h
    cases b with
    | nil =>
      simp only [List.flatMap_nil, List.flatMap_cons] at h
      exact absurd (List.append_eq_nil_iff.mp h).1 (hne word)
    | cons other others =>
      simp only [List.flatMap_cons] at h
      obtain ⟨hword, hrest⟩ := hcode word other _ _ h
      rw [hword, ih hrest]

end PrefixCode
