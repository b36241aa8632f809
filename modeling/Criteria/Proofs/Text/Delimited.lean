import Criteria.Proofs.Text.Literals

set_option autoImplicit false

namespace Criteria.Text

variable {s t rest rest' : List Char} {c : Char}

def closers : List Char :=
  [' ', ',', ')']

def delimiters : List Char :=
  '(' :: quoteMark :: closers

def Bare (s : List Char) : Prop :=
  ∀ c ∈ s, c ∉ delimiters

instance (s : List Char) : Decidable (Bare s) :=
  List.decidableBAll (· ∉ delimiters) s

def Closed (rest : List Char) : Prop :=
  ∀ c ∈ rest.head?, c ∈ closers

@[simp] theorem bare_nil : Bare [] :=
  nofun

@[simp] theorem bare_cons : Bare (c :: s) ↔ c ∉ delimiters ∧ Bare s :=
  List.forall_mem_cons

@[simp] theorem bare_append : Bare (s ++ t) ↔ Bare s ∧ Bare t :=
  List.forall_mem_append

@[simp] theorem bare_reverse : Bare s.reverse ↔ Bare s := by
  simp [Bare]

theorem Bare.of_subset (bare : Bare s) (within : t ⊆ s) : Bare t :=
  fun c listed => bare c (within listed)

theorem Bare.take (bare : Bare s) (n : Nat) : Bare (s.take n) :=
  bare.of_subset (List.take_subset n s)

theorem Bare.drop (bare : Bare s) (n : Nat) : Bare (s.drop n) :=
  bare.of_subset (List.drop_subset n s)

theorem bare_replicate (n : Nat) (other : c ∉ delimiters) : Bare (List.replicate n c) := by
  intro d listed
  rw [List.eq_of_mem_replicate listed]
  exact other

theorem bare_of_all {kind : Char → Bool} (apart : delimiters.all (!kind ·) = true)
    (all : ∀ c ∈ s, kind c = true) : Bare s := by
  intro c listed delimiter
  have other := List.all_eq_true.1 apart c delimiter
  simp [all c listed] at other

theorem Bare.unquoted (bare : Bare s) : Unquoted s :=
  fun quote => bare quoteMark quote (by decide)

@[simp] theorem closed_nil : Closed [] :=
  nofun

@[simp] theorem closed_cons : Closed (c :: rest) ↔ c ∈ closers := by
  simp [Closed]

theorem closed_blank (rest : List Char) : Closed (' ' :: rest) :=
  closed_cons.2 (by decide)

theorem closed_paren (rest : List Char) : Closed (')' :: rest) :=
  closed_cons.2 (by decide)

theorem Bare.takeWhile_append (bare : Bare s) (closed : Closed rest) :
    (s ++ rest).takeWhile (· ∉ delimiters) = s := by
  rw [List.takeWhile_append_of_pos (by simpa [Bare] using bare)]
  cases rest with
  | nil => simp
  | cons c rest =>
    have ends : c ∈ delimiters :=
      List.mem_cons_of_mem _ (List.mem_cons_of_mem _ (closed_cons.1 closed))
    simp [ends]

theorem Bare.append_inj (bare : Bare s) (bare' : Bare t) (closed : Closed rest)
    (closed' : Closed rest') (same : s ++ rest = t ++ rest') : s = t ∧ rest = rest' := by
  have words : s = t := by rw [← bare.takeWhile_append closed, same, bare'.takeWhile_append closed']
  subst words
  exact ⟨rfl, List.append_cancel_left same⟩

theorem head?_ne_quoteMark (closed : Closed rest) : rest.head? ≠ some quoteMark := by
  intro quote
  exact absurd (closed quoteMark quote) (by decide)

theorem doubled_append_inj (closed : Closed rest) (closed' : Closed rest')
    (same : doubled s ++ quoteMark :: rest = doubled t ++ quoteMark :: rest') :
    s = t ∧ rest = rest' := by
  have apart := head?_ne_quoteMark closed
  have apart' := head?_ne_quoteMark closed'
  induction s generalizing t with
  | nil =>
    cases t with
    | nil => simpa [doubled] using same
    | cons d t =>
      -- Only behind the end of a text may a single quote stand.
      by_cases quote : d = quoteMark <;> grind [doubled]
  | cons c s ih =>
    cases t with
    | nil => by_cases quote : c = quoteMark <;> grind [doubled]
    | cons d t =>
      by_cases quote : c = quoteMark <;> by_cases quote' : d = quoteMark <;> grind [doubled]

theorem quoted_append_inj (closed : Closed rest) (closed' : Closed rest')
    (same : quoted s ++ rest = quoted t ++ rest') : s = t ∧ rest = rest' := by
  simp only [quoted, enclosed, List.cons_append, List.append_assoc, List.nil_append,
    List.cons.injEq, true_and] at same
  exact doubled_append_inj closed closed' same

end Criteria.Text
