import Criteria.Text.Quoted

set_option autoImplicit false

namespace Criteria.Text

variable {text more s t chars others : List Char} {literals added : List (List Char)} {c : Char}

def Unquoted (s : List Char) : Prop :=
  quoteMark ∉ s

instance (s : List Char) : Decidable (Unquoted s) :=
  inferInstanceAs (Decidable (quoteMark ∉ s))

@[simp] theorem unquoted_nil : Unquoted [] :=
  List.not_mem_nil

@[simp] theorem unquoted_cons : Unquoted (c :: s) ↔ quoteMark ≠ c ∧ Unquoted s := by
  simp [Unquoted]

@[simp] theorem unquoted_append : Unquoted (s ++ t) ↔ Unquoted s ∧ Unquoted t := by
  simp [Unquoted]

inductive LiteralPlace where
  | outside
  | inside (read : List Char)

def literals? : LiteralPlace → List Char → Option (List (List Char))
  | .outside, [] => some []
  | .outside, c :: rest =>
    if c = quoteMark then literals? (.inside []) rest else literals? .outside rest
  | .inside _, [] => none
  | .inside read, [c] => if c = quoteMark then some [read] else none
  | .inside read, c :: d :: rest =>
    if c = quoteMark then
      if d = quoteMark then literals? (.inside (read ++ [quoteMark])) rest
      else (literals? .outside (d :: rest)).map (read :: ·)
    else literals? (.inside (read ++ [c])) (d :: rest)

theorem literals?_inside_cons (read rest : List Char) (other : c ≠ quoteMark) :
    literals? (.inside read) (c :: rest) = literals? (.inside (read ++ [c])) rest := by
  cases rest <;> simp [literals?, other]

theorem literals?_append_of_unquoted (plain : Unquoted text) (rest : List Char) :
    literals? .outside (text ++ rest) = literals? .outside rest := by
  induction text with
  | nil => rfl
  | cons c text ih =>
    obtain ⟨other, plain⟩ := unquoted_cons.1 plain
    simp [literals?, other.symm, ih plain]

theorem literals?_inside_doubled (s read : List Char) {rest : List Char}
    (apart : rest.head? ≠ some quoteMark) :
    literals? (.inside read) (doubled s ++ quoteMark :: rest) =
      (literals? .outside rest).map ((read ++ s) :: ·) := by
  induction s generalizing read with
  | nil =>
    cases rest with
    | nil => simp [doubled, literals?]
    | cons d rest =>
      have other : d ≠ quoteMark := by simpa using apart
      simp [doubled, literals?, other]
  | cons c s ih =>
    by_cases quote : c = quoteMark
    · subst quote
      simp [doubled, literals?, ih]
    · simp [doubled, quote, literals?_inside_cons _ _ quote, ih]

def Reads (text : List Char) (literals : List (List Char)) : Prop :=
  ∀ rest, rest.head? ≠ some quoteMark →
    literals? .outside (text ++ rest) = (literals? .outside rest).map (literals ++ ·)

theorem Reads.plain (plain : Unquoted text) : Reads text [] := by
  intro rest _
  rw [literals?_append_of_unquoted plain]
  simp

theorem Reads.quoted (s : List Char) : Reads (quoted s) [s] := by
  intro rest apart
  have opened : Text.quoted s ++ rest = quoteMark :: (doubled s ++ quoteMark :: rest) := by
    simp [Text.quoted, enclosed]
  rw [opened, literals?, if_pos rfl, literals?_inside_doubled s [] apart]
  simp

theorem Reads.append (first : Reads text literals) (second : Reads more added)
    (apart : more.head? ≠ some quoteMark) : Reads (text ++ more) (literals ++ added) := by
  intro rest behind
  have next : (more ++ rest).head? ≠ some quoteMark := by
    cases more with
    | nil => exact behind
    | cons c more => exact apart
  rw [List.append_assoc, first _ next, second rest behind, Option.map_map]
  congr 1
  funext read
  simp

theorem Reads.literals? (reads : Reads text literals) :
    literals? .outside text = some literals := by
  simpa [Text.literals?] using reads [] nofun

def quotes : List (List Char) → Nat
  | [] => 0
  | s :: rest => 2 + 2 * s.count quoteMark + quotes rest

theorem quotes_append : quotes (literals ++ added) = quotes literals + quotes added := by
  induction literals with
  | nil => simp [quotes]
  | cons s rest ih =>
    simp only [List.cons_append, quotes, ih]
    omega

def LiteralPlace.quotes : LiteralPlace → Nat
  | outside => 0
  | inside read => 1 + 2 * read.count quoteMark

theorem count_of_literals? {place : LiteralPlace} (found : literals? place text = some literals) :
    text.count quoteMark + place.quotes = quotes literals := by
  fun_induction Text.literals? place text generalizing literals with
  | case1 => cases found; rfl
  | case2 rest ih =>
    have counted := ih found
    simp only [LiteralPlace.quotes, List.count_cons_self, List.count_nil] at counted ⊢
    omega
  | case3 c rest other ih => simpa [List.count_cons, other] using ih found
  | case4 => cases found
  | case5 read =>
    cases found
    simp only [quotes, LiteralPlace.quotes, List.count_cons_self, List.count_nil]
    omega
  | case6 => cases found
  | case7 read rest ih =>
    have counted := ih found
    simp only [LiteralPlace.quotes, List.count_append, List.count_cons_self, List.count_nil]
      at counted ⊢
    omega
  | case8 read d rest other ih =>
    obtain ⟨behind, read', rfl⟩ := Option.map_eq_some_iff.1 found
    have counted := ih read'
    simp only [LiteralPlace.quotes, quotes, List.count_cons_self] at counted ⊢
    omega
  | case9 read c d rest other ih =>
    have counted := ih found
    simpa [LiteralPlace.quotes, List.count_append, List.count_cons, other] using counted

theorem count_doubled (s : List Char) : (doubled s).count quoteMark = 2 * s.count quoteMark := by
  induction s with
  | nil => rfl
  | cons c s ih =>
    by_cases quote : c = quoteMark
    · subst quote
      simp only [doubled, if_pos, List.count_cons_self, ih]
      omega
    · simp [doubled, quote, ih]

theorem count_enclosed (s : List Char) : (enclosed s).count quoteMark = 2 + s.count quoteMark := by
  simp only [enclosed, List.cons_append, List.count_cons_self, List.count_append, List.count_nil]
  omega

/-- The text has these literals, of which `chars` are enclosed without doubling. Each quote among
them lacks its double in the text. -/
structure Composed (text : List Char) (literals : List (List Char)) (chars : List Char) : Prop where
  reads : Unquoted chars → Reads text literals
  count : text.count quoteMark + chars.count quoteMark = quotes literals

namespace Composed

theorem plain (plain : Unquoted text) : Composed text [] [] where
  reads _ := .plain plain
  count := by simpa [quotes, Unquoted] using List.count_eq_zero.2 plain

theorem quoted (s : List Char) : Composed (quoted s) [s] [] where
  reads _ := .quoted s
  count := by
    rw [Text.quoted, count_enclosed, count_doubled]
    rfl

theorem enclosed (plain : Unquoted s) : Composed (enclosed s) [s] [] := by
  have composed := Composed.quoted s
  rwa [Text.quoted, doubled_of_no_quote plain] at composed

theorem char (c : Char) : Composed (Text.enclosed [c]) [[c]] [c] where
  reads plain := (Composed.enclosed plain).reads unquoted_nil
  count := by
    rw [count_enclosed]
    simp only [quotes]
    omega

theorem append (first : Composed text literals chars) (second : Composed more added others)
    (apart : more.head? ≠ some quoteMark) :
    Composed (text ++ more) (literals ++ added) (chars ++ others) where
  reads plain := by
    obtain ⟨left, right⟩ := unquoted_append.1 plain
    exact (first.reads left).append (second.reads right) apart
  count := by
    have left := first.count
    have right := second.count
    rw [List.count_append, List.count_append, quotes_append]
    omega

theorem behind (composed : Composed text literals chars) (start : Unquoted s) :
    Composed (s ++ text) literals chars where
  reads plain := by
    intro rest apart
    rw [List.append_assoc, literals?_append_of_unquoted start, composed.reads plain rest apart]
  count := by
    rw [List.count_append, List.count_eq_zero.2 start, Nat.zero_add, composed.count]

theorem before (composed : Composed text literals chars) (finish : Unquoted s) :
    Composed (text ++ s) literals chars := by
  have apart : s.head? ≠ some quoteMark := by
    intro quote
    exact finish (List.mem_of_mem_head? quote)
  simpa using composed.append (.plain finish) apart

theorem literals?_eq_some_iff (composed : Composed text literals chars) :
    literals? .outside text = some literals ↔ quoteMark ∉ chars := by
  constructor
  · intro found
    have read := count_of_literals? found
    have made := composed.count
    have undoubled : chars.count quoteMark = 0 := by
      simp only [LiteralPlace.quotes] at read
      omega
    exact List.count_eq_zero.1 undoubled
  · intro plain
    exact (composed.reads plain).literals?

end Composed

end Criteria.Text
