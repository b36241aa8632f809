import Criteria.Proofs.Filter.Splitting
import Criteria.Proofs.Predicate.Literals
import Criteria.Proofs.Value.Delimited

set_option autoImplicit false

namespace Criteria

open Text (Bare Closed closed_blank closed_paren)

variable {rest rest' : List Char}

def Test.Alike : Test → Test → Prop
  | compare op v, compare op' w => op = op' ∧ v.display = w.display
  | between low high, between low' high' =>
    low.display = low'.display ∧ high.display = high'.display
  | oneOf vs, oneOf ws => vs.map Value.display = ws.map Value.display
  | null, null => True
  | like pattern, like pattern' => pattern = pattern'
  | _, _ => False

namespace Predicate

mutual

def Alike : Predicate → Predicate → Prop
  | leaf path test, leaf path' test' =>
    path.source = path'.source ∧ path.attributes = path'.attributes ∧ test.Alike test'
  | group op operands, group op' operands' => op = op' ∧ AlikeOperands operands operands'
  | not p, not q => Alike p q
  | _, _ => False

def AlikeOperands : List Predicate → List Predicate → Prop
  | [], [] => True
  | p :: ps, q :: qs => Alike p q ∧ AlikeOperands ps qs
  | _, _ => False

end

mutual

/-- Groups have no operand or several, attributes have names, and no value is the single quote as a
character. -/
def Readable : Predicate → Prop
  | leaf path test => (∀ name ∈ path.attributes, IsName name) ∧ Text.quoteMark ∉ test.chars
  | group _ operands => operands.length ≠ 1 ∧ ReadableOperands operands
  | not p => p.Readable

def ReadableOperands : List Predicate → Prop
  | [] => True
  | p :: ps => p.Readable ∧ ReadableOperands ps

end

end Predicate

theorem Value.display_eq_iff {v w : Value} : v.display = w.display ↔ v.shown = w.shown :=
  String.ofList_inj

theorem Value.map_display_eq_iff {vs ws : List Value} :
    vs.map display = ws.map display ↔ vs.map shown = ws.map shown := by
  have ofList : display = String.ofList ∘ shown := rfl
  rw [ofList, ← List.map_map, ← List.map_map]
  exact (List.map_injective_iff.2 fun _ _ => String.ofList_inj.1).eq_iff

theorem PathSource.bare_shown (source : PathSource) : Bare source.shown := by
  cases source with
  | root => decide
  | join id => exact Text.bare_cons.2 ⟨by decide, Numeral.bare_digits id⟩

theorem PathSource.shown_inj {source source' : PathSource} (same : source.shown = source'.shown) :
    source = source' := by
  cases source with
  | root =>
    cases source' with
    | root => rfl
    | join id => cases List.head_eq_of_cons_eq same
  | join id =>
    cases source' with
    | root => cases List.head_eq_of_cons_eq same
    | join id' =>
      have digits := congrArg Numeral.value (List.tail_eq_of_cons_eq same)
      rw [Numeral.value_digits, Numeral.value_digits] at digits
      rw [digits]

namespace AttributePath

theorem bare_of_isName {name : String} (named : IsName name) : Bare name.toList :=
  Text.bare_of_all (by decide) named.2

variable {path path' : AttributePath}

theorem bare_shown (named : ∀ name ∈ path.attributes, IsName name) : Bare path.shown := by
  refine Text.bare_append.2 ⟨path.source.bare_shown, fun c listed => ?_⟩
  obtain ⟨name, inPath, inside⟩ := List.mem_flatMap.1 listed
  have step : Bare ('.' :: name.toList) :=
    Text.bare_cons.2 ⟨by decide, bare_of_isName (named name inPath)⟩
  exact step c inside

theorem splitOn_shown (named : ∀ name ∈ path.attributes, IsName name) :
    path.shown.splitOn '.' = path.source.shown :: path.attributes.map String.toList := by
  have joined (first : List Char) (names : List String) :
      first ++ names.flatMap (fun name => '.' :: name.toList) =
        ['.'].intercalate (first :: names.map String.toList) := by
    induction names generalizing first with
    | nil => simp
    | cons name names ih => simp [List.intercalate_cons_cons, ← ih]
  rw [shown, joined, List.splitOn_intercalate]
  · refine List.forall_mem_cons.2 ⟨?_, List.forall_mem_map.2 fun name inPath dot => ?_⟩
    · cases path.source with
      | root => decide
      | join id =>
        intro dot
        have digit : '.' ∈ Numeral.digits id := by simpa [PathSource.shown] using dot
        cases Numeral.isDigit_of_mem_digits digit
    · cases (named name inPath).2 '.' dot
  · exact List.cons_ne_nil _ _

theorem shown_inj (named : ∀ name ∈ path.attributes, IsName name)
    (named' : ∀ name ∈ path'.attributes, IsName name) (same : path.shown = path'.shown) :
    path.source = path'.source ∧ path.attributes = path'.attributes := by
  have split := splitOn_shown named
  rw [same, splitOn_shown named'] at split
  injection split with source steps
  exact ⟨(PathSource.shown_inj source).symm,
    (List.map_injective_iff.2 (fun _ _ => String.toList_inj.1) steps).symm⟩

end AttributePath

inductive TestKind where
  | compare (op : Comparison)
  | between
  | oneOf
  | null
  | like
deriving DecidableEq

namespace TestKind

def word : TestKind → List Char
  | compare op => op.symbol.toList
  | between => "BETWEEN".toList
  | oneOf => "IN".toList
  | null => "IS".toList
  | like => "LIKE".toList

theorem bare_word (k : TestKind) : Bare k.word := by
  rcases k with ⟨⟨⟩⟩ | _ | _ | _ | _ <;> decide

theorem word_inj {k l : TestKind} (same : k.word = l.word) : k = l := by
  revert same
  rcases k with ⟨⟨⟩⟩ | _ | _ | _ | _ <;> rcases l with ⟨⟨⟩⟩ | _ | _ | _ | _ <;> decide

end TestKind

namespace Test

def kind : Test → TestKind
  | compare op _ => .compare op
  | between _ _ => .between
  | oneOf _ => .oneOf
  | null => .null
  | like _ => .like

def arguments : Test → List Char
  | compare _ v => v.shown
  | between low high => low.shown ++ ' ' :: "AND ".toList ++ high.shown
  | oneOf values => '(' :: Value.shownItems values ++ [')']
  | null => "NULL".toList
  | like pattern => Text.quoted pattern.toList

theorem shown_eq (t : Test) : t.shown = t.kind.word ++ ' ' :: t.arguments := by
  unfold shown kind arguments
  cases t with
  | compare op v => rfl
  | between low high =>
    have first : "BETWEEN ".toList = TestKind.between.word ++ [' '] := by decide
    have second : " AND ".toList = ' ' :: "AND ".toList := by decide
    simp only [first, second, List.append_assoc, List.cons_append, List.nil_append]
  | oneOf values =>
    have first : "IN ".toList = TestKind.oneOf.word ++ [' '] := by decide
    simp only [first, Value.shown, List.append_assoc, List.cons_append, List.nil_append]
  | null => decide
  | like pattern =>
    have first : "LIKE ".toList = TestKind.like.word ++ [' '] := by decide
    simp only [first, List.append_assoc, List.cons_append, List.nil_append]

theorem shown_append_inj {t t' : Test} (plain : Text.quoteMark ∉ t.chars)
    (plain' : Text.quoteMark ∉ t'.chars) (closed : Closed rest) (closed' : Closed rest')
    (same : t.shown ++ rest = t'.shown ++ rest') : t.Alike t' ∧ rest = rest' := by
  rw [shown_eq, shown_eq, List.append_assoc, List.append_assoc] at same
  obtain ⟨word, behind⟩ := t.kind.bare_word.append_inj t'.kind.bare_word (closed_blank _) (closed_blank _) same
  have kind := TestKind.word_inj word
  have given : t.arguments ++ rest = t'.arguments ++ rest' := List.tail_eq_of_cons_eq behind
  cases t with
  | compare op v =>
    cases t' with
    | compare op' w =>
      cases kind
      obtain ⟨values, rest⟩ := Value.shown_append_inj v w plain plain' closed closed' given
      exact ⟨⟨rfl, Value.display_eq_iff.2 values⟩, rest⟩
    | _ => cases kind
  | between low high =>
    cases t' with
    | between low' high' =>
      obtain ⟨lowPlain, highPlain⟩ := not_or.1 (mt List.mem_append.2 plain)
      obtain ⟨lowPlain', highPlain'⟩ := not_or.1 (mt List.mem_append.2 plain')
      simp only [arguments, List.append_assoc, List.cons_append] at given
      obtain ⟨lows, behind⟩ :=
        Value.shown_append_inj low low' lowPlain lowPlain' (closed_blank _) (closed_blank _) given
      replace behind := List.append_cancel_left (List.tail_eq_of_cons_eq behind)
      obtain ⟨highs, rest⟩ :=
        Value.shown_append_inj high high' highPlain highPlain' closed closed' behind
      exact ⟨⟨Value.display_eq_iff.2 lows, Value.display_eq_iff.2 highs⟩, rest⟩
    | _ => cases kind
  | oneOf vs =>
    cases t' with
    | oneOf ws =>
      simp only [arguments, List.cons_append, List.append_assoc, List.nil_append, List.cons.injEq,
        true_and] at given
      obtain ⟨items, rest⟩ := Value.shownItems_append_inj vs ws plain plain' given
      exact ⟨Value.map_display_eq_iff.2 items, rest⟩
    | _ => cases kind
  | null =>
    cases t' with
    | null => exact ⟨trivial, List.append_cancel_left given⟩
    | _ => cases kind
  | like pattern =>
    cases t' with
    | like pattern' =>
      obtain ⟨patterns, rest⟩ := Text.quoted_append_inj closed closed' given
      exact ⟨String.toList_inj.1 patterns, rest⟩
    | _ => cases kind

theorem Alike.shown_eq {t t' : Test} (alike : t.Alike t') : t.shown = t'.shown := by
  suffices same : t.kind = t'.kind ∧ t.arguments = t'.arguments by
    rw [t.shown_eq, t'.shown_eq, same.1, same.2]
  cases t with
  | compare op v =>
    cases t' with
    | compare op' w =>
      obtain ⟨rfl, values⟩ := alike
      exact ⟨rfl, Value.display_eq_iff.1 values⟩
    | _ => cases alike
  | between low high =>
    cases t' with
    | between low' high' =>
      obtain ⟨lows, highs⟩ := alike
      rw [arguments, arguments, Value.display_eq_iff.1 lows, Value.display_eq_iff.1 highs]
      exact ⟨rfl, rfl⟩
    | _ => cases alike
  | oneOf vs =>
    cases t' with
    | oneOf ws =>
      rw [arguments, arguments, Value.shownItems_congr (Value.map_display_eq_iff.1 alike)]
      exact ⟨rfl, rfl⟩
    | _ => cases alike
  | null =>
    cases t' with
    | null => exact ⟨rfl, rfl⟩
    | _ => cases alike
  | like pattern =>
    cases t' with
    | like pattern' =>
      cases (alike : pattern = pattern')
      exact ⟨rfl, rfl⟩
    | _ => cases alike

end Test

theorem Connective.bare_symbol (op : Connective) : Bare op.symbol.toList := by
  cases op <;> decide

theorem Connective.symbol_inj {op op' : Connective}
    (same : op.symbol.toList = op'.symbol.toList) : op = op' := by
  revert same
  cases op <;> cases op' <;> decide

namespace Predicate

theorem leaf_append_inj {path path' : AttributePath} {t t' : Test}
    (readable : (leaf path t).Readable) (readable' : (leaf path' t').Readable)
    (closed : Closed rest) (closed' : Closed rest')
    (same : (leaf path t).shown ++ rest = (leaf path' t').shown ++ rest') :
    (leaf path t).Alike (leaf path' t') ∧ rest = rest' := by
  obtain ⟨named, plain⟩ := readable
  obtain ⟨named', plain'⟩ := readable'
  simp only [shown, List.append_assoc, List.cons_append] at same
  obtain ⟨paths, behind⟩ := (AttributePath.bare_shown named).append_inj
    (AttributePath.bare_shown named') (closed_blank _) (closed_blank _) same
  obtain ⟨source, steps⟩ := AttributePath.shown_inj named named' paths
  obtain ⟨tests, rest⟩ :=
    Test.shown_append_inj plain plain' closed closed' (List.tail_eq_of_cons_eq behind)
  exact ⟨⟨source, steps, tests⟩, rest⟩

theorem closed_shownRest (op : Connective) (ps : List Predicate) (rest : List Char) :
    Closed (shownRest op ps ++ ')' :: rest) := by
  cases ps <;> simp [shownRest, Text.closers]

theorem shownRest_append_ne {op : Connective} {ps : List Predicate} (several : ps ≠ []) :
    shownRest op ps ++ ')' :: rest ≠ ')' :: rest' := by
  obtain ⟨p, ps, rfl⟩ := List.exists_cons_of_ne_nil several
  intro same
  cases List.head_eq_of_cons_eq same

theorem group_shown_append (op : Connective) (p : Predicate) (ps : List Predicate) :
    (group op (p :: ps)).shown ++ rest = '(' :: (p.shown ++ (shownRest op ps ++ ')' :: rest)) := by
  simp [shown]

theorem not_shown_of_isGroup {p : Predicate} (grouped : p.isGroup = true) :
    (not p).shown = "NOT ".toList ++ p.shown := by
  rw [shown, if_pos grouped]

theorem not_shown_append_of_isGroup_eq_false {p : Predicate} (single : p.isGroup = false) :
    (not p).shown ++ rest = "NOT ".toList ++ '(' :: (p.shown ++ ')' :: rest) := by
  have opened : "NOT (".toList = "NOT ".toList ++ ['('] := by decide
  rw [shown, if_neg (by simp [single]), opened]
  simp only [List.append_assoc, List.cons_append, List.nil_append]

inductive Form where
  | test
  | constant (op : Connective)
  | operands
  | negation
deriving DecidableEq

def form : Predicate → Form
  | leaf _ _ => .test
  | group op [] => .constant op
  | group _ (_ :: _) => .operands
  | not _ => .negation

def Form.ofChar : Char → Form
  | 'T' => .constant .and
  | 'F' => .constant .or
  | '(' => .operands
  | 'N' => .negation
  | _ => .test

theorem form_of_head (p : Predicate) (rest : List Char) :
    (p.shown ++ rest).head?.map Form.ofChar = some p.form := by
  cases p with
  | leaf path test =>
    obtain ⟨source, steps, valueType⟩ := path
    cases source <;> rfl
  | group op ps =>
    cases ps with
    | nil => cases op <;> rfl
    | cons p ps => rfl
  | not p =>
    cases grouped : p.isGroup
    · rw [not_shown_append_of_isGroup_eq_false grouped]
      rfl
    · rw [not_shown_of_isGroup grouped]
      rfl

theorem constant_shown_append_ne (op : Connective) {s : List Char} :
    (group op []).shown ++ rest ≠ '(' :: s := by
  intro same
  have heads := form_of_head (group op []) rest
  rw [same] at heads
  cases heads

theorem form_eq_form {p q : Predicate} (same : p.shown ++ rest = q.shown ++ rest') :
    p.form = q.form := by
  have heads := p.form_of_head rest
  rw [same, q.form_of_head] at heads
  exact (Option.some_inj.1 heads).symm

mutual

theorem shown_append_inj (p q : Predicate) {rest rest' : List Char} (readable : p.Readable)
    (readable' : q.Readable) (closed : Closed rest) (closed' : Closed rest')
    (same : p.shown ++ rest = q.shown ++ rest') : p.Alike q ∧ rest = rest' := by
  have form := form_eq_form same
  match p, q with
  | leaf path t, leaf path' t' => exact leaf_append_inj readable readable' closed closed' same
  | leaf path t, group op' [] | leaf path t, group op' (q :: qs) | leaf path t, not q => cases form
  | group op [], leaf path' t' | group op [], group op' (q :: qs) | group op [], not q => cases form
  | group op [], group op' [] =>
    cases form
    exact ⟨⟨rfl, trivial⟩, List.append_cancel_left same⟩
  | group op (p :: ps), leaf path' t' | group op (p :: ps), group op' [] |
    group op (p :: ps), not q => cases form
  | group op (p :: ps), group op' (q :: qs) =>
    obtain ⟨several, first, others⟩ := readable
    obtain ⟨several', first', others'⟩ := readable'
    rw [group_shown_append, group_shown_append] at same
    obtain ⟨alike, behind⟩ := shown_append_inj p q first first' (closed_shownRest op ps rest)
      (closed_shownRest op' qs rest') (List.tail_eq_of_cons_eq same)
    obtain ⟨alikes, ops, rest⟩ := shownRest_append_inj op op' ps qs others others' behind
    have more : ps ≠ [] := fun none => several (by rw [none]; rfl)
    exact ⟨⟨ops more, alike, alikes⟩, rest⟩
  | not p, leaf path' t' | not p, group op' [] | not p, group op' (q :: qs) => cases form
  | not p, not q =>
    cases grouped : p.isGroup <;> cases grouped' : q.isGroup
    · rw [not_shown_append_of_isGroup_eq_false grouped,
        not_shown_append_of_isGroup_eq_false grouped'] at same
      have inner := List.tail_eq_of_cons_eq (List.append_cancel_left same)
      obtain ⟨alike, behind⟩ := shown_append_inj p q readable readable'
        (closed_paren _) (closed_paren _) inner
      exact ⟨alike, List.tail_eq_of_cons_eq behind⟩
    -- Were one of them a group, its operands would be the other alone.
    · rw [not_shown_append_of_isGroup_eq_false grouped, not_shown_of_isGroup grouped',
        List.append_assoc] at same
      replace same := List.append_cancel_left same
      match q with
      | group op [] => exact absurd same.symm (constant_shown_append_ne op)
      | group op (q :: qs) =>
        rw [group_shown_append] at same
        obtain ⟨-, behind⟩ := shown_append_inj p q readable readable'.2.1
          (closed_paren _) (closed_shownRest op qs rest') (List.tail_eq_of_cons_eq same)
        exact absurd behind.symm (shownRest_append_ne fun none => readable'.1 (by rw [none]; rfl))
    · rw [not_shown_of_isGroup grouped, not_shown_append_of_isGroup_eq_false grouped',
        List.append_assoc] at same
      replace same := List.append_cancel_left same
      match p with
      | group op [] => exact absurd same (constant_shown_append_ne op)
      | group op (p :: ps) =>
        rw [group_shown_append] at same
        obtain ⟨-, behind⟩ := shown_append_inj p q readable.2.1 readable'
          (closed_shownRest op ps rest) (closed_paren _) (List.tail_eq_of_cons_eq same)
        exact absurd behind (shownRest_append_ne fun none => readable.1 (by rw [none]; rfl))
    · rw [not_shown_of_isGroup grouped, not_shown_of_isGroup grouped', List.append_assoc,
        List.append_assoc] at same
      exact shown_append_inj p q readable readable' closed closed' (List.append_cancel_left same)

theorem shownRest_append_inj (op op' : Connective) (ps qs : List Predicate) {rest rest' : List Char}
    (readable : ReadableOperands ps) (readable' : ReadableOperands qs)
    (same : shownRest op ps ++ ')' :: rest = shownRest op' qs ++ ')' :: rest') :
    AlikeOperands ps qs ∧ (ps ≠ [] → op = op') ∧ rest = rest' := by
  match ps, qs with
  | [], [] => exact ⟨trivial, nofun, List.tail_eq_of_cons_eq same⟩
  | [], q :: qs => exact absurd same.symm (shownRest_append_ne (List.cons_ne_nil q qs))
  | p :: ps, [] => exact absurd same (shownRest_append_ne (List.cons_ne_nil p ps))
  | p :: ps, q :: qs =>
    simp only [shownRest, List.cons_append, List.append_assoc] at same
    obtain ⟨symbols, behind⟩ := op.bare_symbol.append_inj op'.bare_symbol (closed_blank _) (closed_blank _)
      (List.tail_eq_of_cons_eq same)
    obtain ⟨alike, behind⟩ := shown_append_inj p q readable.1 readable'.1
      (closed_shownRest op ps rest) (closed_shownRest op' qs rest') (List.tail_eq_of_cons_eq behind)
    obtain ⟨alikes, -, rest⟩ := shownRest_append_inj op op' ps qs readable.2 readable'.2 behind
    exact ⟨⟨alike, alikes⟩, fun _ => Connective.symbol_inj symbols, rest⟩

end

theorem Alike.isGroup_eq {p q : Predicate} (alike : p.Alike q) : p.isGroup = q.isGroup := by
  cases p <;> cases q <;> first | rfl | cases alike

mutual

theorem Alike.shown_eq {p q : Predicate} (alike : p.Alike q) : p.shown = q.shown := by
  match p, q with
  | leaf path t, leaf path' t' =>
    obtain ⟨source, steps, tests⟩ := alike
    rw [shown, shown, AttributePath.shown, AttributePath.shown, source, steps, tests.shown_eq]
  | group op [], group op' [] =>
    cases alike.1
    rfl
  | group op (p :: ps), group op' (q :: qs) =>
    obtain ⟨rfl, first, others⟩ := alike
    rw [shown, shown, first.shown_eq, shownRest_congr op others]
  | group op [], group op' (q :: qs) | group op (p :: ps), group op' [] => cases alike.2
  | not p, not q =>
    have inner : p.Alike q := alike
    rw [shown, shown, inner.isGroup_eq, inner.shown_eq]
  | leaf path t, group op' qs | leaf path t, not q | group op ps, leaf path' t' |
    group op ps, not q | not p, leaf path' t' | not p, group op' qs => cases alike

theorem shownRest_congr (op : Connective) {ps qs : List Predicate} (alike : AlikeOperands ps qs) :
    shownRest op ps = shownRest op qs := by
  match ps, qs with
  | [], [] => rfl
  | p :: ps, q :: qs => rw [shownRest, shownRest, alike.1.shown_eq, shownRest_congr op alike.2]
  | [], q :: qs | p :: ps, [] => cases alike

end

/-- Predicates whose groups have no operand or several have the same text exactly if they have the
same connectives, negations, attributes, operators and patterns in the same places, and values that
are written alike. -/
theorem display_eq_iff_alike {p q : Predicate} (readable : p.Readable) (readable' : q.Readable) :
    p.display = q.display ↔ p.Alike q := by
  rw [display, display, String.ofList_inj]
  constructor
  · intro same
    exact (shown_append_inj p q readable readable' Text.closed_nil Text.closed_nil
      (congrArg (· ++ []) same)).1
  · exact Alike.shown_eq

def ranked : Predicate :=
  group .and
    [leaf ⟨.join 1, ["grade"], some .char⟩ (.between (.char 'A') (.text "B AND C")),
      not (group .or
        [leaf ⟨.root, [], none⟩ .null,
          not (not (leaf ⟨.root, ["id_1", "of"], some (.int .long)⟩
            (.oneOf [.list [], .int ⟨.long, 41, by decide⟩])))]),
      not (group .or []), leaf ⟨.root, ["name"], some .text⟩ (.like "\x27%) OR TRUE")]

-- A text for a character, and a number of another width.
def rankedAgain : Predicate :=
  group .and
    [leaf ⟨.join 1, ["grade"], some .text⟩ (.between (.text "A") (.text "B AND C")),
      not (group .or
        [leaf ⟨.root, [], none⟩ .null,
          not (not (leaf ⟨.root, ["id_1", "of"], some (.int .int)⟩
            (.oneOf [.list [], .int ⟨.int, 41, by decide⟩])))]),
      not (group .or []), leaf ⟨.root, ["name"], some .text⟩ (.like "\x27%) OR TRUE")]

theorem ranked_alike :
    ranked.Readable ∧ rankedAgain.Readable ∧ ranked.display = rankedAgain.display ∧
      ranked.Alike rankedAgain := by
  have names : ∀ name ∈ ["grade", "id_1", "of", "name"], IsName name := by
    simp only [IsName, ← List.all_eq_true]
    decide
  have readable : ranked.Readable := by
    simp_all [ranked, Readable, ReadableOperands, Test.chars, Value.chars, Value.itemChars]
    decide
  have readable' : rankedAgain.Readable := by
    simp_all [rankedAgain, Readable, ReadableOperands, Test.chars, Value.chars, Value.itemChars]
  have same : ranked.display = rankedAgain.display := by decide +kernel
  exact ⟨readable, readable', same, (display_eq_iff_alike readable readable').1 same⟩

end Predicate

end Criteria
