import Criteria.Proofs.Filter.Grammar

set_option autoImplicit false

namespace Criteria

open Grammar

namespace Reading

def steps? (r : Reading) (ts : List Token) : Option Reading :=
  ts.foldlM step? r

@[simp] theorem steps?_nil (r : Reading) : r.steps? [] = some r :=
  rfl

@[simp] theorem steps?_cons (r : Reading) (t : Token) (ts : List Token) :
    r.steps? (t :: ts) = (r.step? t).bind (·.steps? ts) :=
  rfl

@[simp] theorem steps?_append (r : Reading) (ts us : List Token) :
    r.steps? (ts ++ us) = (r.steps? ts).bind (·.steps? us) :=
  List.foldlM_append

theorem finish_eq_ok_iff {r : Reading} {stop : Position} {ts : List Token} {f : Filter} :
    r.finish stop ts = .ok f ↔ ∃ last, r.steps? ts = some last ∧ last.result? = some f := by
  induction ts generalizing r with
  | nil => cases h : r.result? <;> simp [finish, h]
  | cons t ts ih => cases h : r.step? t <;> simp [finish, h, ih]

-- A reading goes over a sentence.

section Completeness

variable {ts : List Token} {r : Reading}

theorem steps?_field {field : FieldRef} (h : Field ts field) (begins : r.stage = .operand) :
    r.steps? ts = some (r.goTo (.field field)) := by
  induction h with
  | name name p => simp [step?, begins]
  | dotted name p q h ih => simp [ih, step?, goTo]

theorem steps?_param {field : FieldRef} {slot : ParamSlot} {param : ParamRef}
    (h : Param ts param) :
    (r.goTo (.param field slot)).steps? ts = some (r.fill field slot param) := by
  cases h
  cases slot <;> simp [step?, goTo, fill, add]

theorem steps?_negation {field : FieldRef} {negated : Bool} {k : Keyword} {slot : ParamSlot}
    (h : Negation ts negated) (slotted : negatable? negated k = some slot) (p : Position)
    (us : List Token) :
    (r.goTo (.field field)).steps? (ts ++ ⟨.keyword k, p⟩ :: us) =
      (r.goTo (.param field slot)).steps? us := by
  cases h <;> cases k <;> simp_all [step?, goTo, negatable?]

theorem steps?_comparand {field : FieldRef} {condition : Condition} (h : Comparand ts condition) :
    (r.goTo (.field field)).steps? ts = some (r.add (.leaf field condition)) := by
  cases h with
  | compare op p param =>
    have begun : (r.goTo (.field field)).step? ⟨.comparison op, p⟩ =
        some (r.goTo (.param field (.compare op))) := rfl
    simp [begun, steps?_param param, fill]
  | @between ns ls hs negated low high p q negation lowTokens highTokens =>
    have slotted : negatable? negated .between = some (.low negated) := rfl
    have middle : (r.goTo (.conjunction field negated low)).step? ⟨.keyword .and, q⟩ =
        some (r.goTo (.param field (.high negated low))) := rfl
    simp only [List.append_assoc, List.cons_append, steps?_negation negation slotted,
      steps?_append, steps?_param lowTokens, fill, Option.bind_some, steps?_cons, middle,
      steps?_param highTokens]
  | @oneOf _ _ negated _ p negation param =>
    have slotted : negatable? negated .among = some (.oneOf negated) := rfl
    rw [steps?_negation negation slotted, steps?_param param, fill]
  | null p q negation => cases negation <;> simp [step?, goTo, add]
  | @like _ _ negated _ p negation param =>
    have slotted : negatable? negated .like = some (.like negated) := rfl
    rw [steps?_negation negation slotted, steps?_param param, fill]

def addConjuncts (r : Reading) (fs : List Filter) : Reading :=
  { r with stage := .complete, run := { r.run with conjuncts := r.run.conjuncts ++ fs } }

mutual

theorem steps?_term {ts : List Token} {f : Filter} {r : Reading} {limit : Nat} :
    Term ts f → NestedWithin limit (lexemes ts) → r.outer.length + limit ≤ maxNesting →
    r.stage = .operand → r.steps? ts = some (r.add f)
  | .leaf field comparand, _, _, begins => by
    simp [steps?_field field begins, steps?_comparand comparand]
  | .parens p q inner grouped, nested, room, begins => by
    -- One level of the room is used up by the parenthesis, and so is one of the nesting inside.
    simp only [lexemes_append, lexemes_cons] at nested
    obtain ⟨depth, rfl, innerNested⟩ := nested.inner
    let fresh : Reading := ⟨.operand, {}, r.run :: r.outer⟩
    have opened : r.step? ⟨.openParen, p⟩ = some fresh := by
      simp only [step?, begins]
      exact if_pos (by omega)
    obtain ⟨last, steps, complete, outer, alternatives⟩ :=
      steps?_alternatives (r := fresh) inner innerNested (by simp [fresh]; omega) rfl rfl
    have closed : last.step? ⟨.closeParen, q⟩ = some (r.add f) := by
      have close : last.run.close = f := by
        rw [OperandRun.close, alternatives, grouped.eq_join]
        rfl
      simp [step?, complete, outer, fresh, close, add]
    simp [opened, steps, closed]

theorem steps?_conjuncts {ts : List Token} {fs : List Filter} {r : Reading} {limit : Nat} :
    Conjuncts ts fs → NestedWithin limit (lexemes ts) → r.outer.length + limit ≤ maxNesting →
    r.stage = .operand → r.steps? ts = some (r.addConjuncts fs)
  | .term term, nested, room, begins => steps?_term term nested room begins
  | @Conjuncts.and _ _ fs f p first last, nested, room, begins => by
    simp only [lexemes_append, lexemes_cons] at nested
    have firstSteps := steps?_conjuncts first nested.left room begins
    let next := (r.addConjuncts fs).goTo .operand
    -- The tokens before the AND are balanced, so the nesting behind it is bounded as before.
    have connected : (r.addConjuncts fs).step? ⟨.keyword .and, p⟩ = some next := rfl
    have lastSteps := steps?_term (r := next) last
      (nested.behind first.balanced (by simp) (by simp)) room rfl
    have added : next.add f = r.addConjuncts (fs ++ [f]) := by
      simp [next, addConjuncts, goTo, add, OperandRun.push]
    simp [firstSteps, connected, lastSteps, added]

theorem steps?_alternatives {ts : List Token} {fs : List Filter} {r : Reading} {limit : Nat} :
    Alternatives ts fs → NestedWithin limit (lexemes ts) → r.outer.length + limit ≤ maxNesting →
    r.stage = .operand → r.run.conjuncts = [] →
    ∃ last, r.steps? ts = some last ∧ last.stage = .complete ∧ last.outer = r.outer ∧
      -- The last alternative is not yet grouped: this is done by the OR or parenthesis behind it.
      last.run.split.alternatives = r.run.alternatives ++ fs
  | .conjuncts conjuncts grouped, nested, room, begins, fresh => by
    refine ⟨_, steps?_conjuncts conjuncts nested room begins, rfl, rfl, ?_⟩
    simp [addConjuncts, OperandRun.split, fresh, grouped.eq_join]
  | @Alternatives.or _ _ _ gs _ p first last grouped, nested, room, begins, fresh => by
    simp only [lexemes_append, lexemes_cons] at nested
    obtain ⟨middle, steps, complete, outer, alternatives⟩ :=
      steps?_alternatives first nested.left room begins fresh
    let next : Reading := ⟨.operand, middle.run.split, middle.outer⟩
    have connected : middle.step? ⟨.keyword .or, p⟩ = some next := by
      simp [step?, complete, next]
    have lastSteps := steps?_conjuncts (r := next) last
      (nested.behind first.balanced (by simp) (by simp))
      (by simpa [next, outer] using room) rfl
    refine ⟨next.addConjuncts gs, by simp [steps, connected, lastSteps], rfl, outer, ?_⟩
    simp only [addConjuncts, OperandRun.split, next] at alternatives ⊢
    simp [alternatives, grouped.eq_join]

end

end Completeness

-- What a reading has gone over.

inductive SlotRead : List Token → ParamSlot → Prop
  | compare (op : Comparison) (p : Position) : SlotRead [⟨.comparison op, p⟩] (.compare op)
  | low {ns : List Token} {negated : Bool} (p : Position) :
      Negation ns negated → SlotRead (ns ++ [⟨.keyword .between, p⟩]) (.low negated)
  | high {ns ls : List Token} {negated : Bool} {low : ParamRef} (p q : Position) :
      Negation ns negated → Param ls low →
      SlotRead (ns ++ ⟨.keyword .between, p⟩ :: ls ++ [⟨.keyword .and, q⟩]) (.high negated low)
  | oneOf {ns : List Token} {negated : Bool} (p : Position) :
      Negation ns negated → SlotRead (ns ++ [⟨.keyword .among, p⟩]) (.oneOf negated)
  | like {ns : List Token} {negated : Bool} (p : Position) :
      Negation ns negated → SlotRead (ns ++ [⟨.keyword .like, p⟩]) (.like negated)

inductive TermBegun : List Token → ReadingStage → Prop
  | operand : TermBegun [] .operand
  | dot {ts : List Token} {field : FieldRef} (p : Position) :
      Field ts field → TermBegun (ts ++ [⟨.dot, p⟩]) (.dot field)
  | field {ts : List Token} {field : FieldRef} : Field ts field → TermBegun ts (.field field)
  | negation {ts : List Token} {field : FieldRef} (p : Position) :
      Field ts field → TermBegun (ts ++ [⟨.keyword .not, p⟩]) (.negation field)
  | nullity {ts ns : List Token} {field : FieldRef} {negated : Bool} (p : Position) :
      Field ts field → Negation ns negated →
      TermBegun (ts ++ ⟨.keyword .is, p⟩ :: ns) (.nullity field negated)
  | param {ts us : List Token} {field : FieldRef} {slot : ParamSlot} :
      Field ts field → SlotRead us slot → TermBegun (ts ++ us) (.param field slot)
  | paramName {ts us : List Token} {field : FieldRef} {slot : ParamSlot} (p : Position) :
      Field ts field → SlotRead us slot →
      TermBegun (ts ++ us ++ [⟨.colon, p⟩]) (.paramName field slot p)
  | conjunction {ts us ls : List Token} {field : FieldRef} {negated : Bool} {low : ParamRef} :
      Field ts field → SlotRead us (.low negated) → Param ls low →
      TermBegun (ts ++ us ++ ls) (.conjunction field negated low)

inductive ConjunctsBefore : List Token → List Filter → Prop
  | none : ConjunctsBefore [] []
  | and {ts : List Token} {fs : List Filter} (p : Position) :
      Conjuncts ts fs → ConjunctsBefore (ts ++ [⟨.keyword .and, p⟩]) fs

inductive AlternativesBefore : List Token → List Filter → Prop
  | none : AlternativesBefore [] []
  | or {ts : List Token} {fs : List Filter} (p : Position) :
      Alternatives ts fs → AlternativesBefore (ts ++ [⟨.keyword .or, p⟩]) fs

inductive RunBefore : List Token → OperandRun → Prop
  | mk {ts us : List Token} {alternatives conjuncts : List Filter} :
      AlternativesBefore ts alternatives → ConjunctsBefore us conjuncts →
      RunBefore (ts ++ us) ⟨alternatives, conjuncts⟩

inductive Opened : List Token → List OperandRun → Prop
  | none : Opened [] []
  | paren {ts us : List Token} {run : OperandRun} {outer : List OperandRun} (p : Position) :
      Opened ts outer → RunBefore us run → Opened (ts ++ us ++ [⟨.openParen, p⟩]) (run :: outer)

inductive HasRead : List Token → Reading → Prop
  | begun {ts us vs : List Token} {stage : ReadingStage} {run : OperandRun}
      {outer : List OperandRun} :
      Opened ts outer → RunBefore us run → TermBegun vs stage →
      HasRead (ts ++ us ++ vs) ⟨stage, run, outer⟩
  | complete {ts us vs : List Token} {f : Filter} {run : OperandRun} {outer : List OperandRun} :
      Opened ts outer → RunBefore us run → Term vs f →
      HasRead (ts ++ us ++ vs) ⟨.complete, run.push f, outer⟩

theorem ConjunctsBefore.push {ts us : List Token} {fs : List Filter} {f : Filter}
    (before : ConjunctsBefore ts fs) (term : Term us f) : Conjuncts (ts ++ us) (fs ++ [f]) := by
  cases before with
  | none => exact .term term
  | and p conjuncts => simpa using Conjuncts.and p conjuncts term

theorem AlternativesBefore.push {ts us : List Token} {fs gs : List Filter} {f : Filter}
    (before : AlternativesBefore ts fs) (conjuncts : Conjuncts us gs) (grouped : Grouped .and gs f) :
    Alternatives (ts ++ us) (fs ++ [f]) := by
  cases before with
  | none => exact .conjuncts conjuncts grouped
  | or p alternatives => simpa using Alternatives.or p alternatives conjuncts grouped

theorem RunBefore.and {ts us : List Token} {run : OperandRun} {f : Filter}
    (before : RunBefore ts run) (term : Term us f) (p : Position) :
    RunBefore (ts ++ us ++ [⟨.keyword .and, p⟩]) (run.push f) := by
  obtain ⟨alternatives, conjuncts⟩ := before
  simpa [OperandRun.push] using RunBefore.mk alternatives (.and p (conjuncts.push term))

theorem RunBefore.alternatives {ts us : List Token} {run : OperandRun} {f : Filter}
    (before : RunBefore ts run) (term : Term us f) :
    Alternatives (ts ++ us) (run.push f).split.alternatives := by
  obtain ⟨alternatives, conjuncts⟩ := before
  have last := conjuncts.push term
  simpa [OperandRun.push, OperandRun.split] using
    alternatives.push last (grouped_join .and last.ne_nil)

theorem RunBefore.or {ts us : List Token} {run : OperandRun} {f : Filter}
    (before : RunBefore ts run) (term : Term us f) (p : Position) :
    RunBefore (ts ++ us ++ [⟨.keyword .or, p⟩]) (run.push f).split := by
  have split : RunBefore _ (run.push f).split := .mk (.or p (before.alternatives term)) .none
  simpa using split

theorem RunBefore.close {ts us : List Token} {run : OperandRun} {f : Filter}
    (before : RunBefore ts run) (term : Term us f) :
    Sentence (ts ++ us) (run.push f).close := by
  have alternatives := before.alternatives term
  exact .mk alternatives (grouped_join .or alternatives.ne_nil)

inductive TermStep (vs : List Token) (t : Token) (run : OperandRun) (outer : List OperandRun) :
    Reading → Prop
  | begun {stage : ReadingStage} :
      TermBegun (vs ++ [t]) stage → TermStep vs t run outer ⟨stage, run, outer⟩
  | complete {f : Filter} :
      Term (vs ++ [t]) f → TermStep vs t run outer ⟨.complete, run.push f, outer⟩
  | openParen (p : Position) :
      vs = [] → t = ⟨.openParen, p⟩ → TermStep vs t run outer ⟨.operand, {}, run :: outer⟩

section Soundness

variable {ts us vs : List Token} {t : Token} {run : OperandRun} {outer : List OperandRun}
  {r next : Reading}

theorem termStep_fill {field : FieldRef} {slot : ParamSlot} {name : String} {p q : Position}
    (fieldTokens : Field ts field) (slotRead : SlotRead us slot) :
    TermStep (ts ++ us ++ [⟨.colon, p⟩]) ⟨.name name, q⟩ run outer
      (fill ⟨.paramName field slot p, run, outer⟩ field slot ⟨name, p⟩) := by
  have param := Param.named name p q
  cases slotRead with
  | compare op place =>
    refine .complete ?_
    simpa using Term.leaf fieldTokens (.compare op place param)
  | low place negation =>
    refine .begun ?_
    simpa using TermBegun.conjunction fieldTokens (.low place negation) param
  | high place andPlace negation low =>
    refine .complete ?_
    simpa using Term.leaf fieldTokens (.between place andPlace negation low param)
  | oneOf place negation =>
    refine .complete ?_
    simpa using Term.leaf fieldTokens (.oneOf place negation param)
  | like place negation =>
    refine .complete ?_
    simpa using Term.leaf fieldTokens (.like place negation param)

theorem slotRead_of_negatable {ns : List Token} {negated : Bool} {k : Keyword} {slot : ParamSlot}
    (negation : Negation ns negated) (slotted : negatable? negated k = some slot) (p : Position) :
    SlotRead (ns ++ [⟨.keyword k, p⟩]) slot := by
  cases k <;> simp only [negatable?, Option.some.injEq, reduceCtorEq] at slotted <;> subst slotted
  · exact .low p negation
  · exact .oneOf p negation
  · exact .like p negation

theorem TermBegun.step {stage : ReadingStage} (begun : TermBegun vs stage)
    (h : step? ⟨stage, run, outer⟩ t = some next) : TermStep vs t run outer next := by
  obtain ⟨lexeme, place⟩ := t
  -- For each place in a term, the lexemes that go on from there; no other leads to a reading.
  cases begun with
  | operand =>
    cases lexeme with
    | name name =>
      cases h
      exact .begun (.field (.name name place))
    | openParen =>
      simp only [step?, Option.ite_none_right_eq_some, Option.some.injEq] at h
      obtain ⟨_, rfl⟩ := h
      exact .openParen place rfl rfl
    | _ => cases h
  | dot p field =>
    cases lexeme with
    | name name =>
      cases h
      refine .begun ?_
      simpa using TermBegun.field (.dotted name p place field)
    | _ => cases h
  | field field =>
    cases lexeme with
    | dot =>
      cases h
      exact .begun (.dot place field)
    | comparison op =>
      cases h
      exact .begun (.param field (.compare op place))
    | keyword k =>
      cases k with
      | is =>
        cases h
        exact .begun (.nullity place field .absent)
      | not =>
        cases h
        exact .begun (.negation place field)
      | _ =>
        simp only [step?, Option.map_eq_some_iff] at h
        obtain ⟨slot, slotted, rfl⟩ := h
        exact .begun (.param field (slotRead_of_negatable .absent slotted place))
    | _ => cases h
  | negation p field =>
    cases lexeme with
    | keyword k =>
      obtain ⟨slot, slotted, rfl⟩ := Option.map_eq_some_iff.1 h
      refine .begun ?_
      simpa using TermBegun.param field (slotRead_of_negatable (.present p) slotted place)
    | _ => cases h
  | nullity p field negation =>
    cases lexeme with
    | keyword k =>
      cases k with
      | not =>
        cases negation with
        | absent =>
          cases h
          refine .begun ?_
          simpa using TermBegun.nullity p field (.present place)
        | present => cases h
      | null =>
        have term := Term.leaf field (.null p place negation)
        cases negation <;> cases h <;> exact .complete (by simpa using term)
      | _ => cases negation <;> cases h
    | _ => cases negation <;> cases h
  | param field slot =>
    cases lexeme with
    | colon =>
      cases h
      exact .begun (.paramName place field slot)
    | _ => cases h
  | paramName p field slot =>
    cases lexeme with
    | name name =>
      cases h
      exact termStep_fill field slot
    | _ => cases h
  | conjunction field slot low =>
    cases lexeme with
    | keyword k =>
      cases k with
      | and =>
        cases h
        -- An AND behind the lower bound belongs to the BETWEEN and connects nothing.
        cases slot with
        | low q negation =>
          refine .begun ?_
          simpa using TermBegun.param field (.high q place negation low)
      | _ => cases h
    | _ => cases h

theorem HasRead.start : HasRead [] {} :=
  .begun .none (.mk .none .none) .operand

theorem HasRead.step (read : HasRead ts r) (h : r.step? t = some next) :
    HasRead (ts ++ [t]) next := by
  cases read with
  | begun opened before begun =>
    cases begun.step h with
    | begun begun => simpa using HasRead.begun opened before begun
    | complete term => simpa using HasRead.complete opened before term
    | openParen p empty found =>
      subst empty found
      simpa using HasRead.begun (.paren p opened before) (.mk .none .none) .operand
  | @complete ts us vs f run outer opened before term =>
    obtain ⟨lexeme, place⟩ := t
    cases lexeme with
    | closeParen =>
      cases opened with
      | none => cases h
      | paren p opened around =>
        cases h
        -- What stands between the parentheses becomes one operand of the run around them.
        have inner := before.alternatives term
        have closed : Term _ (run.push f).close :=
          .parens p place inner (grouped_join .or inner.ne_nil)
        simpa using HasRead.complete opened around closed
    | keyword k =>
      cases k with
      | and =>
        cases h
        simpa [goTo] using HasRead.begun opened (before.and term place) .operand
      | or =>
        cases h
        simpa using HasRead.begun opened (before.or term place) .operand
      | _ => cases h
    | _ => cases h

theorem HasRead.steps (read : HasRead ts r) (h : r.steps? us = some next) :
    HasRead (ts ++ us) next := by
  induction us generalizing ts r with
  | nil =>
    cases h
    simpa using read
  | cons t us ih =>
    obtain ⟨middle, first, rest⟩ := Option.bind_eq_some_iff.1 h
    simpa using ih (read.step first) rest

theorem HasRead.sentence {f : Filter} (read : HasRead ts r) (result : r.result? = some f) :
    Sentence ts f := by
  cases read with
  -- A term that has not ended, or a parenthesis that is open, leaves no result.
  | begun opened before begun => cases begun <;> cases result
  | complete opened before term =>
    cases opened with
    | none =>
      cases result
      exact before.close term
    | paren => cases result

end Soundness

-- How deep a reading is nested.

section Nesting

variable {ts : List Token} {t : Token} {r next : Reading}

theorem outer_goTo (stage : ReadingStage) : (r.goTo stage).outer = r.outer :=
  rfl

theorem outer_fill (field : FieldRef) (slot : ParamSlot) (param : ParamRef) :
    (r.fill field slot param).outer = r.outer := by
  cases slot <;> rfl

theorem outer_step? (h : r.step? t = some next) :
    (t.lexeme = .openParen ∧ r.outer.length < maxNesting ∧ next.outer = r.run :: r.outer) ∨
      (t.lexeme = .closeParen ∧ ∃ run, r.outer = run :: next.outer) ∨
      (t.lexeme ≠ .openParen ∧ t.lexeme ≠ .closeParen ∧ next.outer = r.outer) := by
  unfold step? at h
  split at h <;> grind [Option.map_eq_some_iff, outer_goTo, outer_fill, add]

theorem opened_step? (h : r.step? t = some next) :
    next.outer.length + [t.lexeme].count .closeParen =
      r.outer.length + [t.lexeme].count .openParen := by
  rcases outer_step? h with ⟨found, _, outer⟩ | ⟨found, run, outer⟩ | ⟨notOpen, notClose, outer⟩
  · simp [found, outer]
  · simp [found, outer]
  · simp [notOpen, notClose, outer]

theorem opened_steps? (h : r.steps? ts = some next) :
    next.outer.length + (lexemes ts).count .closeParen =
      r.outer.length + (lexemes ts).count .openParen := by
  induction ts generalizing r with
  | nil =>
    cases h
    rfl
  | cons t ts ih =>
    obtain ⟨middle, first, rest⟩ := Option.bind_eq_some_iff.1 h
    have step := opened_step? first
    have steps := ih rest
    simp only [lexemes_cons, List.count_cons, List.count_nil] at step ⊢
    omega

theorem room_steps? (h : r.steps? ts = some next) (room : r.outer.length ≤ maxNesting) :
    next.outer.length ≤ maxNesting := by
  induction ts generalizing r with
  | nil =>
    cases h
    exact room
  | cons t ts ih =>
    obtain ⟨middle, first, rest⟩ := Option.bind_eq_some_iff.1 h
    refine ih rest ?_
    rcases outer_step? first with ⟨_, below, outer⟩ | ⟨_, run, outer⟩ | ⟨_, _, outer⟩
    · rw [outer, List.length_cons]
      exact below
    · rw [outer, List.length_cons] at room
      omega
    · rw [outer]
      exact room

theorem nestedWithin_of_steps? (h : ({} : Reading).steps? ts = some next) :
    NestedWithin maxNesting (lexemes ts) := by
  rintro before ⟨rest, parts⟩
  -- The reading went over the prefix too, and stood at that depth behind it.
  obtain ⟨us, vs, rfl, rfl, -⟩ := List.map_eq_append_iff.1 parts.symm
  rw [steps?_append] at h
  obtain ⟨middle, first, -⟩ := Option.bind_eq_some_iff.1 h
  have opened := opened_steps? first
  have room := room_steps? first (Nat.zero_le _)
  simp only [lexemes, List.length_nil] at opened ⊢
  omega

end Nesting

end Reading

namespace Filter

theorem ofTokens_of_sentence {s : TokenStream} {f : Filter} (sentence : Sentence s.tokens f)
    (nested : NestedWithin maxNesting (lexemes s.tokens)) : ofTokens s = .ok f := by
  obtain ⟨alternatives, grouped⟩ := sentence
  obtain ⟨last, steps, complete, outer, operands⟩ :=
    Reading.steps?_alternatives (r := {}) alternatives nested (by simp) rfl rfl
  have close : last.run.close = f := by
    rw [OperandRun.close, operands, grouped.eq_join]
    rfl
  have result : last.result? = some f := by
    simp [Reading.result?, complete, outer, close]
  exact Reading.finish_eq_ok_iff.2 ⟨last, steps, result⟩

theorem sentence_of_parse {text : String} {f : Filter} (parsed : parse text = .ok f) :
    ∃ s, tokenize text = .ok s ∧ Sentence s.tokens f ∧
      NestedWithin maxNesting (lexemes s.tokens) := by
  unfold parse at parsed
  split at parsed
  · cases parsed
  · next s tokens =>
    obtain ⟨last, steps, result⟩ := Reading.finish_eq_ok_iff.1 parsed
    exact ⟨s, tokens, (Reading.HasRead.start.steps steps).sentence result,
      Reading.nestedWithin_of_steps? steps⟩

/-- Tokens are read as a filter exactly if they are a sentence for it that is not nested too deep. -/
theorem ofTokens_eq_ok_iff (s : TokenStream) (f : Filter) :
    ofTokens s = .ok f ↔ Sentence s.tokens f ∧ NestedWithin 64 (lexemes s.tokens) := by
  constructor
  · intro h
    obtain ⟨last, steps, result⟩ := Reading.finish_eq_ok_iff.1 h
    have read := Reading.HasRead.start.steps steps
    exact ⟨read.sentence result, Reading.nestedWithin_of_steps? steps⟩
  · intro given
    obtain ⟨sentence, nested⟩ := given
    exact ofTokens_of_sentence sentence nested

end Filter

end Criteria
