import Criteria.Proofs.Filter.Recognition

set_option autoImplicit false

namespace Criteria

namespace Grammar

def Complete (limit : Nat) (ts : List Token) : Prop :=
  ∃ f, Sentence ts f ∧ NestedWithin limit (lexemes ts)

def Begins (limit : Nat) (ts : List Token) : Prop :=
  ∃ rest, Complete limit (ts ++ rest)

end Grammar

open Grammar

def ParamSlot.completion : ParamSlot → List Lexeme
  | low _ => [.keyword .and, .colon, .name "x"]
  | _ => []

def ReadingStage.completion : ReadingStage → List Lexeme
  | operand => [.name "x", .keyword .is, .keyword .null]
  | dot _ => [.name "x", .keyword .is, .keyword .null]
  | field _ => [.keyword .is, .keyword .null]
  | negation _ => [.keyword .like, .colon, .name "x"]
  | nullity _ _ => [.keyword .null]
  | param _ slot => .colon :: .name "x" :: slot.completion
  | paramName _ slot _ => .name "x" :: slot.completion
  | conjunction _ _ _ => [.keyword .and, .colon, .name "x"]
  | complete => []

namespace Reading

variable {r last : Reading} {stop : Position} {ts : List Token} {e : SyntaxError}

def anywhere (x : Lexeme) : Token :=
  ⟨x, {}⟩

theorem steps?_completion (r : Reading) :
    ∃ last, r.steps? (r.stage.completion.map anywhere) = some last ∧
      last.stage = .complete ∧ last.outer = r.outer := by
  obtain ⟨stage, run, outer⟩ := r
  cases stage with
  | nullity field negated => cases negated <;> exact ⟨_, rfl, rfl, rfl⟩
  | param field slot => cases slot <;> exact ⟨_, rfl, rfl, rfl⟩
  | paramName field slot colon => cases slot <;> exact ⟨_, rfl, rfl, rfl⟩
  | _ => exact ⟨_, rfl, rfl, rfl⟩

theorem steps?_closing (complete : r.stage = .complete) :
    ∃ last f, r.steps? (List.replicate r.outer.length (anywhere .closeParen)) = some last ∧
      last.result? = some f := by
  obtain ⟨stage, run, outer⟩ := r
  cases complete
  induction outer generalizing run with
  | nil => exact ⟨_, _, rfl, rfl⟩
  | cons around outer ih =>
    -- The parenthesis closes the run into an operand of the one around it.
    have closed : step? ⟨.complete, run, around :: outer⟩ (anywhere .closeParen) =
        some ⟨.complete, around.push run.close, outer⟩ := rfl
    obtain ⟨last, f, steps, result⟩ := ih (around.push run.close)
    refine ⟨last, f, ?_, result⟩
    rw [List.length_cons, List.replicate_succ, steps?_cons, closed, Option.bind_some, steps]

theorem exists_result (r : Reading) :
    ∃ rest last f, r.steps? rest = some last ∧ last.result? = some f := by
  obtain ⟨middle, completed, complete, -⟩ := r.steps?_completion
  obtain ⟨last, f, closed, result⟩ := steps?_closing complete
  refine ⟨r.stage.completion.map anywhere ++
    List.replicate middle.outer.length (anywhere .closeParen), last, f, ?_, result⟩
  rw [steps?_append, completed, Option.bind_some, closed]

theorem complete_iff :
    Complete maxNesting ts ↔
      ∃ last f, ({} : Reading).steps? ts = some last ∧ last.result? = some f := by
  constructor
  · intro complete
    obtain ⟨f, sentence, nested⟩ := complete
    have read := Filter.ofTokens_of_sentence (s := ⟨ts, {}⟩) sentence nested
    obtain ⟨last, steps, result⟩ := finish_eq_ok_iff.1 read
    exact ⟨last, f, steps, result⟩
  · intro given
    obtain ⟨last, f, steps, result⟩ := given
    exact ⟨f, (HasRead.start.steps steps).sentence result, nestedWithin_of_steps? steps⟩

theorem begins_iff : Begins maxNesting ts ↔ ∃ last, ({} : Reading).steps? ts = some last := by
  constructor
  · intro begins
    obtain ⟨rest, complete⟩ := begins
    obtain ⟨last, f, steps, -⟩ := complete_iff.1 complete
    rw [steps?_append] at steps
    obtain ⟨middle, first, -⟩ := Option.bind_eq_some_iff.1 steps
    exact ⟨middle, first⟩
  · intro given
    obtain ⟨middle, first⟩ := given
    obtain ⟨rest, last, f, steps, result⟩ := middle.exists_result
    refine ⟨rest, complete_iff.2 ⟨last, f, ?_, result⟩⟩
    rw [steps?_append, first, Option.bind_some, steps]

theorem finish_eq_error (failed : r.finish stop ts = .error e) :
    (∃ before t after last, ts = before ++ t :: after ∧ r.steps? before = some last ∧
      last.step? t = none ∧ e.position = t.position) ∨
    ∃ last, r.steps? ts = some last ∧ last.result? = none ∧ e.position = stop := by
  induction ts generalizing r with
  | nil =>
    rw [finish] at failed
    cases result : r.result? with
    | some f => simp [result] at failed
    | none =>
      simp only [result] at failed
      cases failed
      exact .inr ⟨r, rfl, result, rfl⟩
  | cons t ts ih =>
    rw [finish] at failed
    cases step : r.step? t with
    | none =>
      simp only [step] at failed
      cases failed
      exact .inl ⟨[], t, ts, r, rfl, rfl, step, rfl⟩
    | some next =>
      simp only [step] at failed
      rcases ih failed with
        ⟨before, found, after, last, rfl, steps, stuck, place⟩ | ⟨last, steps, rest⟩
      · exact .inl ⟨t :: before, found, after, last, rfl, by simp [step, steps], stuck, place⟩
      · exact .inr ⟨last, by simp [step, steps], rest⟩

end Reading

/-- A text without tokens fails where it has none. A text that has tokens but is no filter fails at
a token such that a sentence begins with the tokens before it, and none with these and the token
itself; or at the end, if a sentence begins with all of its tokens and they are none. -/
theorem Filter.parse_fault_earliest (text : String) :
    (∀ e, tokenize text = .error e → Filter.parse text = .error e) ∧
    ∀ s e, tokenize text = .ok s → Filter.parse text = .error e →
      (∃ before t after, s.tokens = before ++ t :: after ∧ e.position = t.position ∧
        Begins 64 before ∧ ¬ Begins 64 (before ++ [t])) ∨
      e.position = s.stop ∧ Begins 64 s.tokens ∧ ¬ Complete 64 s.tokens := by
  refine ⟨fun e failed => by rw [parse, failed], fun s e tokens failed => ?_⟩
  simp only [parse, tokens] at failed
  rcases Reading.finish_eq_error failed with
    ⟨before, t, after, last, parts, steps, stuck, place⟩ | ⟨last, steps, result, place⟩
  · refine .inl ⟨before, t, after, parts, place, Reading.begins_iff.2 ⟨last, steps⟩, ?_⟩
    intro begins
    obtain ⟨next, further⟩ := Reading.begins_iff.1 begins
    simp [steps, stuck] at further
  · refine .inr ⟨place, Reading.begins_iff.2 ⟨last, steps⟩, fun complete => ?_⟩
    obtain ⟨other, f, steps', result'⟩ := Reading.complete_iff.1 complete
    rw [steps] at steps'
    cases steps'
    rw [result] at result'
    cases result'

example : Filter.parse "a NOT b" = .error ⟨⟨1, 6⟩, .unexpected (some (.name "b")) .negatable⟩ := by
  cbv

end Criteria
