import Criteria.Proofs.Value.Delimited

set_option autoImplicit false

namespace Criteria.Value

variable {v w : Value}

inductive Textual : Value → Prop
  | text (s : String) : Textual (.text s)
  | list {items : List Value} (each : ∀ item ∈ items, Textual item) : Textual (.list items)

theorem itemChars_eq_flatMap (items : List Value) : itemChars items = items.flatMap chars := by
  induction items with
  | nil => rfl
  | cons v vs ih => rw [itemChars, ih, List.flatMap_cons]

theorem Textual.chars_eq_nil (textual : v.Textual) : v.chars = [] := by
  induction textual with
  | text s => rfl
  | list each ih =>
    rw [chars, itemChars_eq_flatMap, List.flatMap_eq_nil_iff]
    exact ih

theorem Textual.plain (textual : v.Textual) : Text.quoteMark ∉ v.chars := by
  rw [textual.chars_eq_nil]
  exact List.not_mem_nil

theorem eq_of_map_shown {vs ws : List Value}
    (told : ∀ v ∈ vs, ∀ w ∈ ws, v.shown = w.shown → v = w)
    (same : vs.map shown = ws.map shown) : vs = ws := by
  induction vs generalizing ws with
  | nil => exact (List.map_eq_nil_iff.1 same.symm).symm
  | cons v vs ih =>
    cases ws with
    | nil => cases same
    | cons w ws =>
      obtain ⟨first, others⟩ := List.cons.inj same
      have tails : vs = ws := ih
        (fun v listed w listed' => told v (.tail _ listed) w (.tail _ listed')) others
      rw [told v (.head _) w (.head _) first, tails]

theorem Textual.eq_of_shown (textual : v.Textual) (textual' : w.Textual)
    (same : v.shown = w.shown) : v = w := by
  -- A text begins with a quote and a list with a parenthesis.
  induction textual generalizing w with
  | text s =>
    cases textual' with
    | text t =>
      have texts := Text.quoted_append_inj Text.closed_nil Text.closed_nil (congrArg (· ++ []) same)
      rw [String.toList_inj.1 texts.1]
    | list each' => cases List.head_eq_of_cons_eq same
  | @list vs each ih =>
    cases textual' with
    | text t => cases List.head_eq_of_cons_eq same
    | @list ws each' =>
      have items := shownItems_append_inj vs ws (Textual.list each).plain (Textual.list each').plain
        (List.tail_eq_of_cons_eq same)
      rw [eq_of_map_shown (fun v listed w listed' => ih v listed (each' w listed')) items.1]

theorem Textual.display_inj (textual : v.Textual) (textual' : w.Textual) :
    v.display = w.display ↔ v = w := by
  rw [display, display, String.ofList_inj]
  exact ⟨textual.eq_of_shown textual', congrArg shown⟩

-- Without doubled quotes the one text of the second list would be written like two texts.
def twoTexts : Value :=
  list [list [text "a", text "b"], list []]

def imitatedTexts : Value :=
  list [list [text "a\x27, \x27b"], list []]

theorem imitatedTexts_differ : twoTexts.Textual ∧ imitatedTexts.Textual ∧
    twoTexts.display ≠ imitatedTexts.display := by
  have two : twoTexts.Textual := .list (by simp [Textual.text, Textual.list])
  have imitated : imitatedTexts.Textual := .list (by simp [Textual.text, Textual.list])
  have apart : twoTexts ≠ imitatedTexts := by simp [twoTexts, imitatedTexts]
  exact ⟨two, imitated, fun same => apart ((two.display_inj imitated).1 same)⟩

end Criteria.Value
