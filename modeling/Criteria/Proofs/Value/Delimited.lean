import Criteria.Proofs.Value.Literals

set_option autoImplicit false

namespace Criteria.Value

open Text (Bare Closed)

variable {v w : Value} {rest rest' : List Char}

theorem shown_scalar (scalar : v.items? = none) (plain : Text.quoteMark ∉ v.chars) :
    (∃ s, v.shown = Text.quoted s) ∨ Bare v.shown ∧ v.shown ≠ [] := by
  have quoted {s : List Char} (bare : Bare s) : ∃ t, Text.enclosed s = Text.quoted t :=
    ⟨s, by rw [Text.quoted, Text.doubled_of_no_quote bare.unquoted]⟩
  cases v with
  | null => exact .inr ⟨by decide, by simp [shown]⟩
  | bool b => cases b <;> exact .inr ⟨by decide, by simp [shown]⟩
  | int n => exact .inr ⟨n.bare_text, n.text_ne_nil⟩
  | float x => exact .inr ⟨x.bare_text, x.text_ne_nil⟩
  | decimal d => exact .inr ⟨d.bare_text, d.text_ne_nil⟩
  | char c =>
    have single : Text.quoteMark ∉ [c] := plain
    exact .inl ⟨[c], by rw [shown, Text.quoted, Text.doubled_of_no_quote single]⟩
  | text s => exact .inl ⟨_, rfl⟩
  | date t => exact .inl (quoted t.bare_text)
  | uuid u => exact .inl (quoted u.bare_text)
  | list items => cases scalar

def moreShown : List Value → List Char
  | [] => []
  | v :: vs => ',' :: ' ' :: v.shown ++ moreShown vs

theorem shownItems_cons (v : Value) (vs : List Value) :
    shownItems (v :: vs) = v.shown ++ moreShown vs := by
  induction vs generalizing v with
  | nil => simp [shownItems, moreShown]
  | cons w vs ih => simp [shownItems, moreShown, ih]

theorem closed_moreShown (vs : List Value) (rest : List Char) :
    Closed (moreShown vs ++ ')' :: rest) := by
  cases vs <;> simp [moreShown, Text.closers]

theorem shownItems_congr {vs ws : List Value} (same : vs.map shown = ws.map shown) :
    shownItems vs = shownItems ws := by
  have joined (vs : List Value) : shownItems vs = [',', ' '].intercalate (vs.map shown) := by
    induction vs with
    | nil => rfl
    | cons v vs ih => cases vs <;> simp_all [shownItems, List.intercalate_cons_of_ne_nil]
  rw [joined, same, joined]

theorem itemChars_cons {v : Value} {vs : List Value} : Text.quoteMark ∉ itemChars (v :: vs) ↔
    Text.quoteMark ∉ v.chars ∧ Text.quoteMark ∉ itemChars vs := by
  rw [itemChars, List.mem_append, not_or]

theorem exists_scalar_eq_cons (scalar : v.items? = none) (plain : Text.quoteMark ∉ v.chars) :
    ∃ c s, v.shown = c :: s ∧ c ∉ '(' :: Text.closers := by
  rcases shown_scalar scalar plain with ⟨s, written⟩ | ⟨bare, notEmpty⟩
  · exact ⟨Text.quoteMark, _, written, by decide⟩
  · obtain ⟨c, s, written⟩ := List.exists_cons_of_ne_nil notEmpty
    rw [written] at bare
    refine ⟨c, s, written, fun listed => (Text.bare_cons.1 bare).1 ?_⟩
    exact List.cons_subset_cons '(' (List.subset_cons_self _ _) listed

theorem list_shown_append_ne (items : List Value) (scalar : w.items? = none)
    (plain : Text.quoteMark ∉ w.chars) : (list items).shown ++ rest ≠ w.shown ++ rest' := by
  intro same
  obtain ⟨c, s, written, other⟩ := exists_scalar_eq_cons scalar plain
  rw [written] at same
  cases List.head_eq_of_cons_eq same
  exact other List.mem_cons_self

theorem shownItems_append_ne (vs : List Value) (plain : Text.quoteMark ∉ v.chars) :
    shownItems (v :: vs) ++ rest ≠ ')' :: rest' := by
  intro same
  rw [shownItems_cons] at same
  cases items : v.items? with
  | some ws =>
    cases v <;> cases items
    cases List.head_eq_of_cons_eq same
  | none =>
    obtain ⟨c, s, written, other⟩ := exists_scalar_eq_cons items plain
    rw [written] at same
    cases List.head_eq_of_cons_eq same
    exact other (by decide)

theorem scalar_append_inj (scalar : v.items? = none) (scalar' : w.items? = none)
    (plain : Text.quoteMark ∉ v.chars) (plain' : Text.quoteMark ∉ w.chars)
    (closed : Closed rest) (closed' : Closed rest') (same : v.shown ++ rest = w.shown ++ rest') :
    v.shown = w.shown ∧ rest = rest' := by
  have apart {s t more more' : List Char} (bare : Bare t) (notEmpty : t ≠ []) :
      Text.quoted s ++ more ≠ t ++ more' := by
    obtain ⟨c, t, rfl⟩ := List.exists_cons_of_ne_nil notEmpty
    intro same
    cases List.head_eq_of_cons_eq same
    exact (Text.bare_cons.1 bare).1 (by decide)
  rcases shown_scalar scalar plain with ⟨s, written⟩ | ⟨bare, notEmpty⟩ <;>
    rcases shown_scalar scalar' plain' with ⟨t, written'⟩ | ⟨bare', notEmpty'⟩
  · rw [written, written'] at same ⊢
    obtain ⟨rfl, rfl⟩ := Text.quoted_append_inj closed closed' same
    exact ⟨rfl, rfl⟩
  · exact absurd (written ▸ same) (apart bare' notEmpty')
  · exact absurd (written' ▸ same).symm (apart bare notEmpty)
  · exact bare.append_inj bare' closed closed' same

mutual

theorem shown_append_inj (v w : Value) {rest rest' : List Char} (plain : Text.quoteMark ∉ v.chars)
    (plain' : Text.quoteMark ∉ w.chars) (closed : Closed rest) (closed' : Closed rest')
    (same : v.shown ++ rest = w.shown ++ rest') : v.shown = w.shown ∧ rest = rest' := by
  cases v with
  | list vs =>
    cases w with
    | list ws =>
      simp only [shown, List.cons_append, List.append_assoc, List.nil_append, List.cons.injEq,
        true_and] at same
      obtain ⟨items, rest⟩ := shownItems_append_inj vs ws plain plain' same
      exact ⟨by rw [shown, shown, shownItems_congr items], rest⟩
    | _ => exact absurd same (list_shown_append_ne vs rfl plain')
  | _ =>
    cases w with
    | list ws => exact absurd same.symm (list_shown_append_ne ws rfl plain)
    | _ => exact scalar_append_inj rfl rfl plain plain' closed closed' same

theorem shownItems_append_inj (vs ws : List Value) {rest rest' : List Char}
    (plain : Text.quoteMark ∉ itemChars vs) (plain' : Text.quoteMark ∉ itemChars ws)
    (same : shownItems vs ++ ')' :: rest = shownItems ws ++ ')' :: rest') :
    vs.map shown = ws.map shown ∧ rest = rest' := by
  match vs, ws with
  | [], [] => exact ⟨rfl, by simpa [shownItems] using same⟩
  | [], w :: ws => exact absurd same.symm (shownItems_append_ne ws (itemChars_cons.1 plain').1)
  | v :: vs, [] => exact absurd same (shownItems_append_ne vs (itemChars_cons.1 plain).1)
  | v :: vs, w :: ws =>
    obtain ⟨first, others⟩ := itemChars_cons.1 plain
    obtain ⟨first', others'⟩ := itemChars_cons.1 plain'
    rw [shownItems_cons, shownItems_cons, List.append_assoc, List.append_assoc] at same
    obtain ⟨head, more⟩ := shown_append_inj v w first first' (closed_moreShown vs rest)
      (closed_moreShown ws rest') same
    obtain ⟨tail, rest⟩ := moreShown_append_inj vs ws others others' more
    exact ⟨by rw [List.map_cons, List.map_cons, head, tail], rest⟩

theorem moreShown_append_inj (vs ws : List Value) {rest rest' : List Char}
    (plain : Text.quoteMark ∉ itemChars vs) (plain' : Text.quoteMark ∉ itemChars ws)
    (same : moreShown vs ++ ')' :: rest = moreShown ws ++ ')' :: rest') :
    vs.map shown = ws.map shown ∧ rest = rest' := by
  match vs, ws with
  | [], [] => exact ⟨rfl, by simpa [moreShown] using same⟩
  | [], w :: ws | v :: vs, [] => cases List.head_eq_of_cons_eq same
  | v :: vs, w :: ws =>
    obtain ⟨first, others⟩ := itemChars_cons.1 plain
    obtain ⟨first', others'⟩ := itemChars_cons.1 plain'
    simp only [moreShown, List.cons_append, List.append_assoc, List.cons.injEq, true_and] at same
    obtain ⟨head, more⟩ := shown_append_inj v w first first' (closed_moreShown vs rest)
      (closed_moreShown ws rest') same
    obtain ⟨tail, rest⟩ := moreShown_append_inj vs ws others others' more
    exact ⟨by rw [List.map_cons, List.map_cons, head, tail], rest⟩

end

end Criteria.Value
