import Criteria.Proofs.Text.Trimmed
import Criteria.Value.TypeKey
import Mathlib.Data.List.Nodup

set_option autoImplicit false

namespace Criteria.TypeKey

variable {s t : String} {key : TypeKey}

theorem mem_builtin_iff : key ∈ builtin ↔ key.isCustom = false := by
  cases key with
  | int width => cases width <;> decide
  | float precision => cases precision <;> decide
  | custom name => simp [builtin, isCustom]
  | _ => decide

theorem builtin_of_mem_spellings : ∀ entry ∈ spellings, entry.2 ∈ builtin := by
  decide

theorem nodup_spellings : (spellings.map Prod.fst).Nodup := by
  decide

theorem lookup_spellings_eq_some_iff {word : String} :
    spellings.lookup word = some key ↔ (word, key) ∈ spellings := by
  have listed {key : TypeKey} (found : spellings.lookup word = some key) :
      (word, key) ∈ spellings := by
    obtain ⟨before, after, split, -⟩ := List.lookup_eq_some_iff.1 found
    rw [split]
    exact List.mem_append_right before List.mem_cons_self
  refine ⟨listed, fun member => ?_⟩
  cases found : spellings.lookup word with
  | none =>
    have differs : (word != word) = true := List.lookup_eq_none_iff.1 found _ member
    simp at differs
  | some other =>
    have same := List.inj_on_of_nodup_map nodup_spellings (listed found) member rfl
    rw [(Prod.mk.inj same).2]

def bareName (s : String) : String :=
  String.ofList (Text.trim s.toList)

theorem bareName_eq_iff {name : String} :
    bareName s = name ↔ Text.Trims s.toList name.toList := by
  rw [← Text.trim_eq_iff, bareName, ← String.toList_inj, String.toList_ofList]

theorem bareName_eq_bareName_iff : bareName s = bareName t ↔
    ∃ name : String, Text.Trims s.toList name.toList ∧ Text.Trims t.toList name.toList := by
  simp only [← bareName_eq_iff]
  exact ⟨fun same => ⟨_, rfl, same.symm⟩, fun ⟨_, own, own'⟩ => own.trans own'.symm⟩

def Spells (s : String) (key : TypeKey) : Prop :=
  ∃ bare, Text.Trims s.toList bare ∧ (String.ofList (bare.map Char.toLower), key) ∈ spellings

theorem spells_iff : Spells s key ↔
    spellings.lookup (String.ofList (Text.lower (Text.trim s.toList))) = some key := by
  simp only [Spells, ← Text.trim_eq_iff, exists_eq_left', lookup_spellings_eq_some_iff, Text.lower]

theorem Spells.builtin (spells : Spells s key) : key ∈ builtin := by
  obtain ⟨bare, -, listed⟩ := spells
  exact builtin_of_mem_spellings _ listed

theorem Spells.ofName_eq (spells : Spells s key) : ofName s = key := by
  simp only [ofName, spells_iff.1 spells]

theorem ofName_of_not_spells (unlisted : ¬∃ key, Spells s key) :
    ofName s = custom (bareName s) := by
  cases found : spellings.lookup (String.ofList (Text.lower (Text.trim s.toList))) with
  | none => simp only [ofName, bareName, found]
  | some key => exact absurd ⟨key, spells_iff.2 found⟩ unlisted

theorem ofName_mem_builtin_iff : ofName s ∈ builtin ↔ ∃ key, Spells s key := by
  constructor
  · intro member
    by_contra unlisted
    rw [ofName_of_not_spells unlisted, mem_builtin_iff] at member
    cases member
  · rintro ⟨key, spells⟩
    rw [spells.ofName_eq]
    exact spells.builtin

theorem spells_ofName (member : ofName s ∈ builtin) : Spells s (ofName s) := by
  obtain ⟨key, spells⟩ := ofName_mem_builtin_iff.1 member
  rwa [spells.ofName_eq]

theorem ofName_of_not_mem_builtin (other : ofName s ∉ builtin) :
    ofName s = custom (bareName s) :=
  ofName_of_not_spells (mt ofName_mem_builtin_iff.2 other)

theorem ofName_bareName (s : String) : ofName (bareName s) = ofName s := by
  simp only [ofName, bareName, String.toList_ofList, Text.trim_trim]

theorem ofName_name_of_builtin : ∀ key ∈ builtin, ofName key.name = key := by
  decide

theorem ofName_name_ofName (s : String) : ofName (ofName s).name = ofName s := by
  by_cases member : ofName s ∈ builtin
  · exact ofName_name_of_builtin _ member
  · have own := ofName_of_not_mem_builtin member
    calc ofName (ofName s).name
      _ = ofName (bareName s) := by rw [own, name]
      _ = ofName s := ofName_bareName s

theorem ofName_eq_ofName_iff : ofName s = ofName t ↔
    (∃ key, Spells s key ∧ Spells t key) ∨ bareName s = bareName t := by
  constructor
  · intro same
    by_cases member : ofName s ∈ builtin
    · have member' : ofName t ∈ builtin := by rwa [← same]
      have spells' : Spells t (ofName s) := by
        rw [same]
        exact spells_ofName member'
      exact .inl ⟨ofName s, spells_ofName member, spells'⟩
    · have member' : ofName t ∉ builtin := by rwa [← same]
      rw [ofName_of_not_mem_builtin member, ofName_of_not_mem_builtin member'] at same
      exact .inr (custom.inj same)
  · rintro (⟨key, spells, spells'⟩ | bare)
    · rw [spells.ofName_eq, spells'.ofName_eq]
    · rw [← ofName_bareName s, bare, ofName_bareName]

/-- A name stands for the built-in type that it spells or, if it spells none, for the custom type of
that name without the blanks around it, and so does the name of that type. Two names stand for one
type exactly if they spell the same built-in type or differ in those blanks alone. -/
theorem ofName_canonical (s : String) :
    ofName (ofName s).name = ofName s ∧
      (ofName s ∈ builtin ↔ ∃ key, Spells s key) ∧
      (∀ key, Spells s key → ofName s = key) ∧
      (ofName s ∉ builtin →
        ∃ name, Text.Trims s.toList name.toList ∧ ofName s = custom name) ∧
      ∀ t, ofName s = ofName t ↔ (∃ key, Spells s key ∧ Spells t key) ∨
        ∃ name : String, Text.Trims s.toList name.toList ∧ Text.Trims t.toList name.toList := by
  refine ⟨ofName_name_ofName s, ofName_mem_builtin_iff, fun key spells => spells.ofName_eq,
    fun other => ?_, fun t => ?_⟩
  · exact ⟨bareName s, bareName_eq_iff.1 rfl, ofName_of_not_mem_builtin other⟩
  · rw [← bareName_eq_bareName_iff]
    exact ofName_eq_ofName_iff

example : ofName "\u2003BigDecimal\n" = decimal ∧ ofName " Money " = custom "Money" := by
  decide

end Criteria.TypeKey
