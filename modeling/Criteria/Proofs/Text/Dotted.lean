import Criteria.Text.Dotted

set_option autoImplicit false

namespace Criteria.Text

theorem not_mem_of_mem_splitOn (chars : List Char) : ∀ run ∈ chars.splitOn '.', '.' ∉ run := by
  induction chars with
  | nil => simp [List.splitOn_nil]
  | cons c chars ih =>
    rw [List.splitOn_cons_eq_if_modifyHead]
    split
    · exact List.forall_mem_cons.2 ⟨List.not_mem_nil, ih⟩
    · next other =>
      obtain ⟨first, runs, split⟩ := List.exists_cons_of_ne_nil (List.splitOn_ne_nil '.' chars)
      rw [split, List.forall_mem_cons] at ih
      rw [split, List.modifyHead_cons, List.forall_mem_cons]
      have distinct : c ≠ '.' := by simpa using other
      exact ⟨by simpa [distinct.symm] using ih.1, ih.2⟩

theorem not_mem_of_mem_segments {path name : String} (listed : name ∈ segments path) :
    '.' ∉ name.toList := by
  obtain ⟨run, among, rfl⟩ := List.mem_map.1 listed
  rw [String.toList_ofList]
  exact not_mem_of_mem_splitOn _ run among

theorem segments_of_not_mem {name : String} (plain : '.' ∉ name.toList) :
    segments name = [name] := by
  have single : dotted [name] = name := by simp [dotted]
  have alone : segments (dotted [name]) = [name] :=
    segments_dotted (by simpa using plain) (List.cons_ne_nil _ _)
  rwa [single] at alone

theorem dotted_cons_of_ne_nil (name : String) {names : List String} (more : names ≠ []) :
    dotted (name :: names) = name ++ "." ++ dotted names := by
  have more' : names.map String.toList ≠ [] := by simpa using more
  simp [dotted, List.intercalate_cons_of_ne_nil more', String.append_assoc]

theorem dotted_append {names more : List String} (first : names ≠ []) (second : more ≠ []) :
    dotted (names ++ more) = dotted names ++ "." ++ dotted more := by
  induction names with
  | nil => exact absurd rfl first
  | cons name names ih =>
    by_cases last : names = []
    · subst last
      rw [List.singleton_append, dotted_cons_of_ne_nil name second]
      simp [dotted]
    · have behind : names ++ more ≠ [] := List.append_ne_nil_of_left_ne_nil last more
      rw [List.cons_append, dotted_cons_of_ne_nil name behind, ih last,
        dotted_cons_of_ne_nil name last]
      simp only [String.append_assoc]

theorem segments_ne_nil (path : String) : segments path ≠ [] := by
  simp [segments, List.splitOn_ne_nil]

theorem dotted_flatMap_segments (names : List String) :
    dotted (names.flatMap segments) = dotted names := by
  induction names with
  | nil => rfl
  | cons name names ih =>
    rw [List.flatMap_cons]
    by_cases last : names = []
    · subst last
      simpa [dotted] using dotted_segments name
    · have behind : names.flatMap segments ≠ [] := by
        obtain ⟨next, names, rfl⟩ := List.exists_cons_of_ne_nil last
        simp [segments_ne_nil]
      rw [dotted_append (segments_ne_nil name) behind, dotted_segments, ih,
        dotted_cons_of_ne_nil name last]

theorem segments_append_dot (path : String) {name : String} (plain : '.' ∉ name.toList) :
    segments (path ++ "." ++ name) = segments path ++ [name] := by
  have whole : dotted (segments path ++ [name]) = path ++ "." ++ name := by
    rw [dotted_append (segments_ne_nil path) (List.cons_ne_nil _ _), dotted_segments]
    simp [dotted]
  rw [← whole, segments_dotted _ (by simp)]
  intro other listed
  rcases List.mem_append.1 listed with before | last
  · exact not_mem_of_mem_segments before
  · rwa [List.mem_singleton.1 last]

end Criteria.Text
