set_option autoImplicit false

namespace Criteria.Text

def segments (path : String) : List String :=
  (path.toList.splitOn '.').map String.ofList

def dotted (names : List String) : String :=
  String.ofList (['.'].intercalate (names.map String.toList))

theorem dotted_segments (path : String) : dotted (segments path) = path := by
  have h : String.toList ∘ String.ofList = id := funext fun _ => String.toList_ofList
  simp [dotted, segments, h, List.intercalate_splitOn]

theorem segments_dotted {names : List String} (h : ∀ name ∈ names, '.' ∉ name.toList)
    (hne : names ≠ []) : segments (dotted names) = names := by
  have h' : String.ofList ∘ String.toList = id := funext fun _ => String.ofList_toList
  rw [segments, dotted, String.toList_ofList, List.splitOn_intercalate]
  · simp [h']
  · simpa using h
  · simpa using hne

end Criteria.Text
