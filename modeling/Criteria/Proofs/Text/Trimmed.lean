import Criteria.Proofs.Number.Digits
import Mathlib.Data.List.DropRight

set_option autoImplicit false

namespace Criteria.Text

variable {s bare before after : List Char}

def Trimmed (s : List Char) : Prop :=
  (∀ c ∈ s.head?, isBlank c = false) ∧ ∀ c ∈ s.getLast?, isBlank c = false

structure Trims (s bare : List Char) : Prop where
  trimmed : Trimmed bare
  around : ∃ before after,
    allBlank before = true ∧ allBlank after = true ∧ s = before ++ bare ++ after

theorem head?_skipBlanks (s : List Char) : ∀ c ∈ (skipBlanks s).head?, isBlank c = false := by
  intro c first
  have shown := List.head?_dropWhile_not isBlank s
  rwa [← skipBlanks, Option.mem_def.1 first] at shown

theorem trimmed_trim (s : List Char) : Trimmed (trim s) := by
  constructor
  · intro c first
    obtain ⟨after, whole⟩ : trim s <+: skipBlanks s :=
      List.rdropWhile_prefix isBlank (skipBlanks s)
    refine head?_skipBlanks s c ?_
    rw [← whole, List.head?_append, Option.mem_def.1 first]
    rfl
  · rw [trim, List.getLast?_reverse]
    exact head?_skipBlanks _

theorem trims_trim (s : List Char) : Trims s (trim s) where
  trimmed := trimmed_trim s
  around := by
    refine ⟨s.takeWhile isBlank, (skipBlanks s).rtakeWhile isBlank, ?_, ?_, ?_⟩
    · exact List.all_takeWhile
    · exact List.all_eq_true.2 fun c => List.mem_rtakeWhile_imp
    · have shown : trim s ++ (skipBlanks s).rtakeWhile isBlank = skipBlanks s :=
        List.rdropWhile_append_rtakeWhile
      rw [List.append_assoc, shown]
      exact List.takeWhile_append_dropWhile.symm

theorem skipBlanks_append (blank : allBlank before = true) (s : List Char) :
    skipBlanks (before ++ s) = skipBlanks s :=
  List.dropWhile_append_of_pos (List.all_eq_true.1 blank)

theorem trim_around (blank : allBlank before = true) (blank' : allBlank after = true)
    (trimmed : Trimmed bare) : trim (before ++ bare ++ after) = bare := by
  rw [trim, List.append_assoc, skipBlanks_append blank]
  cases bare with
  | nil =>
    rw [List.nil_append, skipBlanks_eq_nil_iff.2 blank']
    rfl
  | cons c rest =>
    have begins : skipBlanks (c :: rest ++ after) = c :: rest ++ after :=
      skipBlanks_of_head trimmed.1
    have ends : skipBlanks (c :: rest).reverse = (c :: rest).reverse := by
      apply skipBlanks_of_head
      rw [List.head?_reverse]
      exact trimmed.2
    have reversed : allBlank after.reverse = true := by rwa [allBlank, List.all_reverse]
    rw [begins, List.reverse_append, skipBlanks_append reversed, ends, List.reverse_reverse]

theorem trim_eq_iff : trim s = bare ↔ Trims s bare := by
  constructor
  · rintro rfl
    exact trims_trim s
  · rintro ⟨trimmed, before, after, blank, blank', rfl⟩
    exact trim_around blank blank' trimmed

@[simp] theorem trim_trim (s : List Char) : trim (trim s) = trim s :=
  trim_eq_iff.2 ⟨trimmed_trim s, [], [], rfl, rfl, (List.append_nil _).symm⟩

end Criteria.Text
