/-
  Texts of lines, each closed by a separator, as they are appended to a file and cut off by a crash.

  What a cut leaves is whole lines and the start of one more (`take_encodeLines`). The length up to
  the last separator gives the whole lines back (`wholeLength_encodeLines_append`), and splitting at
  the separators gives the lines back (`splitOn_encodeLines`).
-/
import Mathlib

namespace CryptoIntelligence.Lib

open List

variable {α : Type} {separator : α}

/-- The lines one after the other, each closed by the separator. -/
def encodeLines (separator : α) (lines : List (List α)) : List α :=
  lines.flatMap (· ++ [separator])

/-- The length up to and with the last separator. -/
def wholeLength [BEq α] (separator : α) (text : List α) : Nat :=
  match text.reverse.findIdx? (· == separator) with
  | some i => text.length - i
  | none => 0

@[simp] theorem encodeLines_nil (separator : α) : encodeLines separator [] = [] := rfl

theorem encodeLines_cons (separator : α) (line : List α) (lines : List (List α)) :
    encodeLines separator (line :: lines) = line ++ separator :: encodeLines separator lines := by
  unfold encodeLines
  rw [flatMap_cons, append_assoc]
  rfl

theorem encodeLines_append (separator : α) (lines more : List (List α)) :
    encodeLines separator (lines ++ more) =
      encodeLines separator lines ++ encodeLines separator more := flatMap_append

theorem encodeLines_singleton (separator : α) (line : List α) :
    encodeLines separator [line] = line ++ [separator] := by
  rw [encodeLines_cons, encodeLines_nil]

theorem encodeLines_eq_nil_or (separator : α) (lines : List (List α)) :
    encodeLines separator lines = [] ∧ lines = [] ∨
      ∃ body, encodeLines separator lines = body ++ [separator] := by
  induction lines using List.reverseRecOn with
  | nil => exact .inl ⟨rfl, rfl⟩
  | append_singleton lines line =>
    refine .inr ⟨encodeLines separator lines ++ line, ?_⟩
    rw [encodeLines_append, encodeLines_singleton, append_assoc]

variable {lines : List (List α)}

/-- A cut text is whole lines and the start of one more. -/
theorem take_encodeLines (h : ∀ line ∈ lines, separator ∉ line) (n : Nat) :
    ∃ k tail, (encodeLines separator lines).take n = encodeLines separator (lines.take k) ++ tail ∧
      separator ∉ tail := by
  induction lines generalizing n with
  | nil => exact ⟨0, [], by simp, not_mem_nil⟩
  | cons line lines ih =>
    have hline := h line mem_cons_self
    rw [encodeLines_cons]
    by_cases hn : n ≤ line.length
    · refine ⟨0, line.take n, ?_, fun hmem => hline (mem_of_mem_take hmem)⟩
      rw [take_append_of_le_length hn]
      rfl
    · obtain ⟨m, rfl⟩ : ∃ m, n = line.length + (m + 1) := ⟨n - line.length - 1, by omega⟩
      obtain ⟨k, tail, htake, htail⟩ := ih (fun l hl => h l (mem_cons_of_mem _ hl)) m
      refine ⟨k + 1, tail, ?_, htail⟩
      rw [take_length_add_append, take_succ_cons, htake, take_succ_cons,
        encodeLines_cons]
      simp

/-- The text ends where a line ends exactly when no started line is left. -/
theorem getLast?_encodeLines_append {tail : List α} (h : separator ∉ tail) :
    (encodeLines separator lines ++ tail = [] ∨
      (encodeLines separator lines ++ tail).getLast? = some separator) ↔ tail = [] := by
  constructor
  · rintro (hnil | hlast)
    · exact (append_eq_nil_iff.mp hnil).2
    · by_contra htail
      rw [getLast?_append_of_ne_nil _ htail] at hlast
      exact h (mem_of_getLast? hlast)
  · rintro rfl
    rw [append_nil]
    rcases encodeLines_eq_nil_or separator lines with ⟨hnil, -⟩ | ⟨body, hbody⟩
    · exact .inl hnil
    · exact .inr (by rw [hbody, getLast?_concat])

variable [DecidableEq α]

theorem splitOn_encodeLines (h : ∀ line ∈ lines, separator ∉ line) :
    (encodeLines separator lines).splitOn separator = lines ++ [[]] := by
  induction lines with
  | nil => rfl
  | cons line lines ih =>
    have hline : ∀ x ∈ line, (x == separator) = false := by
      intro x hx
      rw [beq_eq_false_iff_ne]
      rintro rfl
      exact h line mem_cons_self hx
    rw [encodeLines_cons, List.splitOn,
      splitOnP_append_cons_of_forall_mem hline _ (beq_self_eq_true _),
      ← List.splitOn, ih fun l hl => h l (mem_cons_of_mem _ hl)]
    rfl

theorem findIdx?_reverse_of_not_mem {text : List α} (h : separator ∉ text) :
    text.reverse.findIdx? (· == separator) = none := by
  rw [findIdx?_eq_none_iff]
  intro x hx
  rw [beq_eq_false_iff_ne]
  rintro rfl
  exact h (mem_reverse.mp hx)

/-- Behind whole lines and the start of one more, the last separator closes the whole lines. -/
theorem wholeLength_encodeLines_append {tail : List α} (h : separator ∉ tail) :
    wholeLength separator (encodeLines separator lines ++ tail) =
      (encodeLines separator lines).length := by
  unfold wholeLength
  rw [reverse_append, findIdx?_append, findIdx?_reverse_of_not_mem h, Option.none_or]
  rcases encodeLines_eq_nil_or separator lines with ⟨hnil, -⟩ | ⟨body, hbody⟩
  · rw [hnil]
    rfl
  · rw [hbody, reverse_append, reverse_singleton, singleton_append,
      findIdx?_cons, if_pos (beq_self_eq_true _)]
    simp only [Option.map_some, length_append, length_reverse]
    omega

end CryptoIntelligence.Lib
