import Rulebook.Text.Lines

/-!
# The lines of joined texts

A text whose last character neither ends a line nor could be taken for a part of a line's end can be followed by a
newline and another text: the lines are then those of the two. This module provides:

* `Text.EndsWell` — such a text;
* `Text.lines_intercalate` — the lines of texts that are joined by newlines; and
* `Text.length_lines` and `Text.lines_of_not_mem` — the number of lines, and the line of a text without a newline.
-/

namespace Rulebook

namespace Text

/-- The last one of the characters is part of their last line, whatever follows. -/
def EndsWell (chars : List Char) : Prop :=
  ∃ c, chars.getLast? = some c ∧ c ≠ '\n' ∧ c ≠ '\r'

section

variable {reversed chars rest : List Char} {c : Char} {text : String} {texts : List String}

theorem EndsWell.append (chars : List Char) (h : EndsWell rest) : EndsWell (chars ++ rest) := by
  obtain ⟨c, hlast, hplain⟩ := h
  exact ⟨c, by rw [List.getLast?_append, hlast]; rfl, hplain⟩

/-- Behind a newline, the characters end as they did with it. -/
theorem EndsWell.after_newline (h : EndsWell (reversed ++ '\n' :: chars)) : EndsWell chars := by
  obtain ⟨c, hlast, hline, hreturn⟩ := h
  rw [List.getLast?_append] at hlast
  cases chars with
  | nil => exact absurd (Option.some.inj hlast).symm hline
  | cons d chars => exact ⟨c, by simpa [List.getLast?_cons] using hlast, hline, hreturn⟩

theorem linesFrom_of_endsWell (h : EndsWell reversed.reverse) :
    linesFrom reversed [] = [(dropReturn reversed).reverse] := by
  obtain ⟨c, hlast, -, hreturn⟩ := h
  rw [List.getLast?_reverse] at hlast
  obtain ⟨others, rfl⟩ := List.head?_eq_some_iff.1 hlast
  rw [linesFrom, dropReturn]
  · rfl
  · exact fun _ heq => hreturn (List.cons.inj heq).1

/-- The lines of what ends well and of what follows a newline behind it. -/
theorem linesFrom_newline (h : EndsWell (reversed.reverse ++ chars)) (rest : List Char) :
    linesFrom reversed (chars ++ '\n' :: rest) = linesFrom reversed chars ++ linesFrom [] rest := by
  induction chars generalizing reversed with
  | nil =>
      rw [List.append_nil] at h
      rw [linesFrom_of_endsWell h, List.nil_append, linesFrom, if_pos rfl]
      rfl
  | cons c chars ih =>
      rw [List.cons_append, linesFrom, linesFrom]
      split
      · next hc =>
          subst hc
          rw [ih (by simpa using h.after_newline), List.cons_append]
      · exact ih (by simpa using h)

theorem length_linesFrom (h : EndsWell (reversed.reverse ++ chars)) :
    (linesFrom reversed chars).length = chars.count '\n' + 1 := by
  induction chars generalizing reversed with
  | nil =>
      rw [List.append_nil] at h
      rw [linesFrom_of_endsWell h]
      rfl
  | cons c chars ih =>
      rw [linesFrom]
      split
      · next hc =>
          subst hc
          rw [List.length_cons, ih (by simpa using h.after_newline), List.count_cons_self]
      · next hc =>
          rw [ih (by simpa using h), List.count_cons_of_ne hc]

theorem linesFrom_of_not_mem (hne : reversed ≠ [] ∨ chars ≠ []) (h : '\n' ∉ chars) :
    linesFrom reversed chars = [reversed.reverse ++ chars] := by
  induction chars generalizing reversed with
  | nil =>
      have hreversed : reversed ≠ [] := hne.resolve_right fun hnil => hnil rfl
      simp [linesFrom, hreversed]
  | cons c chars ih =>
      rw [List.mem_cons, not_or] at h
      rw [linesFrom, if_neg (Ne.symm h.1), ih (.inl (List.cons_ne_nil _ _)) h.2]
      simp

/-! ### Texts -/

theorem lines_newline (h : EndsWell text.toList) (rest : String) :
    lines (text ++ "\n" ++ rest) = lines text ++ lines rest := by
  have hline : "\n".toList = ['\n'] := rfl
  rw [lines, String.toList_append, String.toList_append, hline, List.append_assoc, List.singleton_append,
    linesFrom_newline (by simpa using h), List.map_append]
  rfl

/-- Texts that are joined by newlines keep their lines. -/
theorem lines_intercalate (h : ∀ text ∈ texts, EndsWell text.toList) :
    lines ("\n".intercalate texts) = texts.flatMap lines := by
  induction texts with
  | nil => rfl
  | cons text texts ih =>
      obtain ⟨htext, htexts⟩ := List.forall_mem_cons.1 h
      cases texts with
      | nil => simp
      | cons next texts =>
          rw [String.intercalate_cons_cons, lines_newline htext, ih htexts]
          rfl

theorem length_lines (h : EndsWell text.toList) : (lines text).length = text.toList.count '\n' + 1 := by
  rw [lines, List.length_map, length_linesFrom (by simpa using h)]

theorem lines_of_not_mem (hne : text ≠ "") (h : '\n' ∉ text.toList) : lines text = [text] := by
  have hchars : text.toList ≠ [] := fun hnil => hne (String.toList_inj.1 hnil)
  rw [lines, linesFrom_of_not_mem (.inr hchars) h]
  simp

end

end Text

end Rulebook
