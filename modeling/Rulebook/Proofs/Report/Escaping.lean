import Mathlib.Tactic.FinCases
import Rulebook.Proofs.Report.Markdown

/-!
# Messages in a cell

What is put into a message for one character can hold another one that is replaced too: an entity starts with an
ampersand, and a line break stands between angle brackets. Nothing is lost all the same, whatever the message holds
already. This module provides:

* `Report.replacements` — the five characters in the order in which they are replaced, each everywhere, and that this
  comes to replacing each character of the message once, since none is put in that is still to be replaced
  (`Report.foldl_replaceChar`);
* `Report.StemsFrom` — a character of the escaped message is there only for some character of the message; and
* `Report.uncell` — the message that was escaped.

The main statement is `Report.cell_lossless`.
-/

namespace Rulebook

namespace Report

/-! ### Replacing one character after the other -/

/-- The text with another one for each occurrence of a character. -/
def replaceChar (c : Char) (image text : String) : String :=
  String.ofList (text.toList.flatMap fun d => if d = c then image.toList else [d])

/-- What is replaced in a message, one after the other. -/
def replacements : List (Char × String) :=
  [('&', "&amp;"), ('<', "&lt;"), ('>', "&gt;"), ('|', "\\|"), ('\n', "<br />")]

theorem cellChar_of_mem {pair : Char × String} (h : pair ∈ replacements) : cellChar pair.1 = pair.2.toList := by
  fin_cases h <;> rfl

theorem cellChar_of_not_mem {c : Char} (h : c ∉ replacements.map Prod.fst) : cellChar c = [c] := by
  simp only [replacements, List.map_cons, List.map_nil, List.mem_cons, List.not_mem_nil, or_false, not_or] at h
  obtain ⟨hand, hless, hgreater, hpipe, hline⟩ := h
  rw [cellChar, if_neg hand, if_neg hless, if_neg hgreater, if_neg hpipe, if_neg hline]

/-- A property of characters that are replaced and of those that are not. -/
theorem char_cases {motive : Char → Prop} (replaced : ∀ pair ∈ replacements, motive pair.1)
    (kept : ∀ c, c ∉ replacements.map Prod.fst → cellChar c = [c] → motive c) (c : Char) : motive c := by
  by_cases h : c ∈ replacements.map Prod.fst
  · obtain ⟨pair, hpair, rfl⟩ := List.mem_map.1 h
    exact replaced pair hpair
  · exact kept c h (cellChar_of_not_mem h)

/-- What a character becomes when each of the pairs replaces one character. -/
def image (pairs : List (Char × String)) (c : Char) : List Char :=
  match pairs.lookup c with
  | some text => text.toList
  | none => [c]

theorem image_cons (c : Char) (text : String) (pairs : List (Char × String)) (d : Char) :
    image ((c, text) :: pairs) d = if d = c then text.toList else image pairs d := by
  rw [image, List.lookup_cons]
  by_cases h : d = c
  · simp [h]
  · rw [beq_false_of_ne h, if_neg h]
    rfl

theorem image_of_not_mem {pairs : List (Char × String)} {c : Char} (h : c ∉ pairs.map Prod.fst) :
    image pairs c = [c] := by
  induction pairs with
  | nil => rfl
  | cons pair pairs ih =>
      rw [List.map_cons, List.mem_cons, not_or] at h
      rw [image_cons, if_neg h.1, ih h.2]

/-- Replacing one character after the other is replacing each once, if what is put in for one holds none of those that
are replaced later. -/
theorem foldl_replaceChar {pairs : List (Char × String)}
    (h : pairs.Pairwise fun pair later => later.1 ∉ pair.2.toList) (text : String) :
    pairs.foldl (fun text pair => replaceChar pair.1 pair.2 text) text =
      String.ofList (text.toList.flatMap (image pairs)) := by
  induction pairs generalizing text with
  | nil =>
      have hkept : image [] = fun c => [c] := rfl
      rw [List.foldl_nil, hkept, List.flatMap_singleton', String.ofList_toList]
  | cons pair pairs ih =>
      obtain ⟨hlater, hpairs⟩ := List.pairwise_cons.1 h
      have hput : pair.2.toList.flatMap (image pairs) = pair.2.toList := by
        have hchar : ∀ c ∈ pair.2.toList, image pairs c = [c] := by
          intro c hc
          refine image_of_not_mem fun hkey => ?_
          obtain ⟨later, hmem, rfl⟩ := List.mem_map.1 hkey
          exact hlater later hmem hc
        rw [List.flatMap_congr hchar, List.flatMap_singleton']
      rw [List.foldl_cons, ih hpairs, replaceChar, String.toList_ofList, List.flatMap_assoc]
      refine congrArg String.ofList (List.flatMap_congr fun c _ => ?_)
      rw [image_cons]
      split
      · exact hput
      · exact List.flatMap_singleton _ _

theorem cell_eq_foldl (message : String) :
    cell message = replacements.foldl (fun text pair => replaceChar pair.1 pair.2 text) message := by
  rw [foldl_replaceChar (by decide), cell]
  refine congrArg String.ofList (List.flatMap_congr fun c _ => ?_)
  cases c using char_cases with
  | replaced pair hpair => fin_cases hpair <;> rfl
  | kept c hc hkept => rw [hkept, image_of_not_mem hc]

/-! ### Where the characters of a cell come from -/

section

variable {message before after left right : List Char} {c mark source : Char}

/-- A character of the escaped characters stands in what one of the characters was replaced with. -/
theorem exists_split_of_flatMap (h : message.flatMap cellChar = before ++ mark :: after) :
    ∃ first c rest left right, message = first ++ c :: rest ∧ cellChar c = left ++ mark :: right ∧
      before = first.flatMap cellChar ++ left ∧ after = right ++ rest.flatMap cellChar := by
  induction message generalizing before with
  | nil => simp at h
  | cons c message ih =>
      rw [List.flatMap_cons] at h
      rcases List.append_eq_append_iff.1 h with ⟨more, hbefore, hmore⟩ | ⟨more, hchar, hmore⟩
      · obtain ⟨first, d, rest, left, right, rfl, hd, rfl, hafter⟩ := ih hmore
        exact ⟨c :: first, d, rest, left, right, rfl, hd, by rw [hbefore, List.flatMap_cons, List.append_assoc], hafter⟩
      · cases more with
        | nil =>
            -- The character is the first one of what follows.
            obtain ⟨first, d, rest, left, right, rfl, hd, hnil, hafter⟩ := @ih [] hmore.symm
            obtain ⟨hfirst, rfl⟩ := List.append_eq_nil_iff.1 hnil.symm
            refine ⟨c :: first, d, rest, [], right, rfl, hd, ?_, hafter⟩
            rw [List.flatMap_cons, hfirst, hchar, List.append_nil, List.append_nil, List.append_nil]
        | cons d more =>
            obtain ⟨rfl, rfl⟩ := List.cons.inj hmore
            exact ⟨[], c, message, before, more, rfl, hchar, rfl, rfl⟩

/-- A character of the escaped message is there only for some character of the message: with what stands around it, it
takes that one's place. -/
def StemsFrom (message mark source left right : String) : Prop :=
  ∀ before after, cell message = before ++ mark ++ after → ∃ first rest, message = first ++ source ++ rest ∧
    before = cell first ++ left ∧ after = right ++ cell rest

theorem stemsFrom_of_cellChar (honly : ∀ c, mark ∈ cellChar c → c = source)
    (hsource : cellChar source = left ++ mark :: right) (hleft : mark ∉ left) (hright : mark ∉ right)
    (message : String) :
    StemsFrom message (String.ofList [mark]) (String.ofList [source]) (String.ofList left) (String.ofList right) := by
  intro before after h
  have hchars : message.toList.flatMap cellChar = before.toList ++ mark :: after.toList := by
    simpa [cell] using congrArg String.toList h
  obtain ⟨first, c, rest, inner, outer, hmessage, hc, hbefore, hafter⟩ := exists_split_of_flatMap hchars
  obtain rfl := honly c (hc ▸ List.mem_append_right _ List.mem_cons_self)
  obtain ⟨rfl, -, rfl⟩ := (List.append_cons_inj_of_notMem hleft hright).1 (hsource.symm.trans hc)
  refine ⟨String.ofList first, String.ofList rest, ?_, ?_, ?_⟩ <;> apply String.toList_inj.1
  · simpa using hmessage
  · simpa [cell] using hbefore
  · simpa [cell] using hafter

end

/-- A pipe is put in for a pipe only, and an angle bracket for a newline only. -/
theorem eq_of_mem_cellChar {mark source c : Char}
    (h : (mark, source) ∈ [('|', '|'), ('<', '\n'), ('>', '\n')]) (hmark : mark ∈ cellChar c) : c = source := by
  cases c using char_cases with
  | replaced pair hpair =>
      rw [cellChar_of_mem hpair] at hmark
      revert hmark
      fin_cases h <;> fin_cases hpair <;> decide
  | kept c hc hkept =>
      rw [hkept, List.mem_singleton] at hmark
      subst hmark
      revert hc
      fin_cases h <;> decide

/-! ### Reading a cell -/

/-- The characters that were escaped. -/
def uncellChars : List Char → List Char
  | '&' :: 'a' :: 'm' :: 'p' :: ';' :: rest => '&' :: uncellChars rest
  | '&' :: 'l' :: 't' :: ';' :: rest => '<' :: uncellChars rest
  | '&' :: 'g' :: 't' :: ';' :: rest => '>' :: uncellChars rest
  | '\\' :: '|' :: rest => '|' :: uncellChars rest
  | '<' :: 'b' :: 'r' :: ' ' :: '/' :: '>' :: rest => '\n' :: uncellChars rest
  | c :: rest => c :: uncellChars rest
  | [] => []

/-- The message that was escaped. -/
def uncell (text : String) : String :=
  String.ofList (uncellChars text.toList)

theorem uncellChars_cons {c : Char} {rest : List Char} (hand : c ≠ '&') (hless : c ≠ '<')
    (hpipe : rest.head? ≠ some '|') : uncellChars (c :: rest) = c :: uncellChars rest := by
  rw [uncellChars]
  · rintro _ rfl
    exact absurd rfl hand
  · rintro _ rfl
    exact absurd rfl hand
  · rintro _ rfl
    exact absurd rfl hand
  · rintro _ rfl rfl
    exact absurd rfl hpipe
  · rintro _ rfl
    exact absurd rfl hless

/-- Escaped characters do not start with a pipe: a backslash of the message is never taken for that of a pipe. -/
theorem head?_flatMap_cellChar_ne (message : List Char) : (message.flatMap cellChar).head? ≠ some '|' := by
  cases message with
  | nil => simp
  | cons c message =>
      rw [List.flatMap_cons]
      cases c using char_cases with
      | replaced pair hpair => fin_cases hpair <;> exact fun h => absurd (Option.some.inj h) (by decide)
      | kept c hc hkept =>
          rw [hkept]
          rintro h
          obtain rfl := Option.some.inj h
          exact hc (by decide)

theorem uncellChars_flatMap (message : List Char) : uncellChars (message.flatMap cellChar) = message := by
  induction message with
  | nil => rfl
  | cons c message ih =>
      rw [List.flatMap_cons]
      cases c using char_cases with
      | replaced pair hpair => fin_cases hpair <;> exact congrArg (_ :: ·) ih
      | kept c hc hkept =>
          have hand : c ≠ '&' := fun h => hc (h ▸ by decide)
          have hless : c ≠ '<' := fun h => hc (h ▸ by decide)
          rw [hkept, List.singleton_append, uncellChars_cons hand hless (head?_flatMap_cellChar_ne message), ih]

theorem uncell_cell (message : String) : uncell (cell message) = message := by
  rw [uncell, cell, String.toList_ofList, uncellChars_flatMap, String.ofList_toList]

/-- A message is escaped by five replacements, one after the other. What they give is one line; each pipe in it is
behind a backslash that was put in for a pipe, and each angle bracket is that of a line break that was put in for a
newline. The message can be read off it, so no other message gives the same. -/
theorem cell_lossless (message : String) :
    cell message = replacements.foldl (fun text pair => replaceChar pair.1 pair.2 text) message ∧
      '\n' ∉ (cell message).toList ∧
        StemsFrom message "|" "|" "\\" "" ∧
          StemsFrom message "<" "\n" "" "br />" ∧
            StemsFrom message ">" "\n" "<br /" "" ∧
              uncell (cell message) = message ∧
                ∀ other, cell other = cell message → other = message := by
  refine ⟨cell_eq_foldl message, newline_not_mem_cell message, ?_, ?_, ?_, uncell_cell message, ?_⟩
  · exact stemsFrom_of_cellChar (fun c => eq_of_mem_cellChar (by decide)) rfl (by decide) (by decide) message
  · exact stemsFrom_of_cellChar (fun c => eq_of_mem_cellChar (by decide)) rfl (by decide) (by decide) message
  · exact stemsFrom_of_cellChar (fun c => eq_of_mem_cellChar (by decide)) rfl (by decide) (by decide) message
  · intro other h
    rw [← uncell_cell other, h, uncell_cell]

end Report

end Rulebook
