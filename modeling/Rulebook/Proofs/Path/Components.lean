import Rulebook.Proofs.Path

/-!
# The components of a path

Two paths are the same path if they have the same components, however they are spelled. These are the names in the path,
and before them the root of an absolute path or the dot that a relative path starts with. This module provides:

* `Path.components` — the components of a path, and `Path.names_eq_filter`, the names among them;
* `Path.components_parent` and `Path.components_of_parent?_eq_none` — the parent is the path without its last component,
  and only the root and the empty path have none;
* `Path.outer?` and `Path.getElem?_ancestors` — the paths around a path are found by taking the parent again and again;
  the bound on their number is never felt; and
* `Path.exists_outermost` — that ends, at the root or at the empty path.
-/

namespace Rulebook

namespace Path

/-- What stands before the names: the root, or a dot that the path starts with. -/
def leadIn (chars : List Char) : List String :=
  if chars.head? = some '/' then ["/"] else if chars.takeWhile (· ≠ '/') = ['.'] then ["."] else []

/-- The components in the characters of a path. -/
def componentsIn (chars : List Char) : List String :=
  leadIn chars ++ namesIn chars

/-- The components of a path. -/
def components (p : Path) : List String :=
  componentsIn p.text.toList

example : components ⟨"./a//b/./../c/"⟩ = [".", "a", "b", "..", "c"] := by decide +kernel
example : components ⟨"/./a"⟩ = ["/", "a"] := by decide +kernel

/-- What a path starts with is known from what stands before a slash. -/
theorem leadIn_append {chars : List Char} (hne : chars ≠ []) (more : List Char) :
    leadIn (chars ++ '/' :: more) = leadIn chars := by
  have hfirst : (chars ++ '/' :: more).takeWhile (· ≠ '/') = chars.takeWhile (· ≠ '/') := by
    simpa [List.takeWhile_append] using fun h => ((List.takeWhile_prefix _).eq_of_length h).symm
  rw [leadIn, leadIn, List.head?_append_of_ne_nil _ hne, hfirst]

theorem leadIn_congr (chars more other : List Char) :
    leadIn (chars ++ '/' :: more) = leadIn (chars ++ '/' :: other) := by
  cases chars with
  | nil => rfl
  | cons c chars => rw [leadIn_append (List.cons_ne_nil c chars), leadIn_append (List.cons_ne_nil c chars)]

/-- Characters without a slash are one component. -/
theorem componentsIn_of_not_mem {chars : List Char} (hslash : '/' ∉ chars) (hne : chars ≠ []) :
    componentsIn chars = [String.ofList chars] := by
  have hhead : chars.head? ≠ some '/' := fun h => hslash (List.mem_of_mem_head? h)
  have hwhole : chars.takeWhile (· ≠ '/') = chars :=
    List.takeWhile_eq_self_iff.2 fun c hc => by simpa using ne_of_mem_of_not_mem hc hslash
  rw [componentsIn, leadIn, if_neg hhead, hwhole, namesIn_of_not_mem hslash hne]
  split
  · next hdot =>
      subst hdot
      rfl
  · rfl

/-- What holds of the characters between slashes, and of a path when it holds of what stands behind the first slash,
holds of all paths. -/
theorem induction_on_parts {motive : List Char → Prop} (hpart : ∀ part, '/' ∉ part → motive part)
    (hslash : ∀ part rest, '/' ∉ part → motive rest → motive (part ++ '/' :: rest)) (chars : List Char) :
    motive chars := by
  suffices h : ∀ part, '/' ∉ part → motive (part ++ chars) from h [] List.not_mem_nil
  induction chars with
  | nil =>
      intro part hfree
      rw [List.append_nil]
      exact hpart part hfree
  | cons c chars ih =>
      intro part hfree
      by_cases hc : c = '/'
      · subst hc
        exact hslash part chars hfree (ih [] List.not_mem_nil)
      · rw [List.append_cons]
        exact ih (part ++ [c]) (by simp [hfree, Ne.symm hc])

theorem ofList_ne_root {part : List Char} (hfree : '/' ∉ part) : String.ofList part ≠ "/" := by
  rw [ne_eq, ← String.toList_inj, String.toList_ofList]
  rintro rfl
  exact hfree (by decide)

/-- The root is no name. -/
theorem root_not_mem_namesIn (chars : List Char) : "/" ∉ namesIn chars := by
  have hpart : ∀ part, '/' ∉ part → "/" ∉ namesIn part := by
    intro part hfree
    by_cases hne : part = []
    · simp [hne]
    · rw [namesIn_of_not_mem hfree hne]
      split
      · exact List.not_mem_nil
      · exact fun h => ofList_ne_root hfree (List.mem_singleton.1 h).symm
  refine induction_on_parts hpart (fun part rest hfree ih => ?_) chars
  rw [namesIn_append, List.mem_append]
  exact not_or.2 ⟨hpart part hfree, ih⟩

/-- The names in a path are those of its components that are neither the root nor a dot. -/
theorem names_eq_filter (p : Path) : p.names = p.components.filter fun part => part ≠ "/" ∧ part ≠ "." := by
  have hlead : (leadIn p.text.toList).filter (fun part => decide (part ≠ "/" ∧ part ≠ ".")) = [] := by
    rw [leadIn]
    split
    · decide
    · split <;> decide
  have hnames : ∀ name ∈ p.names, decide (name ≠ "/" ∧ name ≠ ".") = true := by
    intro name hname
    have hdot : name ≠ "." := by simpa using (List.mem_filter.1 hname).2
    have hroot : name ≠ "/" := ne_of_mem_of_not_mem hname (root_not_mem_namesIn _)
    simp [hroot, hdot]
  rw [components, componentsIn, List.filter_append, hlead, List.nil_append]
  exact (List.filter_eq_self.2 hnames).symm

/-! ### Parents -/

theorem componentsIn_trimReversed (reversed : List Char) :
    componentsIn (trimReversed reversed).reverse = componentsIn reversed.reverse := by
  have hlead : leadIn (trimReversed reversed).reverse = leadIn reversed.reverse := by
    fun_induction trimReversed reversed with
    | case1 c rest ih =>
        have hne : (c :: rest).reverse ≠ [] := by simp
        exact ih.trans (by simpa using (leadIn_append hne []).symm)
    | case2 rest ih => simpa [ih] using leadIn_congr rest.reverse [] ['.']
    | case3 => rfl
  rw [componentsIn, componentsIn, hlead, namesIn_trimReversed]

/-- A path without a parent is the root or empty. The parent of another path has all components but the last. -/
theorem componentsIn_parentReversed? (reversed : List Char) :
    match parentReversed? reversed with
    | none => componentsIn reversed.reverse = if reversed.reverse.head? = some '/' then ["/"] else []
    | some outer => ∃ last, last ≠ "/" ∧ componentsIn reversed.reverse = componentsIn outer.reverse ++ [last] := by
  rw [← componentsIn_trimReversed reversed, ← head?_trimReversed reversed]
  obtain ⟨hnone, hempty | hroot⟩ | ⟨hsome, hne, hslash, hdot⟩ := parentReversed?_cases reversed
  · rw [hnone, hempty]
    rfl
  · rw [hnone, hroot]
    rfl
  · rw [hsome]
    dsimp only
    rw [componentsIn_trimReversed (List.dropWhile _ _)]
    obtain ⟨name, hfree, hname, hends⟩ := last_name_cases hne hslash hdot
    refine ⟨String.ofList name, ofList_ne_root hfree, ?_⟩
    obtain ⟨hwhole, hnone⟩ | ⟨before, hwhole, hbefore, hdot⟩ := hends
    · -- There is no slash, so there is one component.
      rw [hwhole, hnone, componentsIn_of_not_mem hfree hname]
      rfl
    · rw [hwhole, hbefore, componentsIn, componentsIn, namesIn_append, namesIn_slash,
        namesIn_of_not_mem hfree hname, if_neg hdot, leadIn_congr before name [], List.append_assoc]

variable {p outer : Path}

theorem components_of_parent?_eq_none (h : p.parent? = none) :
    p.components = if p.isAbsolute then ["/"] else [] := by
  have hspec := componentsIn_parentReversed? p.text.toList.reverse
  rw [Option.map_eq_none_iff.1 h, List.reverse_reverse] at hspec
  rw [components, hspec]
  simp only [isAbsolute_iff]

/-- The parent of a path is the path without its last component, which is not the root. -/
theorem components_parent (h : p.parent? = some outer) :
    ∃ last, last ≠ "/" ∧ p.components = outer.components ++ [last] := by
  obtain ⟨reversed, hparent, rfl⟩ := Option.map_eq_some_iff.1 h
  have hspec := componentsIn_parentReversed? p.text.toList.reverse
  rw [hparent, List.reverse_reverse] at hspec
  simpa [components] using hspec

/-! ### The paths around a path -/

theorem length_trimReversed_le (reversed : List Char) : (trimReversed reversed).length ≤ reversed.length := by
  fun_induction trimReversed reversed with
  | case1 c rest ih => exact Nat.le_succ_of_le ih
  | case2 rest ih => exact Nat.le_succ_of_le ih
  | case3 => exact Nat.le_refl _

/-- A parent is shorter. -/
theorem length_parent_lt (h : p.parent? = some outer) : outer.text.length < p.text.length := by
  obtain ⟨reversed, hparent, rfl⟩ := Option.map_eq_some_iff.1 h
  have htrimmed := length_trimReversed_le p.text.toList.reverse
  rw [List.length_reverse] at htrimmed
  obtain ⟨hnone, -⟩ | ⟨hsome, hne, hslash, -⟩ := parentReversed?_cases p.text.toList.reverse
  · rw [hnone] at hparent
    cases hparent
  · obtain rfl := Option.some.inj (hsome.symm.trans hparent)
    generalize trimReversed p.text.toList.reverse = trimmed at hne hslash htrimmed ⊢
    have hshorter : (trimmed.dropWhile (· ≠ '/')).length < trimmed.length := by
      cases trimmed with
      | nil => exact absurd rfl hne
      | cons c rest =>
          have hc : c ≠ '/' := fun h => hslash (by rw [h]; rfl)
          rw [List.dropWhile_cons_of_pos (by simpa using hc), List.length_cons]
          exact Nat.lt_succ_of_le (List.length_dropWhile_le _ _)
    have houter := length_trimReversed_le (trimmed.dropWhile (· ≠ '/'))
    rw [← String.length_toList, String.toList_ofList, List.length_reverse, ← String.length_toList]
    omega

/-- The path that is left when the parent has been taken some number of times. -/
def outer? : Nat → Path → Option Path
  | 0, p => some p
  | distance + 1, p => p.parent?.bind (outer? distance)

theorem getElem?_ancestorsWithin {bound : Nat} (h : p.text.length ≤ bound) (distance : Nat) :
    (ancestorsWithin bound p)[distance]? = outer? distance p := by
  induction bound generalizing p distance with
  | zero =>
      have hempty : p.text = "" := by simpa using h
      cases distance with
      | zero => rfl
      | succ distance => simp [ancestorsWithin, outer?, parent?, hempty, parentReversed?, trimReversed]
  | succ bound ih =>
      rw [ancestorsWithin]
      cases hparent : p.parent? with
      | none =>
          cases distance with
          | zero => rfl
          | succ distance => simp [outer?, hparent]
      | some around =>
          cases distance with
          | zero => rfl
          | succ distance =>
              have hshorter := length_parent_lt hparent
              simpa [outer?, hparent] using ih (Nat.le_of_lt_succ (Nat.lt_of_lt_of_le hshorter h)) distance

/-- The paths around a path, one after the other. -/
theorem getElem?_ancestors (p : Path) (distance : Nat) : p.ancestors[distance]? = outer? distance p :=
  getElem?_ancestorsWithin (Nat.le_refl _) distance

/-- Taking the parent takes components off the end of the path, one at a time. -/
theorem components_outer {distance : Nat} (h : outer? distance p = some outer) :
    ∃ taken, taken.length = distance ∧ p.components = outer.components ++ taken := by
  induction distance generalizing p with
  | zero =>
      cases h
      exact ⟨[], rfl, (List.append_nil _).symm⟩
  | succ distance ih =>
      obtain ⟨around, hparent, hrest⟩ := Option.bind_eq_some_iff.1 h
      obtain ⟨last, -, hlast⟩ := components_parent hparent
      obtain ⟨taken, hlength, htaken⟩ := ih hrest
      exact ⟨taken ++ [last], by simp [hlength], by rw [hlast, htaken, List.append_assoc]⟩

/-- Taking the parent ends, at the root or at the empty path. -/
theorem exists_outermost (p : Path) :
    ∃ distance outermost, outer? distance p = some outermost ∧ outermost.parent? = none ∧
      outermost.components = if p.isAbsolute then ["/"] else [] := by
  cases hparent : p.parent? with
  | none => exact ⟨0, p, rfl, hparent, components_of_parent?_eq_none hparent⟩
  | some around =>
      have hshorter := length_parent_lt hparent
      obtain ⟨distance, outermost, houter, hnone, hends⟩ := exists_outermost around
      refine ⟨distance + 1, outermost, by rw [outer?, hparent]; exact houter, hnone, ?_⟩
      rw [hends, (parent?_eq_some hparent).2]
termination_by p.text.length

end Path

end Rulebook
