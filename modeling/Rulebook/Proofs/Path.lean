import Rulebook.Proofs.Fragment.Found

/-!
# The names in a path

A path is kept as it was written, so two paths that are spelled in different ways can name the same place. What does
not depend on the spelling is whether a path is absolute and the names in it, apart from single dots. This module
provides:

* `Path.names` and `Path.namesFrom` — the names in a path, and those that it stands for when seen from somewhere;
* `Path.namesFrom_join` — a joined path, seen from somewhere, is the inner path seen from the outer one;
* `Path.parent?_eq_some` and `Path.exists_parent` — the parent of a path is the path without its last name, and a path
  that has a name has a parent; and
* `Path.names_ne_nil_of_read` — the path of a file has a name.
-/

namespace Rulebook

namespace Path

/-- The names in the characters of a path, without single dots. -/
def namesIn (chars : List Char) : List String :=
  (FileSystem.partsFrom [] chars).filter (· ≠ ".")

/-- The names in a path, without single dots. -/
def names (p : Path) : List String :=
  namesIn p.text.toList

/-- The names that a path stands for when it is seen from the place that other names stand for. -/
def namesFrom (outer : List String) (p : Path) : List String :=
  if p.isAbsolute then p.names else outer ++ p.names

@[simp] theorem namesIn_nil : namesIn [] = [] :=
  rfl

theorem namesIn_append (chars more : List Char) : namesIn (chars ++ '/' :: more) = namesIn chars ++ namesIn more := by
  rw [namesIn, FileSystem.partsFrom_append, List.filter_append]
  rfl

theorem namesIn_slash (chars : List Char) : namesIn (chars ++ ['/']) = namesIn chars := by
  rw [namesIn_append, namesIn_nil, List.append_nil]

/-- Characters without a slash are one name, or a single dot. -/
theorem namesIn_of_not_mem {chars : List Char} (hslash : '/' ∉ chars) (hne : chars ≠ []) :
    namesIn chars = if chars = ['.'] then [] else [String.ofList chars] := by
  have hdot : String.ofList chars = "." ↔ chars = ['.'] := by
    rw [← String.toList_inj, String.toList_ofList]
    rfl
  rw [namesIn, FileSystem.partsFrom_of_not_mem hslash (.inr hne), List.reverse_nil, List.nil_append]
  by_cases h : chars = ['.']
  · simp [h]
  · simp [h, hdot]

/-! ### Joining -/

theorem isAbsolute_iff {p : Path} : p.isAbsolute = true ↔ p.text.toList.head? = some '/' :=
  beq_iff_eq

theorem join_of_isAbsolute {inner : String} (h : (⟨inner⟩ : Path).isAbsolute = true) (outer : Path) :
    outer.join inner = ⟨inner⟩ := by
  have hhead : inner.toList.head? = some '/' := isAbsolute_iff.1 h
  rw [join, joinChars, if_pos hhead, String.ofList_toList]

section

variable {outer : Path} {inner : String} (h : (⟨inner⟩ : Path).isAbsolute = false)

include h

theorem text_join : (outer.join inner).text.toList = Fragment.Search.outerChars outer ++ inner.toList :=
  Fragment.Search.join_toList (fun hhead => Bool.false_ne_true (h.symm.trans (isAbsolute_iff.2 hhead))) outer

theorem names_join : (outer.join inner).names = outer.names ++ (⟨inner⟩ : Path).names := by
  rw [names, namesIn, text_join h, Fragment.Search.parts_outerChars, List.filter_append]
  rfl

theorem isAbsolute_join : (outer.join inner).isAbsolute = outer.isAbsolute := by
  rw [isAbsolute, isAbsolute, text_join h, Fragment.Search.outerChars]
  by_cases hempty : outer.text.toList = []
  · -- Without an outer path the inner one is all there is.
    have hinner : (inner.toList.head? == some '/') = false := h
    simpa [hempty] using hinner
  · split
    · rw [List.head?_append_of_ne_nil _ hempty]
    · rw [List.append_assoc, List.head?_append_of_ne_nil _ hempty]

end

/-- A joined path is the inner path, seen from what the outer path stands for. -/
theorem namesFrom_join (names : List String) (outer : Path) (inner : String) :
    (outer.join inner).namesFrom names = (⟨inner⟩ : Path).namesFrom (outer.namesFrom names) := by
  cases h : (⟨inner⟩ : Path).isAbsolute with
  | true => simp only [join_of_isAbsolute h, namesFrom, h, if_true]
  | false =>
      simp only [namesFrom, isAbsolute_join h, names_join h, h, Bool.false_eq_true, if_false]
      split
      · rfl
      · exact (List.append_assoc _ _ _).symm

/-- Only a relative path depends on where it is seen from, and it tells any two places apart. -/
theorem namesFrom_eq_namesFrom_iff {p : Path} {first second : List String} :
    p.namesFrom first = p.namesFrom second ↔ (p.isAbsolute = false → first = second) := by
  rw [namesFrom, namesFrom]
  cases p.isAbsolute <;> simp

/-- A path that leads nowhere else when it is taken twice leads nowhere else when it is taken once. -/
theorem namesFrom_namesFrom_eq_iff {p : Path} {names : List String} :
    p.namesFrom (p.namesFrom names) = names ↔ p.namesFrom names = names := by
  simp only [namesFrom]
  cases p.isAbsolute <;> simp

/-! ### Parents -/

/-- Slashes and single dots at the end of a path are no names. -/
theorem namesIn_trimReversed (reversed : List Char) :
    namesIn (trimReversed reversed).reverse = namesIn reversed.reverse := by
  fun_induction trimReversed reversed with
  | case1 c rest ih => rw [ih, List.reverse_cons (a := '/'), namesIn_slash]
  | case2 rest ih =>
      have hdot : namesIn (rest.reverse ++ '/' :: ['.']) = namesIn (rest.reverse ++ ['/']) := by
        rw [namesIn_append, namesIn_slash]
        exact List.append_nil _
      rw [ih]
      simpa using hdot.symm
  | case3 => rfl

theorem head?_trimReversed (reversed : List Char) :
    (trimReversed reversed).reverse.head? = reversed.reverse.head? := by
  fun_induction trimReversed reversed with
  | case1 c rest ih => simp [ih]
  | case2 rest ih => simp [ih]
  | case3 => rfl

/-- What is left does not end with a slash or a single dot that could go. -/
theorem trimmed_trimReversed (reversed : List Char) :
    (∀ c rest, trimReversed reversed ≠ '/' :: c :: rest) ∧ ∀ rest, trimReversed reversed ≠ '.' :: '/' :: rest := by
  fun_induction trimReversed reversed with
  | case1 c rest ih => exact ih
  | case2 rest ih => exact ih
  | case3 reversed hslash hdot => exact ⟨hslash, hdot⟩

/-- There is no parent if nothing is left, or a slash. Otherwise the last name goes, and what stands before it is
trimmed in turn. -/
theorem parentReversed?_cases (reversed : List Char) :
    (parentReversed? reversed = none ∧ (trimReversed reversed = [] ∨ trimReversed reversed = ['/'])) ∨
      (parentReversed? reversed = some (trimReversed ((trimReversed reversed).dropWhile (· ≠ '/'))) ∧
        trimReversed reversed ≠ [] ∧ (trimReversed reversed).head? ≠ some '/' ∧
          ∀ rest, trimReversed reversed ≠ '.' :: '/' :: rest) := by
  obtain ⟨hslash, hdot⟩ := trimmed_trimReversed reversed
  rw [parentReversed?]
  generalize trimReversed reversed = trimmed at hslash hdot ⊢
  split
  · exact .inl ⟨rfl, .inl rfl⟩
  · exact .inl ⟨rfl, .inr rfl⟩
  · next hnil hone =>
      refine .inr ⟨rfl, hnil, fun hhead => ?_, hdot⟩
      obtain ⟨rest, rfl⟩ := List.head?_eq_some_iff.1 hhead
      cases rest with
      | nil => exact hone rfl
      | cons c rest => exact hslash c rest rfl

/-- Characters up to the first slash, if there is one. -/
theorem exists_split_dropWhile (chars : List Char) :
    ∃ name, '/' ∉ name ∧ chars = name ++ chars.dropWhile (· ≠ '/') ∧
      (chars.dropWhile (· ≠ '/') = [] ∨ ∃ rest, chars.dropWhile (· ≠ '/') = '/' :: rest) := by
  induction chars with
  | nil => exact ⟨[], List.not_mem_nil, rfl, .inl rfl⟩
  | cons c chars ih =>
      by_cases hc : c = '/'
      · subst hc
        exact ⟨[], List.not_mem_nil, by simp, .inr ⟨chars, by simp⟩⟩
      · obtain ⟨name, hfree, hwhole, htail⟩ := ih
        rw [List.dropWhile_cons_of_pos (by simpa using hc)]
        exact ⟨c :: name, by simp [Ne.symm hc, hfree], by rw [List.cons_append, ← hwhole], htail⟩

/-- The last name is what stands behind the last slash, or all there is. -/
theorem last_name_cases {trimmed : List Char} (hne : trimmed ≠ []) (hslash : trimmed.head? ≠ some '/')
    (hdot : ∀ rest, trimmed ≠ '.' :: '/' :: rest) :
    ∃ name, '/' ∉ name ∧ name ≠ [] ∧
      (trimmed.reverse = name ∧ (trimmed.dropWhile (· ≠ '/')).reverse = [] ∨
        ∃ outer, trimmed.reverse = outer ++ '/' :: name ∧ (trimmed.dropWhile (· ≠ '/')).reverse = outer ++ ['/'] ∧
          name ≠ ['.']) := by
  obtain ⟨name, hfree, hwhole, hnone | ⟨rest, hrest⟩⟩ := exists_split_dropWhile trimmed
  · rw [hnone, List.append_nil] at hwhole
    exact ⟨trimmed.reverse, by simpa [hwhole] using hfree, by simpa using hne, .inl ⟨rfl, by rw [hnone]; rfl⟩⟩
  · rw [hrest] at hwhole
    have hname : name ≠ [] := by
      rintro rfl
      exact hslash (by rw [hwhole]; rfl)
    have hnodot : name.reverse ≠ ['.'] := fun h => hdot rest (by rw [hwhole, List.reverse_eq_iff.1 h]; rfl)
    refine ⟨name.reverse, by simpa using hfree, by simpa using hname, .inr ⟨rest.reverse, ?_, ?_, hnodot⟩⟩
    · rw [hwhole]
      simp
    · rw [hrest, List.reverse_cons]

/-- Without the last name, the others are left. -/
theorem namesIn_dropWhile {trimmed : List Char} (hne : trimmed ≠ []) (hslash : trimmed.head? ≠ some '/')
    (hdot : ∀ rest, trimmed ≠ '.' :: '/' :: rest) :
    namesIn (trimmed.dropWhile (· ≠ '/')).reverse = (namesIn trimmed.reverse).dropLast ∧
      ((trimmed.dropWhile (· ≠ '/')).reverse.head? = some '/' ↔ trimmed.reverse.head? = some '/') := by
  obtain ⟨name, hfree, hname, ⟨hwhole, hnone⟩ | ⟨outer, hwhole, houter, hdot⟩⟩ := last_name_cases hne hslash hdot
  · -- There is no slash, so there is one name at most.
    rw [hwhole, hnone, namesIn_of_not_mem hfree hname]
    have hhead : name.head? ≠ some '/' := fun h => hfree (List.mem_of_mem_head? h)
    refine ⟨?_, iff_of_false (by simp) hhead⟩
    split <;> rfl
  · rw [hwhole, houter, namesIn_slash, namesIn_append, namesIn_of_not_mem hfree hname, if_neg hdot,
      List.dropLast_concat]
    refine ⟨rfl, ?_⟩
    cases outer <;> simp

/-- A path without a parent has no name. The parent of another path has all names but the last. -/
theorem parentReversed?_spec (reversed : List Char) :
    match parentReversed? reversed with
    | none => namesIn reversed.reverse = []
    | some outer =>
      namesIn outer.reverse = (namesIn reversed.reverse).dropLast ∧
        (outer.reverse.head? = some '/' ↔ reversed.reverse.head? = some '/') := by
  rw [← namesIn_trimReversed reversed, ← head?_trimReversed reversed]
  obtain ⟨hnone, hempty | hroot⟩ | ⟨hsome, hne, hslash, hdot⟩ := parentReversed?_cases reversed
  · rw [hnone, hempty]
    rfl
  · rw [hnone, hroot]
    rfl
  · rw [hsome]
    dsimp only
    rw [namesIn_trimReversed, head?_trimReversed]
    exact namesIn_dropWhile hne hslash hdot

theorem parent?_eq_some {p outer : Path} (h : p.parent? = some outer) :
    outer.names = p.names.dropLast ∧ outer.isAbsolute = p.isAbsolute := by
  obtain ⟨reversed, hparent, rfl⟩ := Option.map_eq_some_iff.1 h
  have hspec := parentReversed?_spec p.text.toList.reverse
  rw [hparent, List.reverse_reverse] at hspec
  refine ⟨by simpa [names] using hspec.1, ?_⟩
  rw [Bool.eq_iff_iff, isAbsolute_iff, isAbsolute_iff, String.toList_ofList]
  exact hspec.2

/-- A path with a name has a parent. -/
theorem exists_parent {p : Path} (h : p.names ≠ []) : ∃ outer, p.parent? = some outer := by
  have hspec := parentReversed?_spec p.text.toList.reverse
  cases hparent : parentReversed? p.text.toList.reverse with
  | none =>
      rw [hparent, List.reverse_reverse] at hspec
      exact absurd hspec h
  | some reversed => exact ⟨_, by rw [parent?, hparent]; rfl⟩

/-- The directories around a path are absolute if it is. -/
theorem isAbsolute_of_mem_ancestors {p outer : Path} (h : outer ∈ p.ancestors) : outer.isAbsolute = p.isAbsolute := by
  rw [ancestors] at h
  generalize p.text.length = bound at h
  induction bound generalizing p with
  | zero => rw [List.mem_singleton.1 h]
  | succ bound ih =>
      rw [ancestorsWithin] at h
      cases hparent : p.parent? with
      | none =>
          rw [hparent] at h
          rw [List.mem_singleton.1 h]
      | some around =>
          rw [hparent] at h
          rcases List.mem_cons.1 h with rfl | hmem
          · rfl
          · exact (ih hmem).trans (parent?_eq_some hparent).2

/-! ### Paths without a name -/

/-- Dots lead nowhere else, and only from a directory. -/
theorem directory_of_leads {root : Tree} {mayMiss : Bool} {links : Nat} {location place : Location}
    {steps : List String} (h : FileSystem.Leads root mayMiss links location steps place)
    (hdots : ∀ step ∈ steps, step = ".") (hne : steps ≠ []) :
    ∃ entries, root.at? place = some (.directory entries) := by
  induction h with
  | done => exact absurd rfl hne
  | @here links location place rest entries hdirectory hrest ih =>
      cases rest with
      | nil =>
          cases hrest
          exact ⟨entries, hdirectory⟩
      | cons step rest =>
          exact ih (fun other hother => hdots other (List.mem_cons_of_mem _ hother)) (List.cons_ne_nil step rest)
  | up => exact absurd (hdots ".." List.mem_cons_self) (by decide)
  | missing _ hname => exact absurd (hdots _ List.mem_cons_self) hname.ne_here
  | link _ hname => exact absurd (hdots _ List.mem_cons_self) hname.ne_here
  | enter _ hname => exact absurd (hdots _ List.mem_cons_self) hname.ne_here

/-- The path of a file has a name. -/
theorem names_ne_nil_of_read {fs : FileSystem} {p : Path} {content : ByteArray} (h : fs.read p = .ok content) :
    p.names ≠ [] := by
  intro hnames
  obtain ⟨place, hlocate, hfile⟩ := FileSystem.read_eq_ok_iff.1 h
  obtain ⟨hfault, hleads⟩ := FileSystem.locate_eq_ok_iff.1 hlocate
  have hparts : ∀ part ∈ FileSystem.parts p.text, part = "." := by
    simpa [names, namesIn, FileSystem.parts, List.filter_eq_nil_iff] using hnames
  have hdots : ∀ step ∈ FileSystem.steps p.text, step = "." := by
    rcases FileSystem.steps_eq p.text with heq | heq <;> rw [heq]
    · exact hparts
    · intro step hstep
      rcases List.mem_append.1 hstep with hpart | hlast
      · exact hparts step hpart
      · exact List.mem_singleton.1 hlast
  have hne : FileSystem.steps p.text ≠ [] := FileSystem.steps_ne_nil (FileSystem.text_ne_empty hfault)
  obtain ⟨entries, hdirectory⟩ := directory_of_leads hleads hdots hne
  cases hfile.symm.trans hdirectory

end Path

end Rulebook
