import Rulebook.Artifact
import Rulebook.Proofs.Path.Components

/-!
# Paths of different languages

A template that holds a placeholder gives each language a path of its own, wherever the placeholder stands and however
often. This module provides:

* `Template.scan_induction` — placeholders are looked for from left to right, and what is behind one is looked at on its
  own;
* `Template.not_placeholder_infix_fill` — what a template gives holds no placeholder, since a code neither holds a part
  of one nor completes one;
* `Template.prefix_or_prefix_of_fillChars` and `Template.prefix_or_prefix_of_names` — what a template gives for two
  codes differs, as text and as a path, unless one code begins with the other; and
* `Config.languages_apart` — so the files of two languages are never the same.
-/

namespace Rulebook

namespace Template

/-- What a code stands for in a template. -/
def placeholder : List Char :=
  "\x7blang\x7d".toList

/-! ### Scanning -/

section

variable {code chars part rest word : List Char} {c : Char}

theorem fillChars_placeholder (code rest : List Char) :
    fillChars code (placeholder ++ rest) = code ++ fillChars code rest :=
  rfl

theorem exists_of_prefix (h : placeholder <+: chars) :
    ∃ rest, chars = '\x7b' :: 'l' :: 'a' :: 'n' :: 'g' :: '\x7d' :: rest := by
  obtain ⟨rest, rfl⟩ := h
  exact ⟨rest, rfl⟩

theorem fillChars_cons (h : ¬ placeholder <+: c :: rest) (code : List Char) :
    fillChars code (c :: rest) = c :: fillChars code rest := by
  rw [fillChars]
  rintro more rfl rfl
  exact h ⟨more, rfl⟩

theorem placeholderIn_cons (h : ¬ placeholder <+: c :: rest) : placeholderIn (c :: rest) = placeholderIn rest := by
  rw [placeholderIn]
  rintro more rfl rfl
  exact h ⟨more, rfl⟩

theorem not_prefix_cons (hc : c ≠ '\x7b') (rest : List Char) : ¬ placeholder <+: c :: rest := by
  intro hbegins
  obtain ⟨more, hmore⟩ := exists_of_prefix hbegins
  exact hc (List.cons.inj hmore).1

/-- What holds of no characters, of a placeholder and what it holds of, and of another character and what it holds of,
holds of all characters. -/
theorem scan_induction {motive : List Char → Prop} (nil : motive [])
    (place : ∀ rest, motive rest → motive (placeholder ++ rest))
    (other : ∀ c rest, ¬ placeholder <+: c :: rest → motive rest → motive (c :: rest)) (chars : List Char) :
    motive chars := by
  induction chars using fillChars.induct with
  | case1 rest ih => exact place rest ih
  | case2 c rest hnot ih =>
      refine other c rest (fun hbegins => ?_) ih
      obtain ⟨more, hmore⟩ := exists_of_prefix hbegins
      exact hnot more (List.cons.inj hmore).1 (List.cons.inj hmore).2
  | case3 => exact nil

theorem placeholderIn_iff : placeholderIn chars = true ↔ placeholder <:+: chars := by
  induction chars using scan_induction with
  | nil => exact iff_of_false (by decide) (by decide)
  | place rest => exact iff_of_true rfl (List.prefix_append _ _).isInfix
  | other c rest hnot ih => rw [placeholderIn_cons hnot, ih, List.infix_cons_iff, or_iff_right hnot]

/-! A slash ends what is looked at: no placeholder has one. -/

theorem prefix_of_prefix_append_slash (hfree : '/' ∉ word) (h : word <+: part ++ '/' :: rest) : word <+: part := by
  rcases List.prefix_or_prefix_of_prefix h (List.prefix_append part _) with hpart | ⟨more, rfl⟩
  · exact hpart
  · rw [List.prefix_append_right_inj] at h
    cases more with
    | nil => simp
    | cons c more =>
        obtain rfl := (List.cons_prefix_cons.1 h).1
        simp at hfree

theorem not_prefix_append_slash (h : ¬ placeholder <+: c :: part) (rest : List Char) :
    ¬ placeholder <+: c :: (part ++ '/' :: rest) :=
  fun hbegins => h (prefix_of_prefix_append_slash (by decide) hbegins)

theorem fillChars_append_slash (code part rest : List Char) :
    fillChars code (part ++ '/' :: rest) = fillChars code part ++ '/' :: fillChars code rest := by
  induction part using scan_induction with
  | nil => exact fillChars_cons (not_prefix_cons (by decide) rest) code
  | place part ih => rw [List.append_assoc, fillChars_placeholder, fillChars_placeholder, ih, List.append_assoc]
  | other c part hnot ih =>
      rw [fillChars_cons hnot, List.cons_append, fillChars_cons (not_prefix_append_slash hnot rest), ih,
        List.cons_append]

theorem placeholderIn_append_slash (part rest : List Char) :
    placeholderIn (part ++ '/' :: rest) = (placeholderIn part || placeholderIn rest) := by
  induction part using scan_induction with
  | nil => exact placeholderIn_cons (not_prefix_cons (by decide) rest)
  | place part => rfl
  | other c part hnot ih =>
      rw [placeholderIn_cons hnot, List.cons_append, placeholderIn_cons (not_prefix_append_slash hnot rest), ih]

/-! ### Filling -/

theorem mem_of_mem_fillChars (h : c ∈ fillChars code chars) : c ∈ code ∨ c ∈ chars := by
  induction chars using scan_induction with
  | nil => cases h
  | place rest ih =>
      rw [fillChars_placeholder, List.mem_append] at h
      rcases h with hcode | hrest
      · exact .inl hcode
      · exact (ih hrest).imp_right (List.mem_append_right _)
  | other d rest hnot ih =>
      rw [fillChars_cons hnot, List.mem_cons] at h
      rcases h with rfl | hrest
      · exact .inr List.mem_cons_self
      · exact (ih hrest).imp_right (List.mem_cons_of_mem _)

/-- What can take the place of placeholders in a path: its first character means nothing in a path or in a placeholder,
and neither a part of a path nor a placeholder begins in it. -/
structure IsCode (code : List Char) : Prop where
  starts : ∃ first others, code = first :: others ∧ first ∉ '/' :: '.' :: placeholder
  no_slash : '/' ∉ code
  no_brace : '\x7b' ∉ code

/-- Such characters at the beginning of the result do not come from a code. -/
theorem prefix_of_prefix_fillChars (hcode : IsCode code) (hword : word ⊆ '/' :: '.' :: placeholder)
    (h : word <+: fillChars code chars) : word <+: chars := by
  obtain ⟨first, others, rfl, hfirst⟩ := hcode.starts
  induction word generalizing chars with
  | nil => exact List.nil_prefix
  | cons d word ih =>
      obtain ⟨hd, hothers⟩ := List.cons_subset.1 hword
      induction chars using scan_induction with
      | nil => exact h
      | place rest =>
          rw [fillChars_placeholder, List.cons_append, List.cons_prefix_cons] at h
          exact absurd (h.1 ▸ hd) hfirst
      | other c rest hnot =>
          rw [fillChars_cons hnot, List.cons_prefix_cons] at h
          exact List.cons_prefix_cons.2 ⟨h.1, ih hothers h.2⟩

theorem placeholderIn_append (hbrace : '\x7b' ∉ code) (rest : List Char) :
    placeholderIn (code ++ rest) = placeholderIn rest := by
  induction code with
  | nil => rfl
  | cons c code ih =>
      rw [List.mem_cons, not_or] at hbrace
      rw [List.cons_append, placeholderIn_cons (not_prefix_cons (Ne.symm hbrace.1) _), ih hbrace.2]

/-- Codes put in the places of placeholders do not make another one. -/
theorem placeholderIn_fillChars (hcode : IsCode code) (chars : List Char) :
    placeholderIn (fillChars code chars) = false := by
  induction chars using scan_induction with
  | nil => rfl
  | place rest ih => rw [fillChars_placeholder, placeholderIn_append hcode.no_brace, ih]
  | other c rest hnot ih =>
      have hnot' : ¬ placeholder <+: fillChars code (c :: rest) :=
        fun h => hnot (prefix_of_prefix_fillChars hcode (by decide) h)
      rw [fillChars_cons hnot] at hnot' ⊢
      rw [placeholderIn_cons hnot', ih]

/-- Where two codes give the same characters, one of them begins with the other. -/
theorem prefix_or_prefix_of_fillChars {other : List Char} (hplace : placeholderIn chars = true)
    (h : fillChars code chars = fillChars other chars) : code <+: other ∨ other <+: code := by
  induction chars using scan_induction with
  | nil => cases hplace
  | place rest =>
      rw [fillChars_placeholder, fillChars_placeholder] at h
      exact List.prefix_or_prefix_of_prefix (List.prefix_append code _) (h ▸ List.prefix_append other _)
  | other c rest hnot ih =>
      rw [placeholderIn_cons hnot] at hplace
      rw [fillChars_cons hnot, fillChars_cons hnot] at h
      exact ih hplace (List.cons.inj h).2

/-! ### Filled paths -/

/-- A part that is filled is empty, or a dot, only if it was. -/
theorem fillChars_eq_nil_iff (hcode : IsCode code) : fillChars code chars = [] ↔ chars = [] := by
  induction chars using scan_induction with
  | nil => exact iff_of_true rfl rfl
  | place rest =>
      obtain ⟨first, others, rfl, -⟩ := hcode.starts
      exact iff_of_false nofun nofun
  | other c rest hnot => simp [fillChars_cons hnot]

theorem fillChars_eq_dot_iff (hcode : IsCode code) : fillChars code chars = ['.'] ↔ chars = ['.'] := by
  constructor
  · intro h
    obtain ⟨rest, rfl⟩ : ['.'] <+: chars := prefix_of_prefix_fillChars hcode (by decide) (h ▸ List.prefix_refl _)
    rw [List.singleton_append, fillChars_cons (not_prefix_cons (by decide) rest), List.cons.injEq,
      fillChars_eq_nil_iff hcode] at h
    rw [h.2, List.append_nil]
  · rintro rfl
    rfl

/-- A code gives a part of a path its place among the names, or leaves it out, as any other code does. -/
theorem namesIn_fillChars (hcode : IsCode code) (hfree : '/' ∉ part) :
    Path.namesIn (fillChars code part) =
      if part = [] ∨ part = ['.'] then [] else [String.ofList (fillChars code part)] := by
  have hfilled : '/' ∉ fillChars code part := fun h => (mem_of_mem_fillChars h).elim hcode.no_slash hfree
  by_cases hempty : part = []
  · simp [hempty, fillChars]
  · rw [Path.namesIn_of_not_mem hfilled (mt (fillChars_eq_nil_iff hcode).1 hempty)]
    simp only [fillChars_eq_dot_iff hcode, hempty, false_or]

/-- Where two codes give the same names, one of them begins with the other. -/
theorem prefix_or_prefix_of_names {other : List Char} (hcode : IsCode code) (hother : IsCode other)
    (hplace : placeholderIn chars = true)
    (h : Path.namesIn (fillChars code chars) = Path.namesIn (fillChars other chars)) :
    code <+: other ∨ other <+: code := by
  -- A part with a placeholder is a name, so the names of the two codes differ there.
  have hpart : ∀ part, '/' ∉ part → placeholderIn part = true →
      Path.namesIn (fillChars code part) = Path.namesIn (fillChars other part) → code <+: other ∨ other <+: code := by
    intro part hfree hplace h
    have hname : ¬ (part = [] ∨ part = ['.']) := by
      rintro (rfl | rfl) <;> cases hplace
    rw [namesIn_fillChars hcode hfree, namesIn_fillChars hother hfree, if_neg hname, if_neg hname,
      List.singleton_inj, String.ofList_inj] at h
    exact prefix_or_prefix_of_fillChars hplace h
  induction chars using Path.induction_on_parts with
  | hpart part hfree => exact hpart part hfree hplace h
  | hslash part rest hfree ih =>
      have hlength : (Path.namesIn (fillChars code part)).length = (Path.namesIn (fillChars other part)).length := by
        rw [namesIn_fillChars hcode hfree, namesIn_fillChars hother hfree]
        split <;> rfl
      rw [fillChars_append_slash, fillChars_append_slash, Path.namesIn_append, Path.namesIn_append] at h
      obtain ⟨hfirst, hrest⟩ := List.append_inj h hlength
      rw [placeholderIn_append_slash, Bool.or_eq_true] at hplace
      exact hplace.elim (fun hplace => hpart part hfree hplace hfirst) fun hplace => ih hplace hrest

end

/-! ### Languages -/

section

variable {template : String} {first second : Language}

theorem isCode_code (language : Language) : IsCode language.code.toList := by
  cases language <;> exact ⟨⟨_, _, rfl, by decide⟩, by decide, by decide⟩

/-- No code begins with another one. -/
theorem eq_of_code_begins (h : first.code.toList <+: second.code.toList) : first = second := by
  revert h
  cases first <;> cases second <;> decide

theorem not_placeholder_infix_fill (template : String) (language : Language) :
    ¬ placeholder <:+: (fill template language).toList := by
  rw [← placeholderIn_iff, fill, String.toList_ofList,
    placeholderIn_fillChars (isCode_code language)]
  exact Bool.false_ne_true

/-- A filled template is absolute if the template is. -/
theorem isAbsolute_fill (template : String) (language : Language) :
    (⟨fill template language⟩ : Path).isAbsolute = (⟨template⟩ : Path).isAbsolute := by
  rw [Bool.eq_iff_iff, Path.isAbsolute_iff, Path.isAbsolute_iff, fill, String.toList_ofList]
  constructor
  · intro h
    obtain ⟨rest, hrest⟩ := List.head?_eq_some_iff.1 h
    have hbegins : ['/'] <+: fillChars language.code.toList template.toList := ⟨rest, hrest.symm⟩
    obtain ⟨more, hmore⟩ := prefix_of_prefix_fillChars (isCode_code language) (by decide) hbegins
    exact List.head?_eq_some_iff.2 ⟨more, hmore.symm⟩
  · intro h
    obtain ⟨rest, hrest⟩ := List.head?_eq_some_iff.1 h
    rw [hrest, fillChars_cons (not_prefix_cons (by decide) rest), List.head?_cons]

/-- From any directory, a template with a placeholder gives different languages different paths. -/
theorem join_fill_components_ne (hplace : hasPlaceholder template = true) (hne : first ≠ second) (outer : Path) :
    (outer.join (fill template first)).components ≠ (outer.join (fill template second)).components := by
  intro heq
  have hnames : (outer.join (fill template first)).names = (outer.join (fill template second)).names := by
    rw [Path.names_eq_filter, Path.names_eq_filter, heq]
  have hfilled : Path.namesIn (fillChars first.code.toList template.toList) =
      Path.namesIn (fillChars second.code.toList template.toList) := by
    cases habsolute : (⟨template⟩ : Path).isAbsolute with
    | true =>
        rw [Path.join_of_isAbsolute ((isAbsolute_fill template first).trans habsolute),
          Path.join_of_isAbsolute ((isAbsolute_fill template second).trans habsolute)] at hnames
        simpa [Path.names, fill] using hnames
    | false =>
        rw [Path.names_join ((isAbsolute_fill template first).trans habsolute),
          Path.names_join ((isAbsolute_fill template second).trans habsolute), List.append_cancel_left_eq] at hnames
        simpa [Path.names, fill] using hnames
  rcases prefix_or_prefix_of_names (isCode_code first) (isCode_code second) hplace hfilled with hbegins | hbegins
  · exact hne (eq_of_code_begins hbegins)
  · exact hne (eq_of_code_begins hbegins).symm

end

end Template

namespace Config

variable {config : Config} {first second : Language}

/-- What a configuration that is in order says of its templates. -/
theorem hasPlaceholder_of_check (h : config.check = .ok ()) :
    Template.hasPlaceholder config.localizationTemplate = true ∧
      Template.hasPlaceholder config.artifactTemplate = true := by
  rw [check] at h
  split at h
  · cases h
  · split at h
    · cases h
    · next hlocalization =>
        split at h
        · cases h
        · next hartifact => exact ⟨by simpa using hlocalization, by simpa using hartifact⟩

/-- If the configuration is in order, each language has an artifact of its own in any directory, and a localization of
its own; what the templates give holds no placeholder any more. -/
theorem languages_apart (hcheck : config.check = .ok ()) (hne : first ≠ second) (directory : Path) :
    ((⟨directory, config.artifactTemplate⟩ : Artifact.Directory).destination first).components ≠
        ((⟨directory, config.artifactTemplate⟩ : Artifact.Directory).destination second).components ∧
      (config.localizationPath first).components ≠ (config.localizationPath second).components ∧
      ∀ language, ¬ Template.placeholder <:+: (Template.fill config.artifactTemplate language).toList ∧
        ¬ Template.placeholder <:+: (Template.fill config.localizationTemplate language).toList := by
  obtain ⟨hlocalization, hartifact⟩ := hasPlaceholder_of_check hcheck
  refine ⟨?_, ?_, fun language => ⟨?_, ?_⟩⟩
  · exact Template.join_fill_components_ne hartifact hne directory
  · exact Template.join_fill_components_ne hlocalization hne config.root
  · exact Template.not_placeholder_infix_fill _ language
  · exact Template.not_placeholder_infix_fill _ language

/-- Placeholders beside each other, and one inside what is nearly another one. -/
def nestedConfig : Config :=
  { Config.ofRoot ⟨"project"⟩ with
    localizationTemplate := "./\x7bla\x7blang\x7dng\x7d/all.yaml"
    artifactTemplate := "/var//\x7blang\x7d\x7blang\x7d" }

theorem languages_apart_nested :
    (nestedConfig.localizationPath .enUs).text = "project/./\x7blaen-usng\x7d/all.yaml" ∧
      (nestedConfig.localizationPath .es).text = "project/./\x7blaesng\x7d/all.yaml" ∧
      (nestedConfig.localizationPath .enUs).components ≠ (nestedConfig.localizationPath .es).components :=
  ⟨by decide, by decide,
    (languages_apart (show nestedConfig.check = .ok () from rfl) (by decide) ⟨"public"⟩).2.1⟩

end Config

end Rulebook
