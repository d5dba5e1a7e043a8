import Mathlib.Data.List.TakeWhile
import Rulebook.Fragment.Search
import Rulebook.Proofs.Glob.Reading

/-!
# What a scope leaves out

A scope is read off the text of patterns, part by part, and knows nothing of what the patterns mean. It still admits
every location that one of them accepts, provided that a backslash stands neither in the literal start of the pattern,
where it would escape a character, nor in the location, where it would count as a slash. This module provides:

* `Scope.admits_of_prefix` — what is around an admitted location is admitted;
* `Scope.parts_eq` and `Fragment.Search.splitOn_locationText` — patterns and locations fall into their parts at the
  slashes; and
* `Scope.literalStart_prefix` — the locations that a pattern accepts begin with its literal start.
-/

namespace Rulebook

/-- A name that something in a directory can have. -/
structure FileSystem.IsEntryName (name : String) : Prop where
  ne_empty : name ≠ ""
  ne_here : name ≠ "."
  ne_up : name ≠ ".."
  no_slash : '/' ∉ name.toList

instance (name : String) : Decidable (FileSystem.IsEntryName name) :=
  decidable_of_iff (name ≠ "" ∧ name ≠ "." ∧ name ≠ ".." ∧ '/' ∉ name.toList)
    ⟨fun ⟨hempty, hhere, hup, hslash⟩ => ⟨hempty, hhere, hup, hslash⟩,
      fun h => ⟨h.ne_empty, h.ne_here, h.ne_up, h.no_slash⟩⟩

/-! ### Parts between slashes -/

section

variable {α : Type} {sep : α} {text : List α} {first second : List (List α)}

theorem mem_intercalate {x : α} {parts : List (List α)} (h : x ∈ [sep].intercalate parts) :
    x = sep ∨ ∃ part ∈ parts, x ∈ part := by
  induction parts with
  | nil => simp at h
  | cons part parts ih =>
      cases parts with
      | nil =>
          rw [List.intercalate_singleton] at h
          exact .inr ⟨part, List.mem_cons_self, h⟩
      | cons other parts =>
          rw [List.intercalate_cons_cons, List.mem_append, List.mem_append, List.mem_singleton] at h
          rcases h with (h | h) | h
          · exact .inr ⟨part, List.mem_cons_self, h⟩
          · exact .inl h
          · rcases ih h with h | ⟨further, hfurther, h⟩
            · exact .inl h
            · exact .inr ⟨further, List.mem_cons_of_mem _ hfurther, h⟩

theorem intercalate_append (hfirst : first ≠ []) (hsecond : second ≠ []) :
    [sep].intercalate (first ++ second) = [sep].intercalate first ++ sep :: [sep].intercalate second := by
  induction first with
  | nil => exact absurd rfl hfirst
  | cons part first ih =>
      cases first with
      | nil =>
          rw [List.singleton_append, List.intercalate_cons_of_ne_nil hsecond, List.intercalate_singleton]
          simp
      | cons other first =>
          rw [List.cons_append, List.cons_append, List.intercalate_cons_cons, List.intercalate_cons_cons,
            ← List.cons_append, ih (List.cons_ne_nil _ _)]
          simp

variable [BEq α] [LawfulBEq α]

theorem not_mem_of_mem_splitOn {part : List α} (h : part ∈ text.splitOn sep) : sep ∉ part := by
  induction text generalizing part with
  | nil =>
      rw [List.splitOn_nil, List.mem_singleton] at h
      rw [h]
      exact List.not_mem_nil
  | cons x text ih =>
      rw [List.splitOn_cons_eq_if_modifyHead] at h
      split at h
      · rcases List.mem_cons.1 h with rfl | h
        · exact List.not_mem_nil
        · exact ih h
      · next hx =>
          obtain ⟨head, parts, hparts⟩ := List.exists_cons_of_ne_nil (List.splitOn_ne_nil sep text)
          rw [hparts] at h ih
          rcases List.mem_cons.1 h with rfl | h
          · -- The first part has got a character that is no separator.
            rw [List.mem_cons, not_or]
            exact ⟨fun heq => hx (by rw [heq, beq_self_eq_true]), ih List.mem_cons_self⟩
          · exact ih (List.mem_cons_of_mem _ h)

/-- Where the parts of a text fall into two groups, a separator stands between these. -/
theorem exists_of_splitOn_eq_append (h : text.splitOn sep = first ++ second) (hfirst : first ≠ [])
    (hsecond : second ≠ []) :
    ∃ before after, text = before ++ sep :: after ∧ before.splitOn sep = first ∧ before = [sep].intercalate first := by
  refine ⟨[sep].intercalate first, [sep].intercalate second, ?_, ?_, rfl⟩
  · rw [← intercalate_append hfirst hsecond, ← h, List.intercalate_splitOn]
  · refine List.splitOn_intercalate sep (fun part hpart => ?_) hfirst
    exact not_mem_of_mem_splitOn (h ▸ List.mem_append_left second hpart)

end

/-! ### Locations -/

namespace Fragment.Search

variable {location : Location}

/-- The text of a location without backslashes. -/
theorem locationText_toList (hplain : ∀ name ∈ location, '\\' ∉ name.toList) :
    (locationText location).toList = ['/'].intercalate (location.map String.toList) := by
  rw [locationText, String.toList_ofList, String.toList_intercalate]
  have hsame : ∀ c ∈ ['/'].intercalate (location.map String.toList), (if c = '\\' then '/' else c) = c := by
    intro c hc
    refine if_neg fun hbackslash => ?_
    rcases mem_intercalate hc with rfl | ⟨part, hpart, hmem⟩
    · exact absurd hbackslash (by decide)
    · obtain ⟨name, hname, rfl⟩ := List.mem_map.1 hpart
      exact hplain name hname (hbackslash ▸ hmem)
  exact (List.map_congr_left hsame).trans (List.map_id' _)

/-- Names with slashes between them can be told apart. -/
theorem splitOn_names (hne : location ≠ []) (hnames : ∀ name ∈ location, FileSystem.IsEntryName name) :
    (['/'].intercalate (location.map String.toList)).splitOn '/' = location.map String.toList := by
  refine List.splitOn_intercalate '/' (fun part hpart => ?_) (by simpa using hne)
  obtain ⟨name, hname, rfl⟩ := List.mem_map.1 hpart
  exact (hnames name hname).no_slash

theorem splitOn_locationText (hne : location ≠ []) (hnames : ∀ name ∈ location, FileSystem.IsEntryName name)
    (hplain : ∀ name ∈ location, '\\' ∉ name.toList) :
    (locationText location).toList.splitOn '/' = location.map String.toList := by
  rw [locationText_toList hplain, splitOn_names hne hnames]

end Fragment.Search

/-! ### Scopes -/

namespace Scope

/-- What is around an admitted location is admitted. -/
theorem admits_of_prefix {scope : Scope} {outer location : Location} (hbegin : outer <+: location)
    (h : scope.admits location = true) : scope.admits outer = true := by
  rw [admits, List.any_eq_true] at h ⊢
  obtain ⟨start, hstart, hboth⟩ := h
  refine ⟨start, hstart, ?_⟩
  simp only [Bool.or_eq_true, List.isPrefixOf_iff_prefix] at hboth ⊢
  rcases hboth with hon | hbelow
  · exact .inl (hbegin.trans hon)
  · -- Both are on the way to the same location, so one of them is on the way to the other.
    exact List.prefix_or_prefix_of_prefix hbegin hbelow

theorem admits_of_mem {patterns : List String} {pattern : String} {location : Location} (hmem : pattern ∈ patterns)
    (h : literalStart pattern <+: location ∨ location <+: literalStart pattern) :
    (ofPatterns patterns).admits location = true := by
  rw [admits, List.any_eq_true]
  refine ⟨literalStart pattern, List.mem_map_of_mem hmem, ?_⟩
  rw [Bool.or_eq_true, List.isPrefixOf_iff_prefix, List.isPrefixOf_iff_prefix]
  exact h.symm

/-- The parts of a pattern are what its slashes divide it into. -/
theorem parts_eq (pattern : String) : parts pattern = pattern.toList.splitOn '/' := by
  unfold parts
  induction pattern.toList with
  | nil => rfl
  | cons c text ih =>
      obtain ⟨head, rest, hparts⟩ := List.exists_cons_of_ne_nil (List.splitOn_ne_nil '/' text)
      rw [List.foldr_cons, ih, List.splitOn_cons_eq_if_modifyHead, hparts]
      by_cases hc : c = '/'
      · rw [hc]
        rfl
      · rw [if_neg (by simpa using hc)]
        split
        · exact absurd rfl hc
        · next heq =>
            obtain ⟨rfl, rfl⟩ := List.cons.inj heq
            rfl
        · next heq => cases heq

/-- The parts of a pattern before the first one that is a pattern. -/
def literalParts (pattern : String) : List (List Char) :=
  (parts pattern).takeWhile (!isPattern ·)

/-- The literal start keeps parts that can be names. -/
theorem literalStart_eq_of_names {pattern : String} (h : ∀ part ∈ literalParts pattern, part ≠ [] ∧ part ≠ ['.']) :
    literalStart pattern = (literalParts pattern).map String.ofList := by
  have hkeep : ∀ part ∈ literalParts pattern, (!(part.isEmpty || part == ['.'])) = true := by
    intro part hpart
    obtain ⟨hempty, hhere⟩ := h part hpart
    simpa using ⟨hempty, hhere⟩
  rw [literalStart, ← literalParts, List.filter_eq_self.2 hkeep]

/-- A literal part without a backslash consists of plain characters, whether the literal start keeps it or not. -/
theorem isPlain_of_literalParts {pattern : String} (hplain : ∀ name ∈ literalStart pattern, '\\' ∉ name.toList)
    {part : List Char} (hpart : part ∈ literalParts pattern) {c : Char} (hc : c ∈ part) : Glob.isPlain c = true := by
  have hliteral : isPattern part = false := by
    simpa using List.mem_takeWhile_imp hpart
  have hbackslash : c ≠ '\\' := by
    rintro rfl
    have hkept : (!(part.isEmpty || part == ['.'])) = true := by
      cases part with
      | nil => cases hc
      | cons first rest =>
          simp only [List.isEmpty_cons, Bool.false_or, Bool.not_eq_true', beq_eq_false_iff_ne]
          rintro heq
          rw [heq] at hc
          exact absurd hc (by decide)
    have hname : String.ofList part ∈ literalStart pattern :=
      List.mem_map_of_mem (List.mem_filter.2 ⟨hpart, hkept⟩)
    exact hplain _ hname (by rwa [String.toList_ofList])
  have hfree := List.any_eq_false.1 hliteral c hc
  simp only [Glob.isPlain]
  simp_all

/-- What a pattern accepts begins with its literal start. -/
theorem literalStart_prefix {pattern : String} {glob : Glob} {location : Location}
    (hparse : Glob.parse pattern = .ok glob) (hplain : ∀ name ∈ literalStart pattern, '\\' ∉ name.toList)
    (hne : location ≠ []) (hnames : ∀ name ∈ location, FileSystem.IsEntryName name)
    (hlocation : ∀ name ∈ location, '\\' ∉ name.toList)
    (haccepts : glob.accepts (Fragment.Search.locationText location) = true) : literalStart pattern <+: location := by
  have hsplit := Fragment.Search.splitOn_locationText hne hnames hlocation
  have hchars : ∀ c ∈ ['/'].intercalate (literalParts pattern), Glob.isPlain c = true := by
    intro c hc
    rcases mem_intercalate hc with rfl | ⟨part, hpart, hmem⟩
    · rfl
    · exact isPlain_of_literalParts hplain hpart hmem
  -- It is enough to compare the parts: none of them can then be empty or a dot, so all of them are kept.
  suffices hparts : literalParts pattern <+: location.map String.toList by
    have hkept : ∀ part ∈ literalParts pattern, part ≠ [] ∧ part ≠ ['.'] := by
      intro part hpart
      obtain ⟨name, hname, rfl⟩ := List.mem_map.1 (hparts.subset hpart)
      refine ⟨fun hempty => (hnames name hname).ne_empty ?_, fun hhere => (hnames name hname).ne_here ?_⟩
      · exact String.toList_inj.1 hempty
      · exact String.toList_inj.1 hhere
    have hmap := hparts.map String.ofList
    rw [← literalStart_eq_of_names hkept] at hmap
    simpa [List.map_map, Function.comp_def] using hmap
  have hwhole := List.takeWhile_append_dropWhile (p := (!isPattern ·)) (l := parts pattern)
  rw [← literalParts, parts_eq] at hwhole
  by_cases hnone : literalParts pattern = []
  · rw [hnone]
    exact List.nil_prefix
  by_cases hrest : (pattern.toList.splitOn '/').dropWhile (!isPattern ·) = []
  · -- All of the pattern is literal, so the location is what the pattern says.
    rw [hrest, List.append_nil] at hwhole
    have htext : pattern.toList = ['/'].intercalate (literalParts pattern) := by
      rw [hwhole, List.intercalate_splitOn]
    have hsame : literalParts pattern = location.map String.toList := by
      rw [← hsplit, Glob.eq_of_plain htext hchars hparse haccepts, ← htext, hwhole]
    exact ⟨[], by rw [List.append_nil, hsame]⟩
  · obtain ⟨before, after, htext, hbefore, rfl⟩ := exists_of_splitOn_eq_append hwhole.symm hnone hrest
    obtain ⟨more, hmore⟩ := Glob.begins_of_plain htext hchars hparse haccepts
    rw [← hsplit, ← hmore, List.append_assoc, List.singleton_append, List.splitOn_append_cons_self, hbefore]
    exact List.prefix_append _ _

end Scope

end Rulebook
