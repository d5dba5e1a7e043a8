import Rulebook.Proofs.FileSystem.Writing
import Rulebook.Proofs.Fragment.Walk

/-!
# What a search finds

A search walks only where one of the wanted patterns can lead. This module provides:

* the order of locations, and that different locations are different paths;
* `find_spec` — what a search finds, as a list: the files in scope that match, in order; and
* `find_agrees` — a search finds what sorting out all files below the root would find, as long as no backslash is in
  play: one in the literal start of a pattern escapes a character there, which the scope does not know, and one in
  the name of a file counts as a slash only when the file is matched.
-/

namespace Rulebook

/-- A result that passes a test is there. -/
theorem exists_of_any {ε α : Type} {result : Except ε α} {p : α → Bool} (h : result.toOption.any p = true) :
    ∃ a, result = .ok a ∧ p a = true := by
  cases result with
  | error error => cases h
  | ok a => exact ⟨a, rfl, h⟩

namespace Location

/-! ### The order of locations -/

theorem precedes_trans (first second third : Location) (h₁ : precedes first second = true)
    (h₂ : precedes second third = true) : precedes first third = true := by
  induction first generalizing second third with
  | nil => rfl
  | cons a first ih =>
      match second, third with
      | b :: second, c :: third =>
          rw [precedes] at h₁ h₂ ⊢
          split at h₁
          · next hab =>
              subst hab
              split at h₂
              · next hac =>
                  rw [if_pos hac]
                  exact ih _ _ h₁ h₂
              · next hac => rwa [if_neg hac]
          · next hab =>
              have hlt : a < c := by
                split at h₂
                · next hbc => exact hbc ▸ of_decide_eq_true h₁
                · exact String.lt_trans (of_decide_eq_true h₁) (of_decide_eq_true h₂)
              rw [if_neg (by rintro rfl; exact String.lt_irrefl a hlt)]
              exact decide_eq_true hlt

theorem precedes_total (first second : Location) : (precedes first second || precedes second first) = true := by
  induction first generalizing second with
  | nil => rfl
  | cons a first ih =>
      match second with
      | [] => rfl
      | b :: second =>
          rw [precedes, precedes]
          by_cases hab : a = b
          · rw [if_pos hab, if_pos hab.symm]
            exact ih second
          · rw [if_neg hab, if_neg (Ne.symm hab), Bool.or_eq_true, decide_eq_true_iff, decide_eq_true_iff]
            rcases String.le_total a b with hle | hle
            · exact .inl (String.not_le.1 fun h => hab (String.le_antisymm hle h))
            · exact .inr (String.not_le.1 fun h => hab (String.le_antisymm h hle))

theorem precedes_antisymm (first second : Location) (h₁ : precedes first second = true)
    (h₂ : precedes second first = true) : first = second := by
  induction first generalizing second with
  | nil =>
      cases second with
      | nil => rfl
      | cons b second => cases h₂
  | cons a first ih =>
      cases second with
      | nil => cases h₁
      | cons b second =>
          rw [precedes] at h₁ h₂
          by_cases hab : a = b
          · rw [if_pos hab] at h₁
            rw [if_pos hab.symm] at h₂
            rw [hab, ih second h₁ h₂]
          · rw [if_neg hab] at h₁
            rw [if_neg (Ne.symm hab)] at h₂
            exact absurd (of_decide_eq_true h₂) (String.lt_asymm (of_decide_eq_true h₁))

/-- In ascending order, without repetition. -/
def Ascending (locations : List Location) : Prop :=
  locations.Pairwise fun first second => precedes first second = true ∧ first ≠ second

theorem ascending_mergeSort {locations : List Location} (h : locations.Nodup) :
    Ascending (locations.mergeSort precedes) :=
  (List.pairwise_mergeSort precedes_trans precedes_total locations).and
    ((List.mergeSort_perm locations precedes).nodup_iff.2 h)

theorem Ascending.nodup {locations : List Location} (h : Ascending locations) : locations.Nodup :=
  h.imp And.right

/-- What is in ascending order is known by its members. -/
theorem Ascending.ext {locations others : List Location} (h : Ascending locations) (hothers : Ascending others)
    (hmem : ∀ location, location ∈ locations ↔ location ∈ others) : locations = others := by
  refine List.Perm.eq_of_pairwise (fun a b _ _ => precedes_antisymm a b) (h.imp And.left) (hothers.imp And.left) ?_
  exact (List.perm_ext_iff_of_nodup h.nodup hothers.nodup).2 hmem

end Location

namespace Fragment.Search

/-! ### Locations as paths -/

/-- What stands before the names in the paths of what is inside. -/
def outerChars (outer : Path) : List Char :=
  if outer.text.toList.isEmpty || outer.text.toList.getLast? == some '/' then outer.text.toList
  else outer.text.toList ++ ['/']

theorem join_toList {inner : String} (hinner : inner.toList.head? ≠ some '/') (outer : Path) :
    (outer.join inner).text.toList = outerChars outer ++ inner.toList := by
  rw [Path.join, String.toList_ofList, Path.joinChars, if_neg hinner, outerChars]
  split <;> simp

theorem join_name_toList {name : String} (hname : FileSystem.IsEntryName name) (outer : Path) :
    (outer.join name).text.toList = outerChars outer ++ name.toList :=
  join_toList (fun h => hname.no_slash (List.mem_of_mem_head? h)) outer

theorem outerChars_join {name : String} (hname : FileSystem.IsEntryName name) (outer : Path) :
    outerChars (outer.join name) = outerChars outer ++ name.toList ++ ['/'] := by
  have hne : name.toList ≠ [] := fun h => hname.ne_empty (String.toList_inj.1 h)
  have hlast : name.toList.getLast? ≠ some '/' := fun h => hname.no_slash (List.mem_of_getLast? h)
  rw [outerChars, join_name_toList hname, List.getLast?_append_of_ne_nil _ hne, if_neg (by simp [hne, hlast])]

/-- The path of a location is the names with slashes between them. -/
theorem pathOf_toList {location : Location} (hne : location ≠ [])
    (hnames : ∀ name ∈ location, FileSystem.IsEntryName name) (root : Path) :
    (pathOf root location).text.toList = outerChars root ++ ['/'].intercalate (location.map String.toList) := by
  induction location generalizing root with
  | nil => exact absurd rfl hne
  | cons name rest ih =>
      have hname := hnames name List.mem_cons_self
      cases rest with
      | nil => simpa [pathOf] using join_name_toList hname root
      | cons next rest =>
          have hothers := fun other h => hnames other (List.mem_cons_of_mem _ h)
          have hrest := ih (List.cons_ne_nil _ _) hothers (root.join name)
          rw [pathOf, List.foldl_cons, ← pathOf, hrest, outerChars_join hname]
          simp [List.intercalate_cons_cons]

theorem pathOf_inj {location other : Location} {root : Path} (hne : location ≠ []) (hother : other ≠ [])
    (hnames : ∀ name ∈ location, FileSystem.IsEntryName name) (hothers : ∀ name ∈ other, FileSystem.IsEntryName name)
    (h : pathOf root location = pathOf root other) : location = other := by
  have hchars := congrArg (fun path : Path => path.text.toList) h
  simp only [pathOf_toList hne hnames, pathOf_toList hother hothers, List.append_cancel_left_eq] at hchars
  have hmap := congrArg (List.splitOn '/') hchars
  rw [splitOn_names hne hnames, splitOn_names hother hothers] at hmap
  exact (List.map_inj_right fun a b => String.toList_inj.1).1 hmap

/-! ### Searching -/

variable {fs : FileSystem} {root : Path} {wanted unwanted : List String} {included excluded : List Glob}
  {here : Location} {entries : List (String × Tree)}

theorem closed_scope (scope : Scope) : Closed scope.admits :=
  fun houter h => Scope.admits_of_prefix houter h

/-- The locations of files that match, in order. -/
def sortOut (included excluded : List Glob) (files : List Location) : List Location :=
  (files.filter fun relative => anyAccepts included relative && !anyAccepts excluded relative).mergeSort
    Location.precedes

theorem mem_sortOut {files : List Location} {relative : Location} :
    relative ∈ sortOut included excluded files ↔
      relative ∈ files ∧ anyAccepts included relative = true ∧ anyAccepts excluded relative = false := by
  rw [sortOut, List.mem_mergeSort, List.mem_filter, Bool.and_eq_true, Bool.not_eq_true']

/-- A search fails on its patterns whatever the files are, or comes down to a walk. -/
theorem find_cases (wanted unwanted : List String) :
    (∃ failure, ∀ (fs : FileSystem) (root : Path), find fs root wanted unwanted = .error failure) ∨
      ∃ included excluded, ∀ (fs : FileSystem) (root : Path), find fs root wanted unwanted =
        match walk fs (Scope.ofPatterns wanted).admits root with
        | .error (location?, error) => .error (.traversal (location?.map (pathOf root)) error.message)
        | .ok files => .ok ((sortOut included excluded files).map (pathOf root)) := by
  cases hwanted : globs wanted with
  | error failure => exact .inl ⟨failure, fun fs root => by rw [find, hwanted]; rfl⟩
  | ok included =>
      cases hunwanted : globs unwanted with
      | error failure => exact .inl ⟨failure, fun fs root => by rw [find, hwanted, hunwanted]; rfl⟩
      | ok excluded => exact .inr ⟨included, excluded, fun fs root => by rw [find, hwanted, hunwanted]; rfl⟩

/-- What a search finds: the files in scope that match, in ascending order, if nothing is in the way that counts. -/
theorem find_spec (hnamed : fs.root.WellNamed) (hlocate : fs.locate root false = .ok here)
    (hdirectory : fs.root.at? here = some (.directory entries)) (hopen : fs.isSealed here = false)
    (hincluded : globs wanted = .ok included) (hexcluded : globs unwanted = .ok excluded)
    (hfree : ∀ relative stop, Stops fs [here] here relative stop →
      stop.counts (Scope.ofPatterns wanted).admits relative = false) :
    ∃ found, find fs root wanted unwanted = .ok (found.map (pathOf root)) ∧ Location.Ascending found ∧
      ∀ relative, relative ∈ found ↔
        (∃ file, Finds fs [here] here relative file) ∧ (Scope.ofPatterns wanted).admits relative = true ∧
          anyAccepts included relative = true ∧ anyAccepts excluded relative = false := by
  have hlists := walk_lists hnamed (closed_scope (Scope.ofPatterns wanted)) hlocate hdirectory hopen
  cases hwalk : walk fs (Scope.ofPatterns wanted).admits root with
  | error fault =>
      rw [hwalk] at hlists
      obtain ⟨relative, stop, hstops, hcounts, -⟩ := hlists
      exact absurd hcounts (Bool.eq_false_iff.1 (hfree relative stop hstops))
  | ok files =>
      rw [hwalk] at hlists
      obtain ⟨hnodup, hmem, -⟩ := hlists
      refine ⟨sortOut included excluded files, ?_, Location.ascending_mergeSort (hnodup.filter _), fun relative => ?_⟩
      · rw [find, hincluded, hexcluded]
        simp only [bind, Except.bind, hwalk]
        rfl
      · rw [mem_sortOut, hmem, and_assoc]

/-! ### Searching where patterns lead -/

/-- Each pattern is read as the glob in its place. -/
theorem readGlobs_eq_ok {patterns : List String} {read : List Glob} (h : readGlobs patterns = .ok read) :
    List.Forall₂ (fun pattern glob => Glob.parse pattern = .ok glob) patterns read := by
  induction patterns generalizing read with
  | nil =>
      cases h
      exact .nil
  | cons pattern rest ih =>
      rw [readGlobs] at h
      cases hparse : Glob.parse pattern with
      | error fault =>
          rw [hparse] at h
          cases h
      | ok first =>
          rw [hparse] at h
          cases hrest : readGlobs rest with
          | error failure =>
              rw [hrest] at h
              cases h
          | ok more =>
              rw [hrest] at h
              cases h
              exact .cons hparse (ih hrest)

theorem globs_eq_ok {patterns : List String} {read : List Glob} (h : globs patterns = .ok read) :
    List.Forall₂ (fun pattern glob => Glob.parse pattern = .ok glob) patterns read := by
  rw [globs] at h
  cases hread : readGlobs patterns with
  | error failure =>
      rw [hread] at h
      cases h
  | ok globs =>
      rw [hread] at h
      dsimp only at h
      split at h
      · cases h
      · cases h
        exact readGlobs_eq_ok hread

/-- A location matches exactly when it matches the glob of some pattern. -/
theorem anyAccepts_iff {patterns : List String} {read : List Glob} (h : globs patterns = .ok read)
    {relative : Location} :
    anyAccepts read relative = true ↔
      ∃ pattern ∈ patterns, ∃ glob, Glob.parse pattern = .ok glob ∧ glob.accepts (locationText relative) = true := by
  have hread := globs_eq_ok h
  rw [anyAccepts, List.any_eq_true]
  clear h
  induction hread with
  | nil => simp
  | cons hparse _ ih =>
      simp only [List.mem_cons, exists_eq_or_imp, ih, hparse, Except.ok.injEq, exists_eq_left']

/-- What a wanted pattern accepts is in scope. -/
theorem admits_of_anyAccepts {relative : Location} (hincluded : globs wanted = .ok included)
    (hpatterns : ∀ pattern ∈ wanted, ∀ name ∈ Scope.literalStart pattern, '\\' ∉ name.toList) (hne : relative ≠ [])
    (hnames : ∀ name ∈ relative, FileSystem.IsEntryName name) (hplain : ∀ name ∈ relative, '\\' ∉ name.toList)
    (h : anyAccepts included relative = true) : (Scope.ofPatterns wanted).admits relative = true := by
  obtain ⟨pattern, hpattern, glob, hparse, haccepts⟩ := (anyAccepts_iff hincluded).1 h
  exact Scope.admits_of_mem hpattern
    (.inl (Scope.literalStart_prefix hparse (hpatterns pattern hpattern) hne hnames hplain haccepts))

/-- A search beside a walk of everything. The search finds the files in scope that match, each path once and in
ascending order. What matches is in scope, provided that no literal start of a wanted pattern and no name of the file
has a backslash; and if this is so for all files, the search finds what is sorted out of the walk. -/
theorem find_agrees (hnamed : fs.root.WellNamed) (hlocate : fs.locate root false = .ok here)
    (hdirectory : fs.root.at? here = some (.directory entries)) (hopen : fs.isSealed here = false)
    (hincluded : globs wanted = .ok included) (hexcluded : globs unwanted = .ok excluded)
    (hfree : ∀ relative stop, ¬ Stops fs [here] here relative stop) :
    ∃ all found, walk fs (fun _ => true) root = .ok all ∧
      (∀ relative, relative ∈ all ↔ ∃ file, Finds fs [here] here relative file) ∧
      find fs root wanted unwanted = .ok (found.map (pathOf root)) ∧
      Location.Ascending found ∧ (found.map (pathOf root)).Nodup ∧
      (∀ relative, relative ∈ found ↔ relative ∈ all ∧ (Scope.ofPatterns wanted).admits relative = true ∧
        anyAccepts included relative = true ∧ anyAccepts excluded relative = false) ∧
      ((∀ pattern ∈ wanted, ∀ name ∈ Scope.literalStart pattern, '\\' ∉ name.toList) →
        (∀ relative ∈ all, (∀ name ∈ relative, '\\' ∉ name.toList) → anyAccepts included relative = true →
          (Scope.ofPatterns wanted).admits relative = true) ∧
        ((∀ relative ∈ all, ∀ name ∈ relative, '\\' ∉ name.toList) → found = sortOut included excluded all)) := by
  have hall := walk_lists hnamed (fun _ _ => rfl : Closed fun _ => true) hlocate hdirectory hopen
  cases hwalk : walk fs (fun _ => true) root with
  | error fault =>
      rw [hwalk] at hall
      obtain ⟨relative, stop, hstops, -⟩ := hall
      exact absurd hstops (hfree relative stop)
  | ok all =>
      rw [hwalk] at hall
      have hmem : ∀ relative, relative ∈ all ↔ ∃ file, Finds fs [here] here relative file :=
        fun relative => (hall.2.1 relative).trans (and_iff_left rfl)
      have hnames : ∀ {relative}, relative ∈ all → relative ≠ [] ∧ ∀ name ∈ relative, FileSystem.IsEntryName name := by
        intro relative h
        obtain ⟨file, hfinds⟩ := (hmem relative).1 h
        exact hfinds.named hnamed
      obtain ⟨found, hfind, hascending, hfound⟩ :=
        find_spec hnamed hlocate hdirectory hopen hincluded hexcluded fun relative stop h =>
          absurd h (hfree relative stop)
      simp only [← hmem] at hfound
      refine ⟨all, found, rfl, hmem, hfind, hascending, ?_, hfound, fun hpatterns => ?_⟩
      · refine hascending.nodup.map_on fun first hfirst second hsecond heq => ?_
        obtain ⟨hne, hfirst⟩ := hnames ((hfound first).1 hfirst).1
        obtain ⟨hother, hsecond⟩ := hnames ((hfound second).1 hsecond).1
        exact pathOf_inj hne hother hfirst hsecond heq
      · have hscope : ∀ relative ∈ all, (∀ name ∈ relative, '\\' ∉ name.toList) → anyAccepts included relative = true →
            (Scope.ofPatterns wanted).admits relative = true := fun relative h hplain haccepts =>
          admits_of_anyAccepts hincluded hpatterns (hnames h).1 (hnames h).2 hplain haccepts
        refine ⟨hscope, fun hplain => ?_⟩
        -- Both are in ascending order, so it is enough to compare what they hold.
        refine hascending.ext (Location.ascending_mergeSort (hall.1.filter _)) fun relative => ?_
        rw [hfound]
        refine Iff.trans ?_ mem_sortOut.symm
        constructor
        · rintro ⟨h, -, haccepts, hrejects⟩
          exact ⟨h, haccepts, hrejects⟩
        · rintro ⟨h, haccepts, hrejects⟩
          exact ⟨h, hscope relative h (hplain relative h) haccepts, haccepts, hrejects⟩

/-! ### A directory whose name has a comma -/

/-- One file, in a directory. -/
def commaFiles : FileSystem where
  root := .directory [("a,b", .directory [("x.yaml", .file "r: 1\n".toUTF8)])]
  here := []

theorem wellNamed_comma : commaFiles.root.WellNamed := by
  refine Tree.everywhere_directory ⟨by decide, by decide⟩ fun entry hentry => ?_
  rw [List.mem_singleton.1 hentry]
  refine Tree.everywhere_directory ⟨by decide, by decide⟩ fun entry hentry => ?_
  rw [List.mem_singleton.1 hentry]
  exact Tree.everywhere_file trivial

theorem not_stops_comma (relative : Location) (stop : Stop) : ¬ Stops commaFiles [[]] [] relative stop := by
  refine not_stops (Tree.everywhere_directory nofun fun entry hentry => ?_) fun _ => rfl
  rw [List.mem_singleton.1 hentry]
  refine Tree.everywhere_directory nofun fun entry hentry => ?_
  rw [List.mem_singleton.1 hentry]
  exact Tree.everywhere_file nofun

theorem finds_comma : Finds commaFiles [[]] [] ["a,b", "x.yaml"] ["a,b", "x.yaml"] :=
  .enter (.directory rfl rfl) (.entry (.file rfl))

theorem locate_comma : commaFiles.locate ⟨"."⟩ false = .ok [] :=
  FileSystem.locate_here rfl

/-- The pattern that names the directory finds the file in it. -/
theorem find_agrees_comma :
    ∃ found : List Location, find commaFiles ⟨"."⟩ ["a,b/*.yaml"] [] = .ok (found.map (pathOf ⟨"."⟩)) ∧
      ["a,b", "x.yaml"] ∈ found := by
  obtain ⟨included, hincluded, haccepts⟩ : ∃ included, globs ["a,b/*.yaml"] = .ok included ∧
      anyAccepts included ["a,b", "x.yaml"] = true :=
    exists_of_any (by decide +kernel)
  obtain ⟨all, found, -, hall, hfind, -, -, hfound, hscope⟩ := find_agrees wellNamed_comma locate_comma rfl rfl
    hincluded (show globs [] = .ok [] from rfl) not_stops_comma
  have hmem := (hall _).2 ⟨_, finds_comma⟩
  have hadmits := (hscope (by decide)).1 _ hmem (by decide) haccepts
  exact ⟨found, hfind, (hfound _).2 ⟨hmem, hadmits, haccepts, rfl⟩⟩

/-- With the comma escaped, which the glob reads as a comma all the same, the directory is out of scope. -/
theorem find_misses_comma :
    commaFiles.root.WellNamed ∧ commaFiles.locate ⟨"."⟩ false = .ok [] ∧ commaFiles.isSealed [] = false ∧
      (∀ relative stop, ¬ Stops commaFiles [[]] [] relative stop) ∧
      Finds commaFiles [[]] [] ["a,b", "x.yaml"] ["a,b", "x.yaml"] ∧
      (∃ included, globs ["a\\,b/*.yaml"] = .ok included ∧ anyAccepts included ["a,b", "x.yaml"] = true) ∧
      find commaFiles ⟨"."⟩ ["a\\,b/*.yaml"] [] = .ok [] := by
  obtain ⟨included, hincluded, haccepts⟩ : ∃ included, globs ["a\\,b/*.yaml"] = .ok included ∧
      anyAccepts included ["a,b", "x.yaml"] = true :=
    exists_of_any (by decide +kernel)
  refine ⟨wellNamed_comma, locate_comma, rfl, not_stops_comma, finds_comma, ⟨included, hincluded, haccepts⟩, ?_⟩
  have hout : (Scope.ofPatterns ["a\\,b/*.yaml"]).admits ["a,b"] = false := by decide
  have hwalk : walk commaFiles (Scope.ofPatterns ["a\\,b/*.yaml"]).admits ⟨"."⟩ = .ok [] := by
    rw [walk, locate_comma]
    simp [commaFiles, walkEntries, walkEntry, hout, Except.map]
  have hnone : globs [] = .ok [] := rfl
  simp [find, hincluded, hnone, hwalk, bind, Except.bind, pure, Except.pure]

end Fragment.Search

end Rulebook
