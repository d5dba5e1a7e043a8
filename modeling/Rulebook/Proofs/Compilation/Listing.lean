import Rulebook.Compilation
import Rulebook.Proofs.FileSystem.Listing
import Rulebook.Proofs.Fragment.Search
import Rulebook.Proofs.Outcome

/-!
# Base rules and the order in which directories are listed

A search walks the entries of a directory as they are listed, and fails at the first that is in its way. The files it
finds are sorted before they are read, so their order leaves no trace. This module provides:

* `Fragment.Search.find_relisted` — a search of the same files, listed in another order, finds the same paths;
* `Fragment.loadMerged_least` — reading several files in order reports the least that is no fragment; and
* `Compilation.baseRules_relisted` — so do the base rules, which name the least file that is no fragment.
-/

namespace Rulebook

namespace Fragment.Search

/-! ### Searching -/

/-- Results that list the same things list them in some order, or both tell of something that is in the way. -/
theorem Lists.sameEnd {wanted : Location → Prop} {blocked : Fault → Prop}
    {first second : Except Fault (List Location)} (hfirst : Lists wanted blocked first)
    (hsecond : Lists wanted blocked second) : SameEnd List.Perm first second := by
  cases first with
  | error fault =>
      cases second with
      | error other => exact .error fault other
      | ok others => exact absurd hfirst (hsecond.2.2 _)
  | ok files =>
      cases second with
      | error other => exact absurd hsecond (hfirst.2.2 _)
      | ok others =>
          refine .ok ((List.perm_ext_iff_of_nodup hfirst.1 hsecond.1).2 fun relative => ?_)
          rw [hfirst.2.1, hsecond.2.1]

section

variable {before after fs : FileSystem} {admits : Location → Bool} {path : Path} {relative : Location}

/-- A walk from a path lists this: nothing but the path itself, if it leads to a file, or what is below a directory. -/
def Comes (fs : FileSystem) (admits : Location → Bool) (path : Path) (relative : Location) : Prop :=
  ∃ here, fs.locate path false = .ok here ∧
    ((∃ content, fs.root.at? here = some (.file content)) ∧ relative = [] ∨
      (∃ entries, fs.root.at? here = some (.directory entries)) ∧ fs.isSealed here = false ∧
        (∃ file, Finds fs [here] here relative file) ∧ admits relative = true)

/-- A walk from a path fails for this: the path leads nowhere, or to a directory that may not be listed, or something
is in the way below the directory that it leads to. -/
inductive Fails (fs : FileSystem) (admits : Location → Bool) (path : Path) : Fault → Prop where
  | lost {error : SystemError} (hlocate : fs.locate path false = .error error) (hadmits : admits [] = true) :
      Fails fs admits path (some [], error)
  | shut {here : Location} {entries : List (String × Tree)} {fault : Fault} (hlocate : fs.locate path false = .ok here)
      (hdirectory : fs.root.at? here = some (.directory entries)) (hsealed : fs.isSealed here = true)
      (hfault : sealedRoot fs admits path = .error fault) : Fails fs admits path fault
  | below {here relative : Location} {entries : List (String × Tree)} {stop : Stop}
      (hlocate : fs.locate path false = .ok here) (hdirectory : fs.root.at? here = some (.directory entries))
      (hopen : fs.isSealed here = false) (hstops : Stops fs [here] here relative stop)
      (hcounts : stop.counts admits relative = true) : Fails fs admits path (stop.fault relative)

theorem Comes.relisted (h : before.Relisted after) (hcomes : Comes before admits path relative) :
    Comes after admits path relative := by
  obtain ⟨here, hlocate, hcomes⟩ := hcomes
  refine ⟨here, by rw [h.locate_eq, hlocate], ?_⟩
  rcases hcomes with ⟨⟨content, hfile⟩, hrelative⟩ | ⟨⟨entries, hdirectory⟩, hopen, ⟨file, hfinds⟩, hadmits⟩
  · exact .inl ⟨⟨content, h.tree.at?_file hfile⟩, hrelative⟩
  · obtain ⟨others, hothers, -⟩ := h.tree.at?_directory hdirectory
    exact .inr ⟨⟨others, hothers⟩, h.isSealed ▸ hopen, ⟨file, (finds_iff h).2 hfinds⟩, hadmits⟩

theorem sealedRoot_relisted (h : before.Relisted after) (path : Path) :
    sealedRoot after admits path = sealedRoot before admits path := by
  rw [sealedRoot, sealedRoot, h.isLink_eq]

theorem Fails.relisted {fault : Fault} (h : before.Relisted after) (hfails : Fails before admits path fault) :
    Fails after admits path fault := by
  cases hfails with
  | lost hlocate hadmits => exact .lost (by rw [h.locate_eq, hlocate]) hadmits
  | shut hlocate hdirectory hsealed hfault =>
      obtain ⟨others, hothers, -⟩ := h.tree.at?_directory hdirectory
      exact .shut (by rw [h.locate_eq, hlocate]) hothers (h.isSealed ▸ hsealed) (by rw [sealedRoot_relisted h, hfault])
  | below hlocate hdirectory hopen hstops hcounts =>
      obtain ⟨others, hothers, -⟩ := h.tree.at?_directory hdirectory
      exact .below (by rw [h.locate_eq, hlocate]) hothers (h.isSealed ▸ hopen) ((stops_iff h).2 hstops) hcounts

/-- Of a directory that may be listed, nothing but what is below it is in the way. -/
theorem fails_iff {here : Location} {entries : List (String × Tree)} (hlocate : fs.locate path false = .ok here)
    (hdirectory : fs.root.at? here = some (.directory entries)) (hopen : fs.isSealed here = false) (fault : Fault) :
    Fails fs admits path fault ↔
      ∃ relative stop, Stops fs [here] here relative stop ∧ stop.counts admits relative = true ∧
        fault = stop.fault relative := by
  constructor
  · intro hfails
    cases hfails with
    | lost hlocate' => cases hlocate.symm.trans hlocate'
    | shut hlocate' _ hsealed =>
        obtain rfl := Except.ok.inj (hlocate.symm.trans hlocate')
        exact absurd hsealed (Bool.eq_false_iff.1 hopen)
    | below hlocate' _ _ hstops hcounts =>
        obtain rfl := Except.ok.inj (hlocate.symm.trans hlocate')
        exact ⟨_, _, hstops, hcounts, rfl⟩
  · rintro ⟨relative, stop, hstops, hcounts, rfl⟩
    exact .below hlocate hdirectory hopen hstops hcounts

/-- What leads to no directory is not in the way. -/
theorem not_fails {here : Location} (hlocate : fs.locate path false = .ok here)
    (hdirectory : ∀ entries, fs.root.at? here ≠ some (.directory entries)) (fault : Fault) :
    ¬ Fails fs admits path fault := by
  intro hfails
  cases hfails with
  | lost hlocate' => cases hlocate.symm.trans hlocate'
  | shut hlocate' hnode =>
      obtain rfl := Except.ok.inj (hlocate.symm.trans hlocate')
      exact hdirectory _ hnode
  | below hlocate' hnode =>
      obtain rfl := Except.ok.inj (hlocate.symm.trans hlocate')
      exact hdirectory _ hnode

/-- A walk lists all that it can come to, or fails for one of the reasons there are, wherever its path leads. -/
theorem walk_meets (hnamed : fs.root.WellNamed) (hclosed : Closed admits) (path : Path) :
    Lists (Comes fs admits path) (Fails fs admits path) (walk fs admits path) := by
  cases hlocate : fs.locate path false with
  | error error =>
      simp only [walk, hlocate]
      split
      · next hadmits => exact .lost hlocate hadmits
      · next hadmits =>
          refine lists_nil (by simp [Comes, hlocate]) fun fault hfails => ?_
          cases hfails with
          | lost _ hadmits' => exact hadmits hadmits'
          | shut hlocate' => cases hlocate.symm.trans hlocate'
          | below hlocate' => cases hlocate.symm.trans hlocate'
  | ok here =>
      cases hnode : fs.root.at? here with
      | none =>
          simp only [walk, hlocate, hnode]
          exact lists_nil (by simp [Comes, hlocate, hnode]) (not_fails hlocate (by simp [hnode]))
      | some node =>
          cases node with
          | link target =>
              simp only [walk, hlocate, hnode]
              exact lists_nil (by simp [Comes, hlocate, hnode]) (not_fails hlocate (by simp [hnode]))
          | file content =>
              simp only [walk, hlocate, hnode]
              exact lists_singleton (by simp [Comes, hlocate, hnode]) (not_fails hlocate (by simp [hnode]))
          | directory entries =>
              cases hsealed : fs.isSealed here with
              | false =>
                  exact (walk_lists hnamed hclosed hlocate hnode hsealed).congr
                    (by simp [Comes, hlocate, hnode, hsealed]) (fails_iff hlocate hnode hsealed)
              | true =>
                  simp only [walk, hlocate, hnode, hsealed, if_true]
                  cases hresult : sealedRoot fs admits path with
                  | error fault => exact .shut hlocate hnode hsealed hresult
                  | ok files =>
                      have hnone : files = [] := by
                        simp only [sealedRoot] at hresult
                        split at hresult
                        · cases hresult
                        · split at hresult <;> cases hresult
                          rfl
                      subst hnone
                      refine lists_nil (by simp [Comes, hlocate, hnode, hsealed]) fun fault hfails => ?_
                      cases hfails with
                      | lost hlocate' => cases hlocate.symm.trans hlocate'
                      | shut _ _ _ hfault => cases hresult.symm.trans hfault
                      | below hlocate' _ hopen =>
                          obtain rfl := Except.ok.inj (hlocate.symm.trans hlocate')
                          exact absurd hsealed (Bool.eq_false_iff.1 hopen)

/-- A walk of the same files lists them in some order. -/
theorem walk_relisted (h : before.Relisted after) (hnamed : before.root.WellNamed) (hclosed : Closed admits)
    (path : Path) : SameEnd List.Perm (walk before admits path) (walk after admits path) := by
  have hafter := walk_meets (h.tree.wellNamed hnamed) hclosed path
  -- What can be come to, and what is in the way, does not depend on the order.
  refine (walk_meets hnamed hclosed path).sameEnd (hafter.congr (fun relative => ?_) fun fault => ?_)
  · exact ⟨Comes.relisted h, Comes.relisted h.symm⟩
  · exact ⟨Fails.relisted h, Fails.relisted h.symm⟩

end

/-- Files that are sorted out and put in order do not show the order they came in. -/
theorem sortOut_perm (included excluded : List Glob) {files others : List Location} (h : files.Perm others) :
    sortOut included excluded files = sortOut included excluded others := by
  refine List.Perm.eq_of_pairwise (fun a b _ _ => Location.precedes_antisymm a b)
    (List.pairwise_mergeSort Location.precedes_trans Location.precedes_total _)
    (List.pairwise_mergeSort Location.precedes_trans Location.precedes_total _) ?_
  exact (List.mergeSort_perm _ _).trans ((h.filter _).trans (List.mergeSort_perm _ _).symm)

section

variable {before after : FileSystem} {root : Path} {wanted unwanted : List String}

/-- A search of the same files finds the same paths, or fails as well. -/
theorem find_relisted (h : before.Relisted after) (hnamed : before.root.WellNamed) (root : Path)
    (wanted unwanted : List String) :
    SameEnd Eq (find before root wanted unwanted) (find after root wanted unwanted) := by
  rcases find_cases wanted unwanted with ⟨failure, hfailure⟩ | ⟨included, excluded, hwalk⟩
  · rw [hfailure, hfailure]
    exact .error failure failure
  · have hfiles := walk_relisted h hnamed (closed_scope (Scope.ofPatterns wanted)) root
    rw [hwalk, hwalk]
    generalize walk before (Scope.ofPatterns wanted).admits root = first at hfiles ⊢
    generalize walk after (Scope.ofPatterns wanted).admits root = second at hfiles ⊢
    cases hfiles with
    | error => exact .error _ _
    | ok hperm => exact .ok (by rw [sortOut_perm included excluded hperm])

/-- What a search finds are the paths of locations in ascending order. -/
theorem find_ascending {fs : FileSystem} {paths : List Path} (hnamed : fs.root.WellNamed)
    (h : find fs root wanted unwanted = .ok paths) :
    ∃ locations, paths = locations.map (pathOf root) ∧ Location.Ascending locations := by
  rcases find_cases wanted unwanted with ⟨failure, hfailure⟩ | ⟨included, excluded, hwalk⟩
  · rw [hfailure] at h
    cases h
  · have hmeets := walk_meets hnamed (closed_scope (Scope.ofPatterns wanted)) root
    rw [hwalk] at h
    cases hfiles : walk fs (Scope.ofPatterns wanted).admits root with
    | error fault =>
        rw [hfiles] at h
        cases h
    | ok files =>
        rw [hfiles] at h hmeets
        exact ⟨_, (Except.ok.inj h).symm, Location.ascending_mergeSort (hmeets.1.filter _)⟩

end

end Fragment.Search

/-! ### Reading -/

namespace Fragment

variable {before after fs : FileSystem} {path : Path} {failure : Failure}

theorem load_relisted (h : before.Relisted after) (path : Path) : load after path = load before path := by
  rw [load, load, h.readText_eq]

theorem loadMerged_relisted (h : before.Relisted after) (paths : List Path) :
    loadMerged after paths = loadMerged before paths := by
  have hall : loadAll after paths = loadAll before paths := by
    induction paths with
    | nil => rfl
    | cons path rest ih => simp only [loadAll, load_relisted h, ih]
  rw [loadMerged, loadMerged, hall]

/-- What is said of a file that is no fragment names the file. -/
theorem exists_message_of_load (h : load fs path = .error failure) : ∃ message, failure = .fragment path message := by
  unfold load at h
  split at h
  · exact ⟨_, (Except.error.inj h).symm⟩
  · split at h
    · exact ⟨_, (Except.error.inj h).symm⟩
    · cases h

/-- Reading several files fails at one of them; those before it are fragments. -/
theorem exists_of_loadAll {paths : List Path} (h : loadAll fs paths = .error failure) :
    ∃ earlier path later, paths = earlier ++ path :: later ∧
      (∀ other ∈ earlier, ∃ fragment, load fs other = .ok fragment) ∧ load fs path = .error failure := by
  induction paths with
  | nil => cases h
  | cons first rest ih =>
      rw [loadAll] at h
      cases hfirst : load fs first with
      | error error =>
          rw [hfirst] at h
          obtain rfl := Except.error.inj h
          exact ⟨[], first, rest, rfl, by simp, hfirst⟩
      | ok fragment =>
          rw [hfirst] at h
          obtain ⟨earlier, path, later, rfl, hearlier, hpath⟩ := ih (map_eq_error_iff.1 h)
          refine ⟨first :: earlier, path, later, rfl, fun other hother => ?_, hpath⟩
          rcases List.mem_cons.1 hother with rfl | hother
          · exact ⟨fragment, hfirst⟩
          · exact hearlier other hother

/-- Of locations in ascending order, the files of which are read one after the other, the least that is no fragment is
reported. -/
theorem loadMerged_least {root : Path} {locations : List Location} (hascending : Location.Ascending locations)
    (h : loadMerged fs (locations.map (Search.pathOf root)) = .error failure) :
    ∃ location ∈ locations, load fs (Search.pathOf root location) = .error failure ∧
      ∀ other ∈ locations, (∃ error, load fs (Search.pathOf root other) = .error error) →
        Location.precedes location other = true := by
  obtain ⟨earlier, path, later, hpaths, hearlier, hpath⟩ := exists_of_loadAll (map_eq_error_iff.1 h)
  obtain ⟨smaller, rest, rfl, rfl, hrest⟩ := List.map_eq_append_iff.1 hpaths
  obtain ⟨location, greater, rfl, rfl, rfl⟩ := List.map_eq_cons_iff.1 hrest
  refine ⟨location, by simp, hpath, fun other hother ⟨error, herror⟩ => ?_⟩
  rcases List.mem_append.1 hother with hsmaller | hgreater
  · obtain ⟨fragment, hfragment⟩ := hearlier _ (List.mem_map_of_mem hsmaller)
    cases hfragment.symm.trans herror
  · rcases List.mem_cons.1 hgreater with rfl | hgreater
    · simpa using Location.precedes_total other other
    · exact ((List.pairwise_cons.1 (List.pairwise_append.1 hascending).2.1).1 other hgreater).1

end Fragment

/-! ### Base rules -/

namespace Compilation

open Fragment.Search

variable {before after : FileSystem}

theorem baseRules_of_find_error {config : Config} {fs : FileSystem} {failure : Failure}
    (h : find fs config.root config.fragmentPatterns config.excludePatterns = .error failure) :
    baseRules config fs = .error failure := by
  rw [baseRules, h]
  rfl

theorem baseRules_of_find {config : Config} {fs : FileSystem} {paths : List Path}
    (h : find fs config.root config.fragmentPatterns config.excludePatterns = .ok paths) :
    baseRules config fs = (Fragment.loadMerged fs paths).map fun rules => (rules, paths.length) := by
  rw [baseRules, h]
  simp only [bind, Except.bind]
  cases Fragment.loadMerged fs paths <;> rfl

/-- Base rules do not depend on the order in which directories are listed. They are the same, rules and keys in the
same order, and from as many files; or there are none from either listing. Where a search finds files, it finds them in
ascending order from both, and if one of them is no fragment, the least of those is what both report. -/
theorem baseRules_relisted (h : before.Relisted after) (hnamed : before.root.WellNamed) (config : Config) :
    SameEnd Eq (baseRules config before) (baseRules config after) ∧
      ∀ {paths failure}, find before config.root config.fragmentPatterns config.excludePatterns = .ok paths →
        baseRules config before = .error failure →
          find after config.root config.fragmentPatterns config.excludePatterns = .ok paths ∧
            baseRules config after = .error failure ∧
              ∃ locations location message, paths = locations.map (pathOf config.root) ∧
                Location.Ascending locations ∧ location ∈ locations ∧
                  failure = .fragment (pathOf config.root location) message ∧
                    Fragment.load before (pathOf config.root location) = .error failure ∧
                      ∀ other ∈ locations,
                        (∃ error, Fragment.load before (pathOf config.root other) = .error error) →
                          Location.precedes location other = true := by
  have hsearch := find_relisted h hnamed config.root config.fragmentPatterns config.excludePatterns
  -- The same paths are read from both listings, and each file reads the same.
  have hread : ∀ {paths}, find before config.root config.fragmentPatterns config.excludePatterns = .ok paths →
      find after config.root config.fragmentPatterns config.excludePatterns = .ok paths ∧
        baseRules config after = baseRules config before := by
    intro paths hbefore
    rw [hbefore] at hsearch
    have hafter := hsearch.eq_ok
    exact ⟨hafter, by rw [baseRules_of_find hbefore, baseRules_of_find hafter, Fragment.loadMerged_relisted h]⟩
  constructor
  · cases hbefore : find before config.root config.fragmentPatterns config.excludePatterns with
    | error failure =>
        rw [hbefore] at hsearch
        obtain ⟨other, hafter⟩ := hsearch.exists_error
        rw [baseRules_of_find_error hbefore, baseRules_of_find_error hafter]
        exact .error failure other
    | ok paths =>
        rw [(hread hbefore).2]
        cases baseRules config before with
        | error failure => exact .error failure failure
        | ok base => exact .ok rfl
  · intro paths failure hbefore hfailure
    obtain ⟨hafter, hsame⟩ := hread hbefore
    obtain ⟨locations, rfl, hascending⟩ := find_ascending hnamed hbefore
    have hmerged : Fragment.loadMerged before (locations.map (pathOf config.root)) = .error failure := by
      rwa [baseRules_of_find hbefore, map_eq_error_iff] at hfailure
    obtain ⟨location, hlocation, hload, hleast⟩ := Fragment.loadMerged_least hascending hmerged
    obtain ⟨message, hmessage⟩ := Fragment.exists_message_of_load hload
    exact ⟨hafter, hsame.trans hfailure, locations, location, message, rfl, hascending, hlocation, hmessage, hload,
      hleast⟩

/-! ### Two files that are no text -/

/-- Files in the data directory that hold a byte which is in no text, as they are listed. -/
def brokenFiles (listing : List String) : FileSystem where
  root := .directory [("data", .directory (listing.map fun name => (name, .file ⟨#[255]⟩)))]
  here := []

theorem relisted_broken {listing other : List String} (h : listing.Perm other) :
    (brokenFiles listing).Relisted (brokenFiles other) := by
  refine ⟨rfl, .directory (.refl _) fun name inner outer hinner houter => ?_, rfl⟩
  obtain ⟨rfl, rfl⟩ := Prod.mk.inj (List.mem_singleton.1 hinner)
  obtain ⟨-, rfl⟩ := Prod.mk.inj (List.mem_singleton.1 houter)
  refine .directory ((h.map _).map _) fun name inner outer hinner houter => ?_
  obtain ⟨_, -, hfile⟩ := List.mem_map.1 hinner
  obtain ⟨_, -, hother⟩ := List.mem_map.1 houter
  rw [← (Prod.mk.inj hfile).2, ← (Prod.mk.inj hother).2]
  exact .file _

theorem wellNamed_broken : (brokenFiles ["b.yaml", "a.yaml"]).root.WellNamed := by
  refine Tree.everywhere_directory ⟨by decide, by decide⟩ fun entry hentry => ?_
  rw [List.mem_singleton.1 hentry]
  refine Tree.everywhere_directory ⟨by decide, by decide⟩ fun entry hentry => ?_
  obtain ⟨name, -, rfl⟩ := List.mem_map.1 hentry
  exact Tree.everywhere_file trivial

theorem find_broken : find (brokenFiles ["b.yaml", "a.yaml"]) ⟨"."⟩ ["data/**/*.yaml"] ["data/translated-*.yaml"] =
    .ok [⟨"./data/a.yaml"⟩, ⟨"./data/b.yaml"⟩] := by
  have hlocate : (brokenFiles ["b.yaml", "a.yaml"]).locate ⟨"."⟩ false = .ok [] := FileSystem.locate_here rfl
  have hwalk : walk (brokenFiles ["b.yaml", "a.yaml"]) (Scope.ofPatterns ["data/**/*.yaml"]).admits ⟨"."⟩ =
      .ok [["data", "b.yaml"], ["data", "a.yaml"]] := by
    have hadmits : (Scope.ofPatterns ["data/**/*.yaml"]).admits ["data"] = true ∧
        (Scope.ofPatterns ["data/**/*.yaml"]).admits ["data", "b.yaml"] = true ∧
          (Scope.ofPatterns ["data/**/*.yaml"]).admits ["data", "a.yaml"] = true := by decide
    rw [walk, hlocate]
    simp [brokenFiles, walkEntries, walkEntry, Place.enter, hadmits, Except.map]
  obtain ⟨included, hincluded, haccepts⟩ : ∃ included, globs ["data/**/*.yaml"] = .ok included ∧
      (anyAccepts included ["data", "a.yaml"] && anyAccepts included ["data", "b.yaml"]) = true :=
    exists_of_any (by decide +kernel)
  obtain ⟨excluded, hexcluded, hrejects⟩ : ∃ excluded, globs ["data/translated-*.yaml"] = .ok excluded ∧
      (!anyAccepts excluded ["data", "a.yaml"] && !anyAccepts excluded ["data", "b.yaml"]) = true :=
    exists_of_any (by decide +kernel)
  simp only [Bool.and_eq_true, Bool.not_eq_true'] at haccepts hrejects
  have hsorted : [["data", "b.yaml"], ["data", "a.yaml"]].mergeSort Location.precedes =
      [["data", "a.yaml"], ["data", "b.yaml"]] := by
    have hprecedes : Location.precedes ["data", "b.yaml"] ["data", "a.yaml"] = false := by decide
    simp [List.mergeSort, hprecedes]
  have hpaths : [["data", "a.yaml"], ["data", "b.yaml"]].map (pathOf ⟨"."⟩) =
      [⟨"./data/a.yaml"⟩, ⟨"./data/b.yaml"⟩] := by decide
  simp [find, hincluded, hexcluded, hwalk, bind, Except.bind, pure, Except.pure, haccepts, hrejects, hsorted, hpaths]

theorem load_broken : Fragment.load (brokenFiles ["b.yaml", "a.yaml"]) ⟨"./data/a.yaml"⟩ =
    .error (.fragment ⟨"./data/a.yaml"⟩ "stream did not contain valid UTF-8") := by
  have hread : (brokenFiles ["b.yaml", "a.yaml"]).read ⟨"./data/a.yaml"⟩ = .ok ⟨#[255]⟩ := by
    refine FileSystem.read_eq_ok_iff.2 ⟨["data", "a.yaml"], FileSystem.locate_eq_ok_iff.2 ⟨by decide, ?_⟩, rfl⟩
    have hsteps : FileSystem.steps "./data/a.yaml" = [".", "data", "a.yaml"] := by decide
    rw [hsteps]
    exact .here rfl (.enter rfl ⟨by decide, by decide, by decide⟩ rfl (by simp)
      (.enter rfl ⟨by decide, by decide, by decide⟩ rfl (by simp) (.done _ _)))
  have htext : (brokenFiles ["b.yaml", "a.yaml"]).readText ⟨"./data/a.yaml"⟩ = .error .notText := by
    rw [FileSystem.readText, hread]
    decide
  rw [Fragment.load, htext]
  rfl

/-- Both files are no fragments, and the lesser one is reported from both listings. -/
theorem baseRules_relisted_broken :
    (brokenFiles ["b.yaml", "a.yaml"]).Relisted (brokenFiles ["a.yaml", "b.yaml"]) ∧
      baseRules (.ofRoot ⟨"."⟩) (brokenFiles ["a.yaml", "b.yaml"]) =
        .error (.fragment ⟨"./data/a.yaml"⟩ "stream did not contain valid UTF-8") := by
  have h := relisted_broken (.swap "a.yaml" "b.yaml" [])
  have hfailure : baseRules (.ofRoot ⟨"."⟩) (brokenFiles ["b.yaml", "a.yaml"]) =
      .error (.fragment ⟨"./data/a.yaml"⟩ "stream did not contain valid UTF-8") := by
    rw [baseRules_of_find find_broken, Fragment.loadMerged, Fragment.loadAll, load_broken]
    rfl
  exact ⟨h, ((baseRules_relisted h wellNamed_broken (.ofRoot ⟨"."⟩)).2 find_broken hfailure).2.1⟩

end Compilation

end Rulebook
