import Rulebook.Proofs.Outcome
import Rulebook.Proofs.Path.Components
import Rulebook.Settings.Search

/-!
# The nearest settings

Settings are looked for in a directory and in those around it, and the first file that is there is read. This module
provides:

* `Settings.Bare` and `Settings.Nearest` — a directory holds no settings, and a directory is the nearest that does;
* `Settings.Loads` — the three ways that reading a settings file can end, by its text; which of them the nearest file
  takes is what the search comes to (`Settings.find_eq_ok_some_iff`, `Settings.find_eq_error_iff`); and
* `Settings.find_nearest` — the search ends, and comes to the settings in the nearest directory or to the reason why
  they cannot be read, and to nothing if all directories are bare; nothing else is read.
-/

namespace Rulebook

namespace Settings

variable {fs other : FileSystem} {start directory : Path} {distance : Nat} {name : String}

/-- No file in the directory has a name that a settings file can have. -/
def Bare (fs : FileSystem) (directory : Path) : Prop :=
  ∀ name ∈ fileNames, fs.isFile (directory.join name) = false

/-- A directory, so many steps out from the start, has a settings file with the name, and none with a name that comes
first; the directories that are nearer are bare. -/
structure Nearest (fs : FileSystem) (start : Path) (distance : Nat) (directory : Path) (name : String) : Prop where
  outer : start.outer? distance = some directory
  isFile : fs.isFile (directory.join name) = true
  first : name = "rules-compiler.yml" ∨
    name = "rules-compiler.yaml" ∧ fs.isFile (directory.join "rules-compiler.yml") = false
  nearer : ∀ less < distance, ∀ around, start.outer? less = some around → Bare fs around

/-- The file systems have the same settings files, up to a distance. -/
def SameUpTo (fs other : FileSystem) (start : Path) (distance : Nat) : Prop :=
  ∀ near ≤ distance, ∀ around, start.outer? near = some around →
    ∀ name ∈ fileNames, other.isFile (around.join name) = fs.isFile (around.join name)

/-- The settings file in a directory. -/
def fileIn? (fs : FileSystem) (directory : Path) : Option Path :=
  (fileNames.map directory.join).find? fs.isFile

theorem fileIn?_eq_none_iff : fileIn? fs directory = none ↔ Bare fs directory := by
  simp [fileIn?, Bare, List.find?_eq_none]

theorem fileIn?_eq_some_iff {path : Path} :
    fileIn? fs directory = some path ↔ ∃ name, (name = "rules-compiler.yml" ∨
      name = "rules-compiler.yaml" ∧ fs.isFile (directory.join "rules-compiler.yml") = false) ∧
        fs.isFile (directory.join name) = true ∧ directory.join name = path := by
  simp only [or_and_right, exists_or, exists_eq_left, and_assoc, fileIn?, fileNames, List.map_cons, List.map_nil,
    List.find?_cons, List.find?_nil]
  cases fs.isFile (directory.join "rules-compiler.yml") with
  | true => simp
  | false => cases fs.isFile (directory.join "rules-compiler.yaml") <;> simp

theorem file?_eq (fs : FileSystem) (start : Path) : file? fs start = start.ancestors.findSome? (fileIn? fs) := by
  rw [file?, candidates, List.find?_flatMap]
  rfl

theorem file?_eq_none_iff :
    file? fs start = none ↔ ∀ distance directory, start.outer? distance = some directory → Bare fs directory := by
  simp only [file?_eq, List.findSome?_eq_none_iff, fileIn?_eq_none_iff, List.mem_iff_getElem?,
    Path.getElem?_ancestors]
  exact ⟨fun h distance directory houter => h directory ⟨distance, houter⟩,
    fun h directory ⟨distance, houter⟩ => h distance directory houter⟩

theorem file?_eq_some_iff {path : Path} :
    file? fs start = some path ↔
      ∃ distance directory name, Nearest fs start distance directory name ∧ path = directory.join name := by
  rw [file?_eq, List.findSome?_eq_some_iff]
  constructor
  · rintro ⟨nearer, directory, farther, hancestors, hfile, hnone⟩
    obtain ⟨name, hfirst, hisFile, rfl⟩ := fileIn?_eq_some_iff.1 hfile
    refine ⟨nearer.length, directory, name, ⟨?_, hisFile, hfirst, fun less hless around haround => ?_⟩, rfl⟩
    · rw [← Path.getElem?_ancestors, hancestors]
      simp
    · rw [← Path.getElem?_ancestors, hancestors, List.getElem?_append_left hless] at haround
      exact fileIn?_eq_none_iff.1 (hnone around (List.mem_of_getElem? haround))
  · rintro ⟨distance, directory, name, hnearest, rfl⟩
    have hat : start.ancestors[distance]? = some directory := by rw [Path.getElem?_ancestors, hnearest.outer]
    refine ⟨start.ancestors.take distance, directory, start.ancestors.drop (distance + 1), ?_, ?_, ?_⟩
    · obtain ⟨hlength, hget⟩ := List.getElem?_eq_some_iff.1 hat
      rw [← hget, ← List.drop_eq_getElem_cons hlength, List.take_append_drop]
    · exact fileIn?_eq_some_iff.2 ⟨name, hnearest.first, hnearest.isFile, rfl⟩
    · intro around haround
      obtain ⟨less, hless⟩ := List.mem_iff_getElem?.1 haround
      rw [List.getElem?_take] at hless
      split at hless
      · next hbelow =>
          rw [Path.getElem?_ancestors] at hless
          exact fileIn?_eq_none_iff.2 (hnearest.nearer less hbelow around hless)
      · cases hless

/-- How the reading of a settings file ends: its text cannot be read, or says no settings, or says some. -/
inductive Loads (fs : FileSystem) (path : Path) : Except Failure Settings → Prop where
  | unreadable {error : SystemError} (hread : fs.readText path = .error error) :
      Loads fs path (.error (.config ("Failed to read " ++ path.text ++ ": " ++ error.message)))
  | malformed {text : String} (hread : fs.readText path = .ok text) (hparse : parse? text = none) :
      Loads fs path (.error .malformed)
  | loaded {text : String} {settings : Settings} (hread : fs.readText path = .ok text)
      (hparse : parse? text = some settings) : Loads fs path (.ok settings)

theorem load_eq_iff {path : Path} {result : Except Failure Settings} :
    load fs path = result ↔ Loads fs path result := by
  constructor
  · rintro rfl
    cases hread : fs.readText path with
    | error error =>
        simp only [load, hread]
        exact .unreadable hread
    | ok text =>
        cases hparse : parse? text with
        | none =>
            simp only [load, hread, hparse]
            exact .malformed hread hparse
        | some settings =>
            simp only [load, hread, hparse]
            exact .loaded hread hparse
  · intro h
    cases h with
    | unreadable hread => simp only [load, hread]
    | malformed hread hparse => simp only [load, hread, hparse]
    | loaded hread hparse => simp only [load, hread, hparse]

/-- The nearest settings file is read, whatever comes of that. -/
theorem find_of_nearest (h : Nearest fs start distance directory name) :
    find fs start = (load fs (directory.join name)).map fun settings => some (directory.join name, settings) := by
  rw [find, file?_eq_some_iff.2 ⟨distance, directory, name, h, rfl⟩]

/-- Settings are found where the text of the nearest file says them. -/
theorem find_eq_ok_some_iff {path : Path} {settings : Settings} :
    find fs start = .ok (some (path, settings)) ↔ ∃ distance directory name,
      Nearest fs start distance directory name ∧ directory.join name = path ∧ Loads fs path (.ok settings) := by
  constructor
  · intro h
    rw [find] at h
    split at h
    · cases h
    · next nearest hfile =>
        obtain ⟨loaded, hload, hfound⟩ := map_eq_ok_iff.1 h
        obtain ⟨rfl, rfl⟩ := Prod.mk.inj (Option.some.inj hfound)
        obtain ⟨distance, directory, name, hnearest, rfl⟩ := file?_eq_some_iff.1 hfile
        exact ⟨distance, directory, name, hnearest, rfl, load_eq_iff.1 hload⟩
  · rintro ⟨distance, directory, name, hnearest, rfl, hloads⟩
    rw [find_of_nearest hnearest, load_eq_iff.2 hloads]
    rfl

/-- The search fails where the nearest file cannot be read or says no settings. -/
theorem find_eq_error_iff {failure : Failure} :
    find fs start = .error failure ↔ ∃ distance directory name,
      Nearest fs start distance directory name ∧ Loads fs (directory.join name) (.error failure) := by
  constructor
  · intro h
    rw [find] at h
    split at h
    · cases h
    · next nearest hfile =>
        obtain ⟨distance, directory, name, hnearest, rfl⟩ := file?_eq_some_iff.1 hfile
        exact ⟨distance, directory, name, hnearest, load_eq_iff.1 (map_eq_error_iff.1 h)⟩
  · rintro ⟨distance, directory, name, hnearest, hloads⟩
    rw [find_of_nearest hnearest, load_eq_iff.2 hloads]
    rfl

theorem find_eq_none_iff : find fs start = .ok none ↔ file? fs start = none := by
  rw [find]
  cases file? fs start with
  | none => simp
  | some path => cases hload : load fs path <;> simp [hload, Except.map]

/-- What is farther out makes no difference to what is nearest. -/
theorem Nearest.congr (h : Nearest fs start distance directory name) (hsame : SameUpTo fs other start distance) :
    Nearest other start distance directory name where
  outer := h.outer
  isFile := by
    have hname : name ∈ fileNames := by
      rcases h.first with rfl | ⟨rfl, -⟩ <;> decide
    rw [hsame distance (Nat.le_refl _) directory h.outer name hname, h.isFile]
  first := by
    rw [hsame distance (Nat.le_refl _) directory h.outer "rules-compiler.yml" (by decide)]
    exact h.first
  nearer less hless around haround other hother := by
    rw [hsame less (Nat.le_of_lt hless) around haround other hother]
    exact h.nearer less hless around haround other hother

/-- The search goes outward from the start, one component at a time, and ends at the root or at the empty path. It comes
to nothing exactly if all directories that it passes are bare. Otherwise it reads the settings file of the nearest
directory that has one, and comes to what that says or to the reason why it cannot be read. The content of no other file
makes a difference, nor do files that are farther out. -/
theorem find_nearest (fs : FileSystem) (start : Path) :
    (∀ distance directory, start.outer? distance = some directory →
      ∃ taken, taken.length = distance ∧ start.components = directory.components ++ taken) ∧
    (∃ distance outermost, start.outer? distance = some outermost ∧ outermost.parent? = none ∧
      outermost.components = if start.isAbsolute then ["/"] else []) ∧
    (find fs start = .ok none ↔ ∀ distance directory, start.outer? distance = some directory → Bare fs directory) ∧
    ((∀ distance directory, start.outer? distance = some directory → Bare fs directory) ∨
      ∃ distance directory name, Nearest fs start distance directory name ∧
        find fs start =
          ((load fs (directory.join name)).map fun settings => some (directory.join name, settings)) ∧
        ∀ other : FileSystem, SameUpTo fs other start distance →
          other.readText (directory.join name) = fs.readText (directory.join name) →
            find other start = find fs start) := by
  refine ⟨fun _ _ => Path.components_outer, start.exists_outermost, find_eq_none_iff.trans file?_eq_none_iff, ?_⟩
  cases hfile : file? fs start with
  | none => exact .inl (file?_eq_none_iff.1 hfile)
  | some path =>
      obtain ⟨distance, directory, name, hnearest, rfl⟩ := file?_eq_some_iff.1 hfile
      refine .inr ⟨distance, directory, name, hnearest, find_of_nearest hnearest, fun other hsame hread => ?_⟩
      rw [find_of_nearest hnearest, find_of_nearest (hnearest.congr hsame), load, load, hread]

end Settings

end Rulebook
