import Rulebook.Artifact
import Rulebook.Proofs.FileSystem.Directories

/-!
# What writing an artifact comes to

An artifact is turned into text before any file is touched, then its directory is made, then the file is written.
This module provides:

* `Artifact.Directory.Writes` — what each of the three ways out of this leaves behind, and that there is no other
  (`writes_write`);
* `Artifact.Apart` — different languages have different files for their artifacts; and
* `Artifact.Directory.Prepared` — files in which nothing but the JSON text can go wrong (`Prepared.write_eq`), which
  writing keeps so (`Prepared.write`).
-/

namespace Rulebook

namespace Artifact

/-- Different languages have different files for their artifacts. -/
def Apart (destination : Language → Path) (languages : List Language) (fs : FileSystem) : Prop :=
  ∀ language ∈ languages, ∀ other ∈ languages, language ≠ other →
    ¬ fs.SameFile (destination language) (destination other)

/-- Files whose places are known stay apart. -/
theorem Apart.grows {destination : Language → Path} {languages : List Language} {before after : FileSystem}
    {making : Prop} {writing : Location → Prop} (h : Apart destination languages before)
    (hlocate : ∀ language ∈ languages, ∃ place, before.locate (destination language) true = .ok place)
    (hgrows : before.Grows making writing after) : Apart destination languages after := by
  rintro first hfirst second hsecond hne ⟨shared, hshared, hshared'⟩
  obtain ⟨place, hplace⟩ := hlocate first hfirst
  obtain ⟨place', hplace'⟩ := hlocate second hsecond
  obtain rfl := Except.ok.inj ((hgrows.locate hplace).symm.trans hshared)
  obtain rfl := Except.ok.inj ((hgrows.locate hplace').symm.trans hshared')
  exact h first hfirst second hsecond hne ⟨place', hplace, hplace'⟩

namespace Directory

variable {directory : Directory} {rules : RuleSet} {language : Language} {fs after : FileSystem}

/-- The result of writing rules, and the files after it. -/
inductive Writes (directory : Directory) (rules : RuleSet) (language : Language) (fs : FileSystem) :
    Except Failure Path → FileSystem → Prop where
  /-- There is nothing to write, and no file is touched. -/
  | unserialized {fault : Json.Fault} {failure : Failure} (hjson : rules.json = .error fault)
      (hfailure : failure = .artifact (directory.destination language) fault.message) :
      Writes directory rules language fs (.error failure) fs
  /-- The directory or the file cannot be made; directories around it may have been. -/
  | refused {error : SystemError} {failure : Failure} {after : FileSystem}
      (hfailure : failure = .artifact (directory.destination language) error.message)
      (hgrows : fs.Grows True (fun _ => False) after) :
      Writes directory rules language fs (.error failure) after
  /-- The text stands where the path of the artifact leads. -/
  | written {text : String} {destination : Path} {after : FileSystem} {place : Location}
      (hjson : rules.json = .ok text) (hdestination : destination = directory.destination language)
      (hlocate : after.locate destination true = .ok place)
      (hcontent : after.root.at? place = some (.file text.toUTF8)) (hgrows : fs.Grows True (· = place) after) :
      Writes directory rules language fs (.ok destination) after

theorem writes_write (directory : Directory) (rules : RuleSet) (language : Language) (fs : FileSystem) :
    Writes directory rules language fs (directory.write rules language fs).1 (directory.write rules language fs).2 := by
  rw [write]
  cases hjson : rules.json with
  | error fault => exact .unserialized hjson rfl
  | ok text =>
      have hmade := FileSystem.createDirectories_grows fs directory.path
      simp only [writeText]
      rcases hcreate : fs.createDirectories directory.path with ⟨made, result⟩
      rw [hcreate] at hmade
      cases result with
      | error error => exact .refused rfl hmade
      | ok _ =>
          cases hwrite : made.writeText (directory.destination language) text with
          | error error =>
              simp only [hwrite]
              exact .refused rfl hmade
          | ok after =>
              obtain ⟨place, hlocate, hgrows, hcontent⟩ := FileSystem.write_spec hwrite
              simp only [hwrite]
              refine .written hjson rfl (hgrows.locate hlocate) hcontent ?_
              exact (hmade.mono id fun _ => False.elim).trans (hgrows.mono False.elim fun _ => id)

/-! ### Files in which artifacts can be written -/

/-- The files with the directory of the artifacts made. -/
def opened (directory : Directory) (fs : FileSystem) : FileSystem :=
  (fs.createDirectories directory.path).1

/-- The directory of the artifacts is there or can be made; then each artifact has a file of its own, which none of
the other paths leads to, and which was there before if it is there then. -/
structure Prepared (directory : Directory) (languages : List Language) (inputs : List Path) (fs : FileSystem) :
    Prop where
  creates : (fs.createDirectories directory.path).2 = .ok ()
  writable : ∀ language ∈ languages, FileSystem.endsWithSlash (directory.destination language).text = false ∧
    ∃ place, (directory.opened fs).locate (directory.destination language) true = .ok place ∧
      ¬ ∃ entries, (directory.opened fs).root.at? place = some (.directory entries)
  apart : Apart directory.destination languages (directory.opened fs)
  known : ∀ language ∈ languages, ∀ content,
    (directory.opened fs).read (directory.destination language) = .ok content →
      fs.read (directory.destination language) = .ok content
  inputs : ∀ path ∈ inputs, ∃ place, fs.locate path true = .ok place ∧
    (¬ ∃ entries, (directory.opened fs).root.at? place = some (.directory entries)) ∧
    ∀ language ∈ languages, (directory.opened fs).locate (directory.destination language) true ≠ .ok place

section Prepared

variable {languages : List Language} {inputs : List Path} {text : String}

theorem opened_grows (directory : Directory) (fs : FileSystem) :
    fs.Grows True (fun _ => False) (directory.opened fs) :=
  FileSystem.createDirectories_grows fs directory.path

/-- Rules that have a JSON text are written where their path leads. -/
theorem Prepared.write_eq (h : directory.Prepared languages inputs fs) (hlanguage : language ∈ languages)
    (hjson : rules.json = .ok text) :
    ∃ after place, directory.write rules language fs = (.ok (directory.destination language), after) ∧
      (directory.opened fs).locate (directory.destination language) true = .ok place ∧
      (directory.opened fs).Grows False (· = place) after ∧ after.root.at? place = some (.file text.toUTF8) := by
  obtain ⟨hslash, place, hlocate, hdirectory⟩ := h.writable language hlanguage
  obtain ⟨after, hafter⟩ := FileSystem.exists_write hlocate (not_exists.1 hdirectory) hslash text.toUTF8
  obtain ⟨place', hlocate', hgrows, hcontent⟩ := FileSystem.write_spec hafter
  obtain rfl := Except.ok.inj (hlocate.symm.trans hlocate')
  refine ⟨after, place, ?_, hlocate, hgrows, hcontent⟩
  have hcreate : fs.createDirectories directory.path = (directory.opened fs, .ok ()) := Prod.ext rfl h.creates
  simp only [write, hjson, writeText, hcreate, FileSystem.writeText, hafter]

theorem write_of_unserialized {fault : Json.Fault} (hjson : rules.json = .error fault) :
    directory.write rules language fs = (.error (.artifact (directory.destination language) fault.message), fs) := by
  rw [write, hjson]

/-- A file that is written leaves room for the artifacts. -/
theorem Prepared.grown {writing : Location → Prop} (h : directory.Prepared languages inputs fs)
    (hgrows : (directory.opened fs).Grows False writing after) : directory.Prepared languages inputs after := by
  have hcreate : fs.createDirectories directory.path = (directory.opened fs, .ok ()) := Prod.ext rfl h.creates
  have hagain := FileSystem.createDirectories_again hcreate hgrows
  have hopened : directory.opened after = after := congrArg Prod.fst hagain
  -- The path of an artifact leads where it led, for it led somewhere.
  have hsame : ∀ other ∈ languages, ∀ place, after.locate (directory.destination other) true = .ok place →
      (directory.opened fs).locate (directory.destination other) true = .ok place := by
    intro other hother place hlocate
    obtain ⟨-, old, hold, -⟩ := h.writable other hother
    rwa [← (hgrows.locate hold).symm.trans hlocate]
  constructor
  · rw [hagain]
  · intro other hother
    obtain ⟨hslash, old, hold, hdirectory⟩ := h.writable other hother
    rw [hopened]
    exact ⟨hslash, old, hgrows.locate hold, mt ((hgrows.tree old).exists_directory_iff id).1 hdirectory⟩
  · rw [hopened]
    exact h.apart.grows (fun other hother => (h.writable other hother).2.imp fun _ => And.left) hgrows
  · rw [hopened]
    exact fun _ _ _ hread => hread
  · intro path hpath
    obtain ⟨input, hinput, hdirectory, hother⟩ := h.inputs path hpath
    rw [hopened]
    exact ⟨input, hgrows.locate ((directory.opened_grows fs).locate hinput),
      mt ((hgrows.tree input).exists_directory_iff id).1 hdirectory,
      fun other hmem hlocate => hother other hmem (hsame other hmem input hlocate)⟩

/-- Whatever is written, the files stay prepared. -/
theorem Prepared.write (h : directory.Prepared languages inputs fs) (hlanguage : language ∈ languages)
    (rules : RuleSet) : directory.Prepared languages inputs (directory.write rules language fs).2 := by
  cases hjson : rules.json with
  | error fault =>
      rw [write_of_unserialized hjson]
      exact h
  | ok text =>
      obtain ⟨after, place, hwrite, -, hgrows, -⟩ := h.write_eq hlanguage hjson
      rw [hwrite]
      exact h.grown hgrows

/-- The answer depends on the rules and the language alone. -/
theorem Prepared.answer (h : directory.Prepared languages inputs fs) (hlanguage : language ∈ languages)
    (rules : RuleSet) :
    (directory.write rules language fs).1 = match rules.json with
      | .error fault => .error (.artifact (directory.destination language) fault.message)
      | .ok _ => .ok (directory.destination language) := by
  cases hjson : rules.json with
  | error fault => rw [write_of_unserialized hjson]
  | ok text =>
      obtain ⟨after, place, hwrite, -⟩ := h.write_eq hlanguage hjson
      rw [hwrite]

/-- The artifact that is written holds the JSON text of the rules. -/
theorem Prepared.content (h : directory.Prepared languages inputs fs) (hlanguage : language ∈ languages)
    (rules : RuleSet) :
    (directory.write rules language fs).2.content? (directory.destination language) = match rules.json with
      | .error _ => fs.content? (directory.destination language)
      | .ok text => some text.toUTF8 := by
  cases hjson : rules.json with
  | error fault => rw [write_of_unserialized hjson]
  | ok text =>
      obtain ⟨after, place, hwrite, hplace, hgrows, hcontent⟩ := h.write_eq hlanguage hjson
      rw [hwrite]
      exact FileSystem.content?_eq_some_iff.2 (FileSystem.read_eq_ok_iff.2 ⟨place, hgrows.locate hplace, hcontent⟩)

/-- The other artifacts hold what they held. -/
theorem Prepared.other (h : directory.Prepared languages inputs fs) (hlanguage : language ∈ languages)
    {other : Language} (hother : other ∈ languages) (hne : other ≠ language) (rules : RuleSet) :
    (directory.write rules language fs).2.content? (directory.destination other) =
      fs.content? (directory.destination other) := by
  cases hjson : rules.json with
  | error fault => rw [write_of_unserialized hjson]
  | ok text =>
      obtain ⟨after, place, hwrite, hplace, hgrows, -⟩ := h.write_eq hlanguage hjson
      obtain ⟨-, old, hold, -⟩ := h.writable other hother
      have hapart : old ≠ place := by
        rintro rfl
        exact h.apart other hother language hlanguage hne ⟨old, hold, hplace⟩
      have hread := hgrows.read_eq hold hapart False.elim
      rw [hwrite, FileSystem.content?, hread, ← FileSystem.content?]
      refine Option.ext fun content => ?_
      rw [FileSystem.content?_eq_some_iff, FileSystem.content?_eq_some_iff]
      exact ⟨h.known other hother content, (directory.opened_grows fs).read fun _ _ => id⟩

/-- What is read at the other paths stays. -/
theorem Prepared.input (h : directory.Prepared languages inputs fs) (hlanguage : language ∈ languages)
    {path : Path} (hpath : path ∈ inputs) (rules : RuleSet) :
    (directory.write rules language fs).2.readText path = fs.readText path := by
  cases hjson : rules.json with
  | error fault => rw [write_of_unserialized hjson]
  | ok text =>
      obtain ⟨after, place, hwrite, hplace, hgrows, -⟩ := h.write_eq hlanguage hjson
      obtain ⟨input, hinput, hdirectory, hapart⟩ := h.inputs path hpath
      have hne : input ≠ place := by
        rintro rfl
        exact hapart language hlanguage hplace
      have hopened := (directory.opened_grows fs).locate hinput
      rw [hwrite, FileSystem.readText, FileSystem.readText, hgrows.read_eq hopened hne False.elim,
        (directory.opened_grows fs).read_eq hinput id fun _ => hdirectory]

end Prepared

end Directory

end Artifact

end Rulebook
