import Rulebook.Proofs.Artifact
import Rulebook.Proofs.FileSystem.Below

/-!
# Artifacts in a directory that is missing

The directory of the artifacts is made when it is missing, and nothing else is. What a template gives for a language is
a path below that directory, though, and not only a name. This module provides:

* `Artifact.Directory.Missing` and `Artifact.Directory.Written` — the directory before, and the artifact after;
* `Artifact.Directory.Room` — what the directory has to have for an artifact; and
* `Artifact.Directory.written_iff_room` — the artifact is written exactly if the names before the last one are those of
  directories, which in a new directory means that there are none.

So a template with a slash is accepted and its artifacts cannot be written (`Artifact.Directory.nested_refused`).
-/

namespace Rulebook

namespace Artifact

namespace Directory

variable {directory : Directory} {rules : RuleSet} {language : Language} {fs after : FileSystem}
  {place : Location} {names : List String} {text : String}

/-! ### The directory before -/

/-- The directory can be made, and there was nothing in the place that it stands in then. -/
structure Missing (directory : Directory) (fs : FileSystem) (place : Location) : Prop where
  creates : (fs.createDirectories directory.path).2 = .ok ()
  leads : (directory.opened fs).locate directory.path false = .ok place
  absent : fs.root.at? place = none

/-- When the directory has been made, nothing but directories stands there and below. -/
theorem Missing.changes (h : directory.Missing fs place) (inner : Location) :
    Tree.Changes True False none ((directory.opened fs).root.at? (place ++ inner)) := by
  have hnone : fs.root.at? (place ++ inner) = none := by rw [Tree.at?_append, h.absent, Option.bind_none]
  exact hnone ▸ (directory.opened_grows fs).tree (place ++ inner)

theorem Missing.not_link (h : directory.Missing fs place) (inner : Location) (target : String) :
    (directory.opened fs).root.at? (place ++ inner) ≠ some (.link target) :=
  fun hlink => nomatch (h.changes inner).link_iff.1 hlink

theorem Missing.not_file (h : directory.Missing fs place) (inner : Location) (content : ByteArray) :
    (directory.opened fs).root.at? (place ++ inner) ≠ some (.file content) :=
  fun hfile => nomatch ((h.changes inner).file_iff id).1 hfile

theorem Missing.empty (h : directory.Missing fs place) (hup : ".." ∉ directory.path.names) :
    (directory.opened fs).root.at? place = some (.directory []) :=
  FileSystem.createDirectories_empty hup (Prod.ext rfl h.creates) h.leads h.absent

theorem Missing.write_eq (h : directory.Missing fs place) (hjson : rules.json = .ok text) (language : Language) :
    directory.write rules language fs =
      match (directory.opened fs).write (directory.destination language) text.toUTF8 with
      | .error error => (.error (.artifact (directory.destination language) error.message), directory.opened fs)
      | .ok after => (.ok (directory.destination language), after) := by
  have hcreate : fs.createDirectories directory.path = (directory.opened fs, .ok ()) := Prod.ext rfl h.creates
  cases hwrite : (directory.opened fs).write (directory.destination language) text.toUTF8 with
  | error error => simp only [write, hjson, writeText, hcreate, FileSystem.writeText, hwrite]
  | ok after => simp only [write, hjson, writeText, hcreate, FileSystem.writeText, hwrite]

/-! ### The artifact after -/

/-- The system takes the path and its names for those of a file. -/
structure Fits (destination : Path) (names : List String) : Prop where
  sound : FileSystem.pathFault? destination = none
  short : ∀ name ∈ names, name.utf8ByteSize ≤ FileSystem.longestName
  no_slash : FileSystem.endsWithSlash destination.text = false

/-- There is a directory for the last one of the names, and it has no directory of that name. -/
structure Room (root : Tree) (place : Location) (names : List String) : Prop where
  around : ∃ entries, root.at? (place ++ names.dropLast) = some (.directory entries)
  free : ∀ entries, root.at? (place ++ names) ≠ some (.directory entries)

/-- It is told where the artifact is; the text can be read there, and no other file stands at the place or below. -/
def Written (directory : Directory) (rules : RuleSet) (language : Language) (fs : FileSystem) (place : Location)
    (names : List String) (text : String) : Prop :=
  ∃ after, directory.write rules language fs = (.ok (directory.destination language), after) ∧
    after.readText (directory.destination language) = .ok text ∧
    ∀ inner content,
      after.root.at? (place ++ inner) = some (.file content) ↔ inner = names ∧ content = text.toUTF8

/-- An empty directory has room for a name, and for no path of several. -/
theorem room_empty_iff {root : Tree} (hroot : root.at? place = some (.directory [])) (hne : names ≠ []) :
    Room root place names ↔ names.length = 1 := by
  have hbelow : ∀ inner, inner ≠ [] → root.at? (place ++ inner) = none := by
    intro inner hinner
    obtain ⟨name, rest, rfl⟩ := List.exists_cons_of_ne_nil hinner
    rw [Tree.at?_append, hroot, Option.bind_some]
    exact Tree.bare_directory name rest
  obtain ⟨outer, name, rfl⟩ := (List.eq_nil_or_concat names).resolve_left hne
  rw [List.concat_eq_append, List.length_append, List.length_singleton, Nat.add_eq_right, List.length_eq_zero_iff]
  constructor
  · rintro ⟨⟨entries, haround⟩, -⟩
    rw [List.dropLast_concat] at haround
    by_contra houter
    rw [hbelow outer houter] at haround
    cases haround
  · rintro rfl
    refine ⟨⟨[], ?_⟩, fun entries h => ?_⟩
    · rw [List.nil_append, List.dropLast_singleton, List.append_nil, hroot]
    · rw [hbelow _ (by simp)] at h
      cases h

section

variable (hmissing : directory.Missing fs place)
  (hplain : FileSystem.IsPlain (Template.fill directory.template language) names) (hjson : rules.json = .ok text)

include hmissing hplain hjson

theorem written_of_room (hfits : Fits (directory.destination language) names)
    (hroom : Room (directory.opened fs).root place names) : directory.Written rules language fs place names text := by
  have hslash : FileSystem.endsWithSlash (Template.fill directory.template language) = false :=
    hplain.endsWithSlash_join directory.path ▸ hfits.no_slash
  have hnames : ∀ name ∈ names, FileSystem.IsName name := fun name hname =>
    ⟨(hplain.ordinary name hname).1, (hplain.ordinary name hname).2, hfits.short name hname⟩
  have hlocate : (directory.opened fs).locate (directory.destination language) true = .ok (place ++ names) :=
    (FileSystem.locate_join_iff hplain hslash hmissing.leads hmissing.not_link).2
      ⟨hfits.sound, rfl, hnames, hroom.around⟩
  obtain ⟨after, hafter⟩ := FileSystem.exists_write hlocate hroom.free hfits.no_slash text.toUTF8
  obtain ⟨place', hlocate', hgrows, hcontent⟩ := FileSystem.write_spec hafter
  obtain rfl := Except.ok.inj (hlocate.symm.trans hlocate')
  refine ⟨after, ?_, ?_, fun inner content => ?_⟩
  · rw [hmissing.write_eq hjson language, hafter]
  · exact FileSystem.readText_eq_ok_iff.2 ⟨_, FileSystem.read_eq_ok_iff.2 ⟨_, hgrows.locate hlocate, hcontent⟩,
      dif_pos text.isValidUTF8⟩
  · -- There was no file before, and one has been written.
    by_cases hinner : inner = names
    · subst hinner
      rw [hcontent]
      simp [eq_comm]
    · have hother : ¬ place ++ inner = place ++ names := fun h => hinner (List.append_cancel_left h)
      rw [(hgrows.tree (place ++ inner)).file_iff hother]
      exact ⟨fun hfile => absurd hfile (hmissing.not_file inner content), fun h => absurd h.1 hinner⟩

theorem room_of_ok {path : Path} (h : (directory.write rules language fs).1 = .ok path) :
    Fits (directory.destination language) names ∧ Room (directory.opened fs).root place names := by
  rw [hmissing.write_eq hjson language] at h
  cases hwrite : (directory.opened fs).write (directory.destination language) text.toUTF8 with
  | error error =>
      rw [hwrite] at h
      cases h
  | ok after =>
      have hend := FileSystem.endsWithSlash_of_write hwrite
      have hslash : FileSystem.endsWithSlash (Template.fill directory.template language) = false :=
        hplain.endsWithSlash_join directory.path ▸ hend
      obtain ⟨target, hlocate, hgrows, hcontent⟩ := FileSystem.write_spec hwrite
      obtain ⟨hsound, rfl, hnames, haround⟩ :=
        (FileSystem.locate_join_iff hplain hslash hmissing.leads hmissing.not_link).1 hlocate
      refine ⟨⟨hsound, fun name hname => (hnames name hname).size_le, hend⟩, haround, fun entries hdirectory => ?_⟩
      -- A directory would have stayed one.
      obtain ⟨inner, hinner⟩ := (hdirectory ▸ hgrows.tree (place ++ names)).exists_directory
      rw [hcontent] at hinner
      cases hinner

/-- What a template gives for a language is written below a directory that was missing exactly if the system takes it
for the path of a file and there is room for it. Else the artifact's path is told, and why not. If the directory's path
does not go up, there is room exactly if there is just one name. -/
theorem written_iff_room :
    (directory.Written rules language fs place names text ↔
      Fits (directory.destination language) names ∧ Room (directory.opened fs).root place names) ∧
    (¬ directory.Written rules language fs place names text →
      ∃ error : SystemError, (directory.write rules language fs).1 =
        .error (.artifact (directory.destination language) error.message)) ∧
    (".." ∉ directory.path.names →
      (Room (directory.opened fs).root place names ↔ names.length = 1)) := by
  have hwritten : ∀ path, (directory.write rules language fs).1 = .ok path →
      directory.Written rules language fs place names text := by
    intro path hpath
    obtain ⟨hfits, hroom⟩ := room_of_ok hmissing hplain hjson hpath
    exact written_of_room hmissing hplain hjson hfits hroom
  refine ⟨⟨?_, fun h => written_of_room hmissing hplain hjson h.1 h.2⟩, fun hnot => ?_,
    fun hup => room_empty_iff (hmissing.empty hup) hplain.ne_nil⟩
  · rintro ⟨after, hwrite, -⟩
    exact room_of_ok hmissing hplain hjson (congrArg Prod.fst hwrite)
  · have hcases := hmissing.write_eq hjson language
    cases hwrite : (directory.opened fs).write (directory.destination language) text.toUTF8 with
    | error error =>
        rw [hwrite] at hcases
        exact ⟨error, congrArg Prod.fst hcases⟩
    | ok after =>
        rw [hwrite] at hcases
        exact absurd (hwritten _ (congrArg Prod.fst hcases)) hnot

end

/-! ### A project without a directory for its artifacts -/

/-- A project before anything has been compiled. -/
def bareFiles : FileSystem where
  root := .directory []
  here := []

/-- A rule set with one rule. -/
def oneRule : RuleSet where
  entries := [("a", .string "b")]
  distinct := by decide

/-- The same with the directory for artifacts. -/
def openedFiles : FileSystem where
  root := .directory [("public", .directory [])]
  here := []

theorem createDirectories_bare : bareFiles.createDirectories ⟨"./public"⟩ = (openedFiles, .ok ()) := by
  have houter : bareFiles.outerLocation ⟨"./public"⟩ = .ok [] := by
    have hparts : (FileSystem.parts "./public").dropLast = ["."] := by decide
    refine FileSystem.outerLocation_eq_ok_iff.2 ⟨by decide, ?_, [], rfl⟩
    rw [hparts]
    exact .here rfl (.done _ _)
  have hcreate : bareFiles.createDirectory ⟨"./public"⟩ = .ok openedFiles := by
    rw [FileSystem.createDirectory, houter]
    rfl
  have hancestors : (⟨"./public"⟩ : Path).ancestors = [⟨"./public"⟩, ⟨"."⟩, ⟨""⟩] := by decide +kernel
  rw [FileSystem.createDirectories, hancestors, FileSystem.createAll, hcreate]
  rfl

theorem opened_bare (template : String) : opened ⟨⟨"./public"⟩, template⟩ bareFiles = openedFiles :=
  congrArg Prod.fst createDirectories_bare

theorem missing_bare (template : String) : Missing ⟨⟨"./public"⟩, template⟩ bareFiles ["public"] := by
  have hsteps : FileSystem.steps "./public" = [".", "public"] := by decide
  have hfault : FileSystem.pathFault? ⟨"./public"⟩ = none := by decide
  have hstart : FileSystem.start openedFiles.here "./public" = [] := by decide
  have hnode : openedFiles.root.at? ["public"] = some (.directory []) := rfl
  refine ⟨congrArg Prod.snd createDirectories_bare, ?_, rfl⟩
  rw [opened_bare]
  refine FileSystem.locate_eq_ok_iff.2 ⟨hfault, ?_⟩
  simp only [hsteps, hstart]
  exact .here rfl (.enter rfl ⟨by decide, by decide, by decide⟩ hnode (by simp) (.done _ _))

theorem written_iff_room_bare :
    let directory : Directory := ⟨⟨"./public"⟩, "co2-\x7blang\x7d.json"⟩
    directory.Missing bareFiles ["public"] ∧
      FileSystem.IsPlain (Template.fill directory.template .fr) ["co2-fr.json"] ∧
      oneRule.json = .ok "\x7b\"a\":\"b\"\x7d" ∧
      directory.Written oneRule .fr bareFiles ["public"] ["co2-fr.json"] "\x7b\"a\":\"b\"\x7d" := by
  have hmissing := missing_bare "co2-\x7blang\x7d.json"
  have hplain : FileSystem.IsPlain (Template.fill "co2-\x7blang\x7d.json" .fr) ["co2-fr.json"] :=
    ⟨by decide, by decide, by decide, by decide⟩
  have hjson : oneRule.json = .ok "\x7b\"a\":\"b\"\x7d" := rfl
  have hup : ".." ∉ (⟨"./public"⟩ : Path).names := by decide
  obtain ⟨hwritten, -, hroom⟩ := written_iff_room hmissing hplain hjson
  exact ⟨hmissing, hplain, hjson, hwritten.2 ⟨⟨by decide, by decide, by decide⟩, (hroom hup).2 rfl⟩⟩

/-- A configuration that wants a directory for each language. -/
def nestedConfig : Config :=
  { Config.ofRoot ⟨"."⟩ with artifactTemplate := "\x7blang\x7d/co2.json" }

/-- It is accepted, and nothing can be written: the directory of the language is not made. -/
theorem nested_refused :
    nestedConfig.check = .ok () ∧ (ofConfig nestedConfig).Missing bareFiles ["public"] ∧
      FileSystem.IsPlain (Template.fill nestedConfig.artifactTemplate .fr) ["fr", "co2.json"] ∧
      oneRule.json = .ok "\x7b\"a\":\"b\"\x7d" ∧
      ((ofConfig nestedConfig).write oneRule .fr bareFiles).1 =
        .error (.artifact ⟨"./public/fr/co2.json"⟩ "No such file or directory (os error 2)") := by
  have hdirectory : ofConfig nestedConfig = ⟨⟨"./public"⟩, "\x7blang\x7d/co2.json"⟩ := by
    have hpath : nestedConfig.outputPath = ⟨"./public"⟩ := by decide
    rw [ofConfig, hpath]
    rfl
  have hmissing : (ofConfig nestedConfig).Missing bareFiles ["public"] := hdirectory ▸ missing_bare _
  have hdestination : (ofConfig nestedConfig).destination .fr = ⟨"./public/fr/co2.json"⟩ := by decide
  have hlocate : openedFiles.locate ⟨"./public/fr/co2.json"⟩ true = .error .notFound := by
    have hfault : FileSystem.pathFault? ⟨"./public/fr/co2.json"⟩ = none := by decide
    have hsteps : FileSystem.steps "./public/fr/co2.json" = [".", "public", "fr", "co2.json"] := by decide
    have hpublic : FileSystem.IsName "public" := ⟨by decide, by decide, by decide⟩
    have hlanguage : FileSystem.IsName "fr" := ⟨by decide, by decide, by decide⟩
    rw [FileSystem.locate, hfault]
    simp only [hsteps]
    rw [FileSystem.follow_here rfl, FileSystem.follow_enter rfl hpublic rfl (by simp),
      FileSystem.follow_missing rfl hlanguage rfl]
    rfl
  have hjson : oneRule.json = .ok "\x7b\"a\":\"b\"\x7d" := rfl
  refine ⟨rfl, hmissing, ⟨by decide, by decide, by decide, by decide⟩, hjson, ?_⟩
  rw [hmissing.write_eq hjson .fr, hdestination, hdirectory, opened_bare, FileSystem.write, hlocate]
  rfl

end Directory

end Artifact

end Rulebook
