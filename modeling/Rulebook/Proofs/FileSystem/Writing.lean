import Rulebook.Proofs.FileSystem.Places

/-!
# What writing does to a file system

Files are written, directories are made, and all else stays. This module provides:

* `FileSystem.Grows` — growth of a file system, which keeps every place that has been located (`Grows.locate`);
* `FileSystem.SameFile` — two paths that lead to one place;
* reading as a matter of the place alone (`read_eq_ok_iff`, `read_of_locate`), and `FileSystem.content?`; and
* when `write` succeeds and what it does (`exists_write`, `write_spec`).
-/

namespace Rulebook

namespace FileSystem

variable {fs before middle after : FileSystem} {path other : Path} {mayMiss : Bool} {place : Location}

/-! ### Locating -/

theorem partsFrom_ne_nil {reversed chars : List Char} (h : reversed ≠ [] ∨ ∃ c ∈ chars, c ≠ '/') :
    partsFrom reversed chars ≠ [] := by
  induction chars generalizing reversed with
  | nil =>
      have hne : reversed ≠ [] := by simpa using h
      simp [partsFrom, hne]
  | cons c rest ih =>
      rw [partsFrom]
      by_cases hc : c = '/'
      · by_cases hne : reversed = []
        · subst hne
          rw [if_pos hc]
          exact ih (by simpa [hc] using h)
        · simp [hc, hne]
      · rw [if_neg hc]
        exact ih (.inl (List.cons_ne_nil c reversed))

/-- A path with a name or a slash in it has steps. -/
theorem steps_ne_nil {text : String} (h : text ≠ "") : steps text ≠ [] := by
  rw [steps]
  split
  · simp
  · rename_i hslash
    rw [endsWithSlash] at hslash
    refine partsFrom_ne_nil (.inr ?_)
    have hne : text.toList ≠ [] := by simpa using h
    refine ⟨text.toList.getLast hne, List.getLast_mem hne, ?_⟩
    intro hlast
    rw [List.getLast?_eq_some_getLast hne, hlast] at hslash
    exact hslash (by decide)

theorem locate_eq_ok_iff :
    fs.locate path mayMiss = .ok place ↔ pathFault? path = none ∧
      Leads fs.root mayMiss greatestLinks (start fs.here path.text) (steps path.text) place := by
  rw [locate]
  cases hfault : pathFault? path with
  | some error => simp
  | none => simp [follow_eq_ok_iff]

theorem text_ne_empty (h : pathFault? path = none) : path.text ≠ "" := by
  intro hempty
  rw [pathFault?, Path.isEmpty, hempty] at h
  simp at h

/-- What can be located is a directory or stands in one. -/
theorem standing_of_locate (h : fs.locate path mayMiss = .ok place) : Standing fs.root place := by
  obtain ⟨hfault, hleads⟩ := locate_eq_ok_iff.1 h
  exact hleads.standing (.inl (steps_ne_nil (text_ne_empty hfault)))

theorem locate_missable (h : fs.locate path false = .ok place) : fs.locate path true = .ok place := by
  obtain ⟨hfault, hleads⟩ := locate_eq_ok_iff.1 h
  exact locate_eq_ok_iff.2 ⟨hfault, hleads.missable⟩

theorem locate_present {node : Tree} (h : fs.locate path mayMiss = .ok place) (hnode : fs.root.at? place = some node) :
    fs.locate path false = .ok place := by
  obtain ⟨hfault, hleads⟩ := locate_eq_ok_iff.1 h
  exact locate_eq_ok_iff.2 ⟨hfault, hleads.present hnode⟩

/-- A dot names the working directory. -/
theorem locate_here {entries : List (String × Tree)} (h : fs.root.at? fs.here = some (.directory entries)) :
    fs.locate ⟨"."⟩ false = .ok fs.here := by
  have hsteps : steps "." = ["."] := by decide +kernel
  have hstart : start fs.here "." = fs.here := by simp [start]
  refine locate_eq_ok_iff.2 ⟨by decide +kernel, ?_⟩
  rw [hsteps, hstart]
  exact .here h (.done _ _)

/-! ### Growth -/

/-- The tree grows, and the working directory stays. -/
structure Grows (making : Prop) (writing : Location → Prop) (before after : FileSystem) : Prop where
  here : after.here = before.here
  tree : Tree.Grows making writing before.root after.root

section Grows

variable {making making' : Prop} {writing writing' : Location → Prop}

theorem Grows.refl (fs : FileSystem) : Grows making writing fs fs :=
  ⟨rfl, .refl _⟩

theorem Grows.mono (hmaking : making → making') (hwriting : ∀ location, writing location → writing' location)
    (h : Grows making writing before after) : Grows making' writing' before after :=
  ⟨h.here, h.tree.mono hmaking hwriting⟩

theorem Grows.trans (h₁ : Grows making writing before middle) (h₂ : Grows making writing middle after) :
    Grows making writing before after :=
  ⟨h₂.here.trans h₁.here, h₁.tree.trans h₂.tree⟩

/-- A place that has been located is located again. -/
theorem Grows.locate (hgrows : Grows making writing before after) (h : before.locate path mayMiss = .ok place) :
    after.locate path mayMiss = .ok place := by
  obtain ⟨hfault, hleads⟩ := locate_eq_ok_iff.1 h
  refine locate_eq_ok_iff.2 ⟨hfault, ?_⟩
  rw [hgrows.here]
  exact hleads.grows hgrows.tree

end Grows

/-- The paths lead to one place, be there a file or not. -/
def SameFile (fs : FileSystem) (path other : Path) : Prop :=
  ∃ place, fs.locate path true = .ok place ∧ fs.locate other true = .ok place

/-- One file stays one file. -/
theorem Grows.sameFile {making : Prop} {writing : Location → Prop} (hgrows : Grows making writing before after)
    (h : before.SameFile path other) : after.SameFile path other := by
  obtain ⟨place, hpath, hother⟩ := h
  exact ⟨place, hgrows.locate hpath, hgrows.locate hother⟩

/-! ### Reading -/

/-- What is read is told by the node at the place. -/
theorem read_of_locate (h : fs.locate path true = .ok place) :
    fs.read path = match fs.root.at? place with
      | some (.file content) => .ok content
      | some (.directory _) => .error .isDirectory
      | some (.link _) => .error .tooManyLinks
      | none => .error .notFound := by
  rw [read, get]
  cases hnode : fs.root.at? place with
  | some node =>
      rw [locate_present h hnode]
      simp only [bind, Except.bind, hnode]
      cases node <;> rfl
  | none =>
      obtain ⟨hfault, hleads⟩ := locate_eq_ok_iff.1 h
      rw [locate, hfault]
      rcases hleads.absent hnode with hfollow | hfollow
      · simp [hfollow, bind, Except.bind, hnode]
      · simp [hfollow, bind, Except.bind]

/-- A file is read where its path leads. -/
theorem read_eq_ok_iff {content : ByteArray} :
    fs.read path = .ok content ↔
      ∃ place, fs.locate path true = .ok place ∧ fs.root.at? place = some (.file content) := by
  rw [read, get]
  constructor
  · intro h
    cases hlocate : fs.locate path false with
    | error error =>
        rw [hlocate] at h
        cases h
    | ok place =>
        refine ⟨place, locate_missable hlocate, ?_⟩
        rw [hlocate] at h
        cases hnode : fs.root.at? place with
        | none => simp [bind, Except.bind, hnode] at h
        | some node => cases node <;> simp_all [bind, Except.bind]
  · rintro ⟨place, hlocate, hnode⟩
    rw [locate_present hlocate hnode]
    simp [bind, Except.bind, hnode]

/-- The content of the file that a path leads to, if it leads to one. -/
def content? (fs : FileSystem) (path : Path) : Option ByteArray :=
  (fs.read path).toOption

theorem content?_eq_some_iff {content : ByteArray} : fs.content? path = some content ↔ fs.read path = .ok content := by
  rw [content?]
  cases fs.read path <;> simp [Except.toOption]

theorem readText_eq_ok_iff {text : String} :
    fs.readText path = .ok text ↔ ∃ content, fs.read path = .ok content ∧ String.fromUTF8? content = some text := by
  rw [readText]
  cases fs.read path with
  | error error => simp [bind, Except.bind]
  | ok content => cases h : String.fromUTF8? content <;> simp [bind, Except.bind, h]

/-- A file that is not written keeps its content. -/
theorem Grows.read {making : Prop} {writing : Location → Prop} {content : ByteArray}
    (hgrows : Grows making writing before after)
    (hwriting : ∀ place, after.locate path true = .ok place → ¬ writing place)
    (h : before.read path = .ok content) : after.read path = .ok content := by
  obtain ⟨place, hlocate, hnode⟩ := read_eq_ok_iff.1 h
  have hlocate' := hgrows.locate hlocate
  exact read_eq_ok_iff.2 ⟨place, hlocate', ((hgrows.tree place).file_iff (hwriting place hlocate')).2 hnode⟩

theorem Grows.readText {making : Prop} {writing : Location → Prop} {text : String}
    (hgrows : Grows making writing before after)
    (hwriting : ∀ place, after.locate path true = .ok place → ¬ writing place)
    (h : before.readText path = .ok text) : after.readText path = .ok text := by
  obtain ⟨content, hread, htext⟩ := readText_eq_ok_iff.1 h
  exact readText_eq_ok_iff.2 ⟨content, hgrows.read hwriting hread, htext⟩

/-- What is read at a place that is neither written nor made a directory stays. -/
theorem Grows.read_eq {making : Prop} {writing : Location → Prop} (hgrows : Grows making writing before after)
    (hlocate : before.locate path true = .ok place) (hwriting : ¬ writing place)
    (hmaking : making → ¬ ∃ entries, after.root.at? place = some (.directory entries)) :
    after.read path = before.read path := by
  have hchanges := hgrows.tree place
  rw [read_of_locate (hgrows.locate hlocate), read_of_locate hlocate]
  generalize before.root.at? place = old at hchanges ⊢
  generalize after.root.at? place = new at hchanges hmaking ⊢
  cases hchanges with
  | made h entries => exact absurd ⟨entries, rfl⟩ (hmaking h)
  | written h => exact absurd h hwriting
  | overwritten h => exact absurd h hwriting
  | _ => rfl

/-! ### Writing -/

/-- A file put where there is none or another one. -/
theorem grows_putFile {root : Tree} {outer : Location} {name : String} {entries : List (String × Tree)}
    (houter : root.at? outer = some (.directory entries))
    (hlink : ∀ target, root.at? (outer ++ [name]) ≠ some (.link target))
    (hdirectory : ∀ inner, root.at? (outer ++ [name]) ≠ some (.directory inner)) (content : ByteArray) :
    Tree.Grows False (· = outer ++ [name]) root ((Tree.file content).put (outer ++ [name]) root) := by
  rw [Tree.at?_append_name houter] at hlink hdirectory
  cases hlookup : entries.lookup name with
  | none =>
      refine Tree.grows_put houter (Tree.bare_file content) (by simp [hlookup]) ?_
      rw [hlookup]
      exact .written rfl content
  | some node =>
      cases node with
      | file old =>
          refine Tree.grows_put houter (Tree.bare_file content) ?_ ?_
          · rintro node hnode
            obtain rfl := Option.some.inj (hlookup.symm.trans hnode)
            exact Tree.bare_file old
          · rw [hlookup]
            exact .overwritten rfl old content
      | link target => exact absurd hlookup (hlink target)
      | directory inner => exact absurd hlookup (hdirectory inner)

/-- A file is written where its path leads, and nowhere else. -/
theorem write_spec {content : ByteArray} (h : fs.write path content = .ok after) :
    ∃ place, fs.locate path true = .ok place ∧ Grows False (· = place) fs after ∧
      after.root.at? place = some (.file content) := by
  rw [write] at h
  split at h
  · cases houter : fs.outerLocation path <;> simp [houter, bind, Except.bind] at h
  · cases hlocate : fs.locate path true with
    | error error => simp [hlocate, bind, Except.bind] at h
    | ok place =>
        have hput : (∀ inner, fs.root.at? place ≠ some (.directory inner)) ∧
            after = { fs with root := (Tree.file content).put place fs.root } := by
          rw [hlocate] at h
          simp only [bind, Except.bind] at h
          split at h
          · cases h
          · rename_i hdirectory
            exact ⟨hdirectory, (Except.ok.inj h).symm⟩
        obtain ⟨hdirectory, rfl⟩ := hput
        cases standing_of_locate hlocate with
        | directory hplace => exact absurd hplace (hdirectory _)
        | entry houter hlink =>
            exact ⟨_, rfl, ⟨rfl, grows_putFile houter hlink hdirectory content⟩, Tree.at?_put_self houter _ _⟩

/-- A path that ends with a slash is not that of a file. -/
theorem endsWithSlash_of_write {content : ByteArray} (h : fs.write path content = .ok after) :
    endsWithSlash path.text = false := by
  rw [write] at h
  split at h
  · cases houter : fs.outerLocation path <;> simp [houter, bind, Except.bind] at h
  · exact Bool.eq_false_iff.2 ‹_›

/-- A file can be written where no directory stands. -/
theorem exists_write (hlocate : fs.locate path true = .ok place)
    (hdirectory : ∀ entries, fs.root.at? place ≠ some (.directory entries)) (hslash : endsWithSlash path.text = false)
    (content : ByteArray) : ∃ after, fs.write path content = .ok after := by
  refine ⟨{ fs with root := (Tree.file content).put place fs.root }, ?_⟩
  rw [write, hslash, hlocate]
  -- That it is no directory is found in the context.
  simp only [Bool.false_eq_true, if_false, bind, Except.bind]

end FileSystem

end Rulebook
