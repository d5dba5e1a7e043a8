import Rulebook.Proofs.FileSystem.Writing

/-!
# What making directories does to a file system

A path is made a directory by making one directory after the other, the outermost first. This module provides:

* `createDirectory_spec` and `createDirectories_grows` — nothing changes but that there are more directories;
* `createAll_isDirectory` — if it succeeds, the path leads to a directory; and
* `createDirectories_again` — and then there is nothing to do any more.
-/

namespace Rulebook

namespace FileSystem

variable {fs before after made : FileSystem} {path : Path} {mayMiss : Bool} {links : Nat}
  {location place : Location}

/-! ### Directories -/

theorem isDirectory_iff :
    fs.isDirectory path = true ↔
      ∃ place entries, fs.locate path false = .ok place ∧ fs.root.at? place = some (.directory entries) := by
  rw [isDirectory, get]
  cases hlocate : fs.locate path false with
  | error error => simp [bind, Except.bind]
  | ok place =>
      cases hnode : fs.root.at? place with
      | none => simp [bind, Except.bind, hnode]
      | some node => cases node <;> simp [bind, Except.bind, hnode]

/-- A directory stays one. -/
theorem Grows.isDirectory {making : Prop} {writing : Location → Prop} (hgrows : Grows making writing before after)
    (h : before.isDirectory path = true) : after.isDirectory path = true := by
  obtain ⟨place, entries, hlocate, hdirectory⟩ := isDirectory_iff.1 h
  obtain ⟨entries', hdirectory'⟩ := (hdirectory ▸ hgrows.tree place).exists_directory
  exact isDirectory_iff.2 ⟨place, entries', hgrows.locate hlocate, hdirectory'⟩

/-! ### Making one directory -/

theorem outerLocation_eq_ok_iff {outer : Location} :
    fs.outerLocation path = .ok outer ↔ pathFault? path = none ∧
      Leads fs.root false greatestLinks (start fs.here path.text) (parts path.text).dropLast outer ∧
      ∃ entries, fs.root.at? outer = some (.directory entries) := by
  rw [outerLocation]
  cases hfault : pathFault? path with
  | some error => simp [bind, Except.bind]
  | none =>
      simp only [← follow_eq_ok_iff]
      cases hfollow : follow fs.root false greatestLinks (start fs.here path.text) (parts path.text).dropLast with
      | error error => simp [bind, Except.bind]
      | ok location =>
          simp only [bind, Except.bind, true_and]
          cases hentries : (fs.root.at? location).bind Tree.entries? with
          | none =>
              simp only [reduceCtorEq, Except.ok.injEq, false_iff, not_and, not_exists]
              rintro rfl entries hdirectory
              rw [hdirectory] at hentries
              cases hentries
          | some entries =>
              simp only [Except.ok.injEq]
              constructor
              · rintro rfl
                exact ⟨rfl, entries, directory_of_entries? hentries⟩
              · exact And.left

/-- A directory is made in the directory around it, under a name that was free. -/
theorem createDirectory_spec (h : fs.createDirectory path = .ok after) :
    ∃ outer name, fs.outerLocation path = .ok outer ∧ (parts path.text).getLast? = some name ∧
      IsName name ∧ fs.root.at? (outer ++ [name]) = none ∧
      after = { fs with root := (Tree.directory []).put (outer ++ [name]) fs.root } := by
  rw [createDirectory] at h
  cases houter : fs.outerLocation path with
  | error error => simp [houter, bind, Except.bind] at h
  | ok outer =>
      simp only [houter, bind, Except.bind] at h
      cases hname : (parts path.text).getLast? with
      | none => simp [hname] at h
      | some name =>
          simp only [hname] at h
          split at h
          · cases h
          · rename_i hdots
            obtain ⟨hhere, hup⟩ := not_or.1 hdots
            split at h
            · cases h
            · rename_i hsize
              split at h
              · cases h
              · rename_i hfree
                exact ⟨outer, name, rfl, rfl, ⟨hhere, hup, Nat.le_of_not_lt hsize⟩, by simpa using hfree,
                  (Except.ok.inj h).symm⟩

theorem createDirectory_grows (h : fs.createDirectory path = .ok after) : Grows True (fun _ => False) fs after := by
  obtain ⟨outer, name, houter, -, -, hfree, rfl⟩ := createDirectory_spec h
  obtain ⟨-, -, entries, hdirectory⟩ := outerLocation_eq_ok_iff.1 houter
  rw [Tree.at?_append_name hdirectory] at hfree
  refine ⟨rfl, Tree.grows_put hdirectory Tree.bare_directory (by simp [hfree]) ?_⟩
  rw [hfree]
  exact .made trivial []

/-! ### Making directories around a path -/

/-- Making the directories around a path writes no file, whether or not all of them can be made. -/
theorem createAll_grows (paths : List Path) (fs : FileSystem) :
    Grows True (fun _ => False) fs (fs.createAll paths).1 := by
  induction paths generalizing fs with
  | nil => exact .refl fs
  | cons path outer ih =>
      rw [createAll]
      split
      · exact .refl fs
      · split
        · rename_i made hmade
          exact createDirectory_grows hmade
        · have haround := ih fs
          split
          · rename_i around error heq
            rw [heq] at haround
            exact haround
          · rename_i around heq
            rw [heq] at haround
            split
            · rename_i made hmade
              exact haround.trans (createDirectory_grows hmade)
            · exact haround
        · exact .refl fs

theorem createDirectories_grows (fs : FileSystem) (path : Path) :
    Grows True (fun _ => False) fs (fs.createDirectories path).1 :=
  createAll_grows path.ancestors fs

/-! ### Directories that are there -/

theorem steps_eq (text : String) : steps text = parts text ∨ steps text = parts text ++ ["."] := by
  rw [steps]
  split
  · exact .inr rfl
  · exact .inl rfl

/-- A directory that a search ends in, last step and all, is there. -/
theorem Leads.exists_directory {root : Tree} {name : String} (h : Leads root false links location [name] place) :
    ∃ entries, root.at? location = some (.directory entries) := by
  cases h with
  | here hdirectory _ => exact ⟨_, hdirectory⟩
  | up hdirectory _ => exact ⟨_, hdirectory⟩
  | missing hdirectory _ _ _ => exact ⟨_, hdirectory⟩
  | link hdirectory _ _ _ => exact ⟨_, hdirectory⟩
  | enter hdirectory _ _ _ _ => exact ⟨_, hdirectory⟩

/-- A name that a search may not miss is there. -/
theorem Leads.isSome {root : Tree} {name : String} (h : Leads root false links location [name] place)
    (hhere : name ≠ ".") (hup : name ≠ "..") : (root.at? (location ++ [name])).isSome = true := by
  cases h with
  | here _ _ => exact absurd rfl hhere
  | up _ _ => exact absurd rfl hup
  | missing _ _ _ hmiss => cases hmiss
  | link _ _ hlink _ => rw [hlink, Option.isSome_some]
  | enter _ _ hnode _ _ => rw [hnode, Option.isSome_some]

/-- Where a path leads already, no directory is made, and not for want of one around it. -/
theorem createDirectory_of_locate (h : fs.locate path false = .ok place) :
    ∃ error, fs.createDirectory path = .error error ∧ error ≠ .notFound := by
  obtain ⟨hfault, hleads⟩ := locate_eq_ok_iff.1 h
  obtain ⟨inner, hparts⟩ :
      ∃ inner, Leads fs.root false greatestLinks (start fs.here path.text) (parts path.text) inner := by
    rcases steps_eq path.text with hsteps | hsteps
    · exact ⟨place, hsteps ▸ hleads⟩
    · rw [hsteps] at hleads
      obtain ⟨middle, _, hmiddle, -⟩ := hleads.split
      exact ⟨middle, hmiddle⟩
  rw [createDirectory]
  rcases (parts path.text).eq_nil_or_concat with hnil | ⟨outer, name, hname⟩
  · cases houter : fs.outerLocation path with
    | error error =>
        refine ⟨error, rfl, ?_⟩
        rintro rfl
        rw [outerLocation, hfault, hnil, List.dropLast_nil, follow] at houter
        simp only [bind, Except.bind] at houter
        split at houter <;> cases houter
    | ok outer => simp [hnil, bind, Except.bind]
  · rw [List.concat_eq_append] at hname
    rw [hname] at hparts
    obtain ⟨outerPlace, remaining, houter, hlast⟩ := hparts.split
    have houterLocation : fs.outerLocation path = .ok outerPlace := by
      refine outerLocation_eq_ok_iff.2 ⟨hfault, ?_, hlast.exists_directory⟩
      rw [hname, List.dropLast_concat]
      exact houter
    rw [houterLocation, hname]
    simp only [bind, Except.bind, List.getLast?_concat]
    split
    · exact ⟨_, rfl, by simp⟩
    · rename_i hdots
      obtain ⟨hhere, hup⟩ := not_or.1 hdots
      split
      · exact ⟨_, rfl, by simp⟩
      · rw [if_pos (hlast.isSome hhere hup)]
        exact ⟨_, rfl, by simp⟩

/-- A directory that has been made is there, and nothing is in it. -/
theorem createDirectory_empty (h : fs.createDirectory path = .ok made) :
    ∃ place, made.locate path false = .ok place ∧ made.root.at? place = some (.directory []) := by
  have hgrows := createDirectory_grows h
  obtain ⟨outer, name, houter, hlast, hname, hfree, rfl⟩ := createDirectory_spec h
  obtain ⟨hfault, hleads, entries, hdirectory⟩ := outerLocation_eq_ok_iff.1 houter
  have hmade := Tree.at?_put_self hdirectory name (.directory [])
  obtain ⟨entries', hdirectory'⟩ := (hdirectory ▸ hgrows.tree outer).exists_directory
  have hsteps : ∀ links, Leads ((Tree.directory []).put (outer ++ [name]) fs.root) false links outer [name]
      (outer ++ [name]) := by
    intro links
    exact .enter hdirectory' hname hmade (by simp) (.done _ _)
  have hparts : (parts path.text).dropLast ++ [name] = parts path.text := by
    obtain ⟨init, hinit⟩ := List.getLast?_eq_some_iff.1 hlast
    rw [hinit, List.dropLast_concat]
  have hpath := hparts ▸ (hleads.grows hgrows.tree).append hsteps
  refine ⟨outer ++ [name], locate_eq_ok_iff.2 ⟨hfault, ?_⟩, hmade⟩
  rcases steps_eq path.text with heq | heq
  · rw [heq]
    exact hpath
  · rw [heq]
    exact hpath.append fun links => .here hmade (.done _ _)

theorem createDirectory_isDirectory (h : fs.createDirectory path = .ok made) : made.isDirectory path = true := by
  obtain ⟨place, hlocate, hdirectory⟩ := createDirectory_empty h
  exact isDirectory_iff.2 ⟨place, [], hlocate, hdirectory⟩

/-- The directory of a path has been made, or it was there, or it is there since those around it have been made. -/
theorem createAll_cases {outer : List Path} (hpath : path.isEmpty = false)
    (h : fs.createAll (path :: outer) = (made, .ok ())) :
    (∃ before : FileSystem, before.createDirectory path = .ok made) ∨ (fs.isDirectory path = true ∧ made = fs) ∨
      (fs.createDirectory path = .error .notFound ∧ fs.createAll outer = (made, .ok ()) ∧
        made.isDirectory path = true) := by
  rw [createAll, hpath] at h
  simp only [Bool.false_eq_true, if_false] at h
  split at h
  · rename_i fresh hfresh
    obtain rfl := (Prod.mk.inj h).1
    exact .inl ⟨fs, hfresh⟩
  · rename_i hmissing
    split at h
    · cases (Prod.mk.inj h).2
    · rename_i around haround
      split at h
      · rename_i fresh hfresh
        obtain rfl := (Prod.mk.inj h).1
        exact .inl ⟨around, hfresh⟩
      · obtain ⟨rfl, hresult⟩ := Prod.mk.inj h
        split at hresult
        · next hdirectory => exact .inr (.inr ⟨hmissing, haround, hdirectory⟩)
        · cases hresult
  · obtain ⟨rfl, hresult⟩ := Prod.mk.inj h
    split at hresult
    · next hdirectory => exact .inr (.inl ⟨hdirectory, rfl⟩)
    · cases hresult

/-- When the directories around a path have been made, the path leads to one. -/
theorem createAll_isDirectory {outer : List Path} (hpath : path.isEmpty = false)
    (h : fs.createAll (path :: outer) = (made, .ok ())) : made.isDirectory path = true := by
  rcases createAll_cases hpath h with ⟨before, hmade⟩ | ⟨hdirectory, rfl⟩ | ⟨-, -, hdirectory⟩
  · exact createDirectory_isDirectory hmade
  · exact hdirectory
  · exact hdirectory

theorem exists_ancestorsWithin (bound : Nat) (path : Path) : ∃ outer, path.ancestorsWithin bound = path :: outer := by
  cases bound with
  | zero => exact ⟨_, rfl⟩
  | succ bound =>
      rw [Path.ancestorsWithin]
      split <;> exact ⟨_, rfl⟩

theorem exists_ancestors (path : Path) : ∃ outer, path.ancestors = path :: outer :=
  exists_ancestorsWithin _ path

/-- A directory that is there need not be made. -/
theorem createAll_of_isDirectory (h : fs.isDirectory path = true) (outer : List Path) :
    fs.createAll (path :: outer) = (fs, .ok ()) := by
  obtain ⟨place, entries, hlocate, -⟩ := isDirectory_iff.1 h
  obtain ⟨error, herror, hnotFound⟩ := createDirectory_of_locate hlocate
  rw [createAll]
  split
  · rfl
  · rw [herror]
    cases error with
    | notFound => exact absurd rfl hnotFound
    | _ => rfl

theorem createDirectories_of_isDirectory (h : fs.isDirectory path = true) :
    fs.createDirectories path = (fs, .ok ()) := by
  obtain ⟨outer, houter⟩ := exists_ancestors path
  rw [createDirectories, houter]
  exact createAll_of_isDirectory h outer

/-- Once the directories have been made, there are none to make. -/
theorem createDirectories_again {making : Prop} {writing : Location → Prop}
    (h : fs.createDirectories path = (made, .ok ())) (hgrows : Grows making writing made after) :
    after.createDirectories path = (after, .ok ()) := by
  obtain ⟨outer, houter⟩ := exists_ancestors path
  cases hpath : path.isEmpty with
  | true =>
      rw [createDirectories, houter, createAll, hpath]
      rfl
  | false =>
      rw [createDirectories, houter] at h
      exact createDirectories_of_isDirectory (hgrows.isDirectory (createAll_isDirectory hpath h))

end FileSystem

end Rulebook
