import Rulebook.Proofs.Path

/-!
# Places below a directory

A path that is joined to that of a directory is followed from there. Where there are no links it leads to the place that
it names, and a directory that has just been made has nothing in it. This module provides:

* `FileSystem.leads_below_iff` — where names lead from a place below which there are no links;
* `FileSystem.IsPlain` — a relative path of ordinary names, and where it leads when it is joined to another one
  (`FileSystem.locate_join_iff`); and
* `FileSystem.createDirectories_empty` — what stands in a directory that was not there.
-/

namespace Rulebook

namespace FileSystem

variable {fs : FileSystem} {root : Tree} {links : Nat} {location place target : Location} {names : List String}
  {outer : Path} {inner : String}

/-! ### Places below a place -/

theorem exists_directory_outer {outer inner : Location} {entries : List (String × Tree)}
    (h : root.at? (outer ++ inner) = some (.directory entries)) :
    ∃ around, root.at? outer = some (.directory around) := by
  cases inner with
  | nil => exact ⟨entries, List.append_nil outer ▸ h⟩
  | cons name rest => exact Tree.at?_outer (List.cons_ne_nil name rest) h

/-- A step that is neither a dot nor two is taken in a directory and, if it is no link, leads to where it says. -/
theorem Leads.entry {mayMiss : Bool} {step : String} {rest : List String} (hhere : step ≠ ".") (hup : step ≠ "..")
    (hlink : ∀ target, root.at? (place ++ [step]) ≠ some (.link target))
    (h : Leads root mayMiss links place (step :: rest) target) :
    (∃ entries, root.at? place = some (.directory entries)) ∧ IsName step ∧
      Leads root mayMiss links (place ++ [step]) rest target := by
  cases h with
  | here => exact absurd rfl hhere
  | up => exact absurd rfl hup
  | missing hdirectory hname => exact ⟨⟨_, hdirectory⟩, hname, .done _ _⟩
  | link _ _ hother => exact absurd hother (hlink _)
  | enter hdirectory hname _ _ hrest => exact ⟨⟨_, hdirectory⟩, hname, hrest⟩

/-- Where there are no links, names lead to the place that they name, if all of them but the last one are names of
directories. -/
theorem leads_below_iff (hlink : ∀ more target, root.at? (place ++ more) ≠ some (.link target)) (hne : names ≠ [])
    (hordinary : ∀ name ∈ names, name ≠ "." ∧ name ≠ "..") :
    Leads root true links place names target ↔
      target = place ++ names ∧ (∀ name ∈ names, IsName name) ∧
        ∃ entries, root.at? (place ++ names.dropLast) = some (.directory entries) := by
  induction names generalizing place with
  | nil => exact absurd rfl hne
  | cons name rest ih =>
      obtain ⟨⟨hhere, hup⟩, hrest⟩ := List.forall_mem_cons.1 hordinary
      cases rest with
      | nil =>
          rw [List.dropLast_singleton, List.append_nil, List.forall_mem_singleton]
          constructor
          · intro h
            obtain ⟨hdirectory, hname, hend⟩ := h.entry hhere hup (hlink [name])
            cases hend
            exact ⟨rfl, hname, hdirectory⟩
          · rintro ⟨rfl, hname, entries, hdirectory⟩
            -- The last name may be free.
            cases hnode : root.at? (place ++ [name]) with
            | none => exact .missing hdirectory hname hnode rfl
            | some node =>
                refine .enter hdirectory hname hnode ?_ (.done _ _)
                rintro target rfl
                exact hlink [name] target hnode
      | cons next rest =>
          have hbelow : ∀ more target, root.at? (place ++ [name] ++ more) ≠ some (.link target) := by
            intro more
            rw [List.append_assoc]
            exact hlink ([name] ++ more)
          have hinner := ih hbelow (List.cons_ne_nil next rest) hrest
          rw [List.append_assoc, List.singleton_append] at hinner
          rw [List.forall_mem_cons, List.dropLast_cons_of_ne_nil (List.cons_ne_nil next rest),
            List.append_cons place name (next :: rest).dropLast]
          constructor
          · intro h
            obtain ⟨-, hname, hleads⟩ := h.entry hhere hup (hlink [name])
            obtain ⟨htarget, hnames, hdirectory⟩ := hinner.1 hleads
            exact ⟨htarget, ⟨hname, hnames⟩, hdirectory⟩
          · rintro ⟨htarget, ⟨hname, hnames⟩, entries, hdirectory⟩
            -- What stands around a directory are directories, so the first name is that of one.
            obtain ⟨entered, hentered⟩ := exists_directory_outer hdirectory
            obtain ⟨around, haround⟩ := exists_directory_outer hentered
            exact .enter haround hname hentered (by simp) (hinner.2 ⟨htarget, hnames, entries, hdirectory⟩)

/-! ### Relative paths of names -/

theorem start_congr {path other : Path} (h : path.isAbsolute = other.isAbsolute) (here : Location) :
    start here path.text = start here other.text := by
  rw [Path.isAbsolute, Path.isAbsolute] at h
  rw [start, start, h]

/-- A relative path with ordinary names as its parts. -/
structure IsPlain (text : String) (names : List String) : Prop where
  relative : (⟨text⟩ : Path).isAbsolute = false
  parts_eq : parts text = names
  ne_nil : names ≠ []
  ordinary : ∀ name ∈ names, name ≠ "." ∧ name ≠ ".."

theorem IsPlain.ne_empty (h : IsPlain inner names) : inner ≠ "" := by
  rintro rfl
  exact h.ne_nil h.parts_eq.symm

theorem IsPlain.parts_join (h : IsPlain inner names) (outer : Path) :
    parts (outer.join inner).text = parts outer.text ++ names := by
  rw [parts, Path.text_join h.relative, Fragment.Search.parts_outerChars, ← h.parts_eq, ← parts]

theorem IsPlain.endsWithSlash_join (h : IsPlain inner names) (outer : Path) :
    endsWithSlash (outer.join inner).text = endsWithSlash inner := by
  have hne : inner.toList ≠ [] := fun hnil => h.ne_empty (String.toList_inj.1 hnil)
  rw [endsWithSlash, endsWithSlash, Path.text_join h.relative, List.getLast?_append_of_ne_nil _ hne]

/-- A path below a place without links leads to the place with its names, if the path and the names are such that the
system takes them, and all names but the last one are those of directories. -/
theorem locate_join_iff (hplain : IsPlain inner names) (hslash : endsWithSlash inner = false)
    (houter : fs.locate outer false = .ok place)
    (hlink : ∀ more target, fs.root.at? (place ++ more) ≠ some (.link target)) :
    fs.locate (outer.join inner) true = .ok target ↔
      pathFault? (outer.join inner) = none ∧ target = place ++ names ∧ (∀ name ∈ names, IsName name) ∧
        ∃ entries, fs.root.at? (place ++ names.dropLast) = some (.directory entries) := by
  obtain ⟨-, hleads⟩ := locate_eq_ok_iff.1 houter
  have hsteps : steps (outer.join inner).text = parts outer.text ++ names := by
    rw [steps, hplain.endsWithSlash_join, hslash, ← hplain.parts_join]
    rfl
  have hparts := hleads.parts
  rw [locate_eq_ok_iff, hsteps, start_congr (Path.isAbsolute_join hplain.relative)]
  refine and_congr_right fun _ => ⟨fun h => ?_, fun h => ?_⟩
  · obtain ⟨remaining, hrest⟩ := hparts.rest h
    exact (leads_below_iff hlink hplain.ne_nil hplain.ordinary).1 hrest
  · exact hparts.append fun links => (leads_below_iff hlink hplain.ne_nil hplain.ordinary).2 h

/-! ### Directories that were not there -/

/-- A search in which a dot is left out ends where it ended. -/
theorem Leads.drop_dot {names more : List String} (h : Leads root false links location (names ++ "." :: more) place) :
    Leads root false links location (names ++ more) place := by
  generalize hwhole : names ++ "." :: more = whole at h
  induction h generalizing names with
  | done => simp at hwhole
  | here hdirectory hrest ih =>
      rcases List.append_eq_cons_iff.1 hwhole with ⟨rfl, hmore⟩ | ⟨names, rfl, hmore⟩
      · obtain ⟨-, rfl⟩ := List.cons.inj hmore
        exact hrest
      · exact .here hdirectory (ih hmore.symm)
  | up hdirectory _ ih =>
      rcases List.append_eq_cons_iff.1 hwhole with ⟨rfl, hmore⟩ | ⟨names, rfl, hmore⟩
      · exact absurd (List.cons.inj hmore).1 (by decide)
      · exact .up hdirectory (ih hmore.symm)
  | missing _ _ _ hmiss => cases hmiss
  | link hdirectory hname hlink _ ih =>
      rcases List.append_eq_cons_iff.1 hwhole with ⟨rfl, hmore⟩ | ⟨names, rfl, rfl⟩
      · exact absurd (List.cons.inj hmore).1.symm hname.ne_here
      · exact .link hdirectory hname hlink (List.append_assoc _ _ _ ▸ ih (List.append_assoc _ _ _))
  | enter hdirectory hname hnode hlink _ ih =>
      rcases List.append_eq_cons_iff.1 hwhole with ⟨rfl, hmore⟩ | ⟨names, rfl, hmore⟩
      · exact absurd (List.cons.inj hmore).1.symm hname.ne_here
      · exact .enter hdirectory hname hnode hlink (ih hmore.symm)

/-- A path leads where the names in it lead. -/
theorem leads_names {path : Path} (h : fs.locate path false = .ok place) :
    Leads fs.root false greatestLinks (start fs.here path.text) path.names place := by
  have hdrop : ∀ parts names, Leads fs.root false greatestLinks (start fs.here path.text) (names ++ parts) place →
      Leads fs.root false greatestLinks (start fs.here path.text) (names ++ parts.filter (· ≠ ".")) place := by
    intro parts
    induction parts with
    | nil => exact fun names hleads => hleads
    | cons part parts ih =>
        intro names hleads
        by_cases hdot : part = "."
        · subst hdot
          rw [List.filter_cons_of_neg (by simp)]
          exact ih names hleads.drop_dot
        · rw [List.filter_cons_of_pos (by simpa using hdot), List.append_cons]
          exact ih (names ++ [part]) (List.append_cons _ _ _ ▸ hleads)
  exact hdrop (parts path.text) [] (locate_eq_ok_iff.1 h).2.parts

/-- A name that is looked up in an empty directory leads nowhere. -/
theorem not_leads_of_empty {name : String} (hempty : root.at? location = some (.directory [])) (hhere : name ≠ ".")
    (hup : name ≠ "..") : ¬ Leads root false links location [name] place := by
  intro h
  have hsome := h.isSome hhere hup
  rw [Tree.at?_append_name hempty] at hsome
  cases hsome

section

variable {made : FileSystem} {path : Path}

/-- A directory that is there when the one around it has been made, and made empty, is that one. -/
theorem empty_of_around (hparent : path.parent? = some outer) (hup : ".." ∉ path.names)
    (houter : made.locate outer false = .ok target) (hempty : made.root.at? target = some (.directory []))
    (hlocate : made.locate path false = .ok place) : made.root.at? place = some (.directory []) := by
  obtain ⟨hnames, habsolute⟩ := Path.parent?_eq_some hparent
  have hleadsOuter := hnames ▸ start_congr habsolute made.here ▸ leads_names houter
  have hleads := leads_names hlocate
  rcases path.names.eq_nil_or_concat with hnil | ⟨others, name, hconcat⟩
  · rw [hnil] at hleads hleadsOuter
    cases hleads
    cases hleadsOuter
    exact hempty
  · rw [List.concat_eq_append] at hconcat
    have hmem : name ∈ path.names := hconcat ▸ List.mem_append_right _ List.mem_cons_self
    have hhere : name ≠ "." := of_decide_eq_true (List.mem_filter.1 hmem).2
    rw [hconcat, List.dropLast_concat] at hleadsOuter
    rw [hconcat] at hleads
    obtain ⟨left, hlast⟩ := hleadsOuter.rest hleads
    exact absurd hlast (not_leads_of_empty hempty hhere fun h => hup (h ▸ hmem))

theorem createAll_singleton_empty (hpath : path.isEmpty = false) (h : fs.createAll [path] = (made, .ok ())) :
    fs.isDirectory path = true ∨
      ∃ place, made.locate path false = .ok place ∧ made.root.at? place = some (.directory []) := by
  rcases createAll_cases hpath h with ⟨before, hmade⟩ | ⟨hdirectory, -⟩ | ⟨-, hnothing, -⟩
  · exact .inr (createDirectory_empty hmade)
  · exact .inl hdirectory
  · cases (Prod.mk.inj hnothing).2

/-- A directory has been made and is empty, or it was there, unless two dots in its path lead out of what was made. -/
theorem createAll_empty {bound : Nat} (hpath : path.isEmpty = false) (hup : ".." ∉ path.names)
    (h : fs.createAll (path.ancestorsWithin bound) = (made, .ok ())) :
    fs.isDirectory path = true ∨
      ∃ place, made.locate path false = .ok place ∧ made.root.at? place = some (.directory []) := by
  induction bound generalizing path with
  | zero => exact createAll_singleton_empty hpath h
  | succ bound ih =>
      rw [Path.ancestorsWithin] at h
      cases hparent : path.parent? with
      | none =>
          rw [hparent] at h
          exact createAll_singleton_empty hpath h
      | some outer =>
          rw [hparent] at h
          rcases createAll_cases hpath h with ⟨before, hmade⟩ | ⟨hdirectory, -⟩ | ⟨hmissing, haround, hdirectory⟩
          · exact .inr (createDirectory_empty hmade)
          · exact .inl hdirectory
          · obtain ⟨place, entries, hlocate, -⟩ := isDirectory_iff.1 hdirectory
            -- The directory was not there, so the one around it was not either.
            have hchanged : made ≠ fs := by
              rintro rfl
              obtain ⟨error, herror, hne⟩ := createDirectory_of_locate hlocate
              exact hne (Except.error.inj (herror.symm.trans hmissing))
            obtain ⟨around, hancestors⟩ := exists_ancestorsWithin bound outer
            have houter : outer.isEmpty = false := by
              refine Bool.eq_false_iff.2 fun hempty => hchanged ?_
              rw [hancestors, createAll, if_pos hempty] at haround
              exact (Prod.mk.inj haround).1.symm
            have hupOuter : ".." ∉ outer.names := by
              rw [(Path.parent?_eq_some hparent).1]
              exact fun hmem => hup ((List.dropLast_sublist _).subset hmem)
            rcases ih houter hupOuter haround with hthere | ⟨target, htarget, hempty⟩
            · rw [hancestors, createAll_of_isDirectory hthere] at haround
              exact absurd (Prod.mk.inj haround).1.symm hchanged
            · exact .inr ⟨place, hlocate, empty_of_around hparent hup htarget hempty hlocate⟩

/-- What was not there is empty when it has been made, unless two dots in its path lead out of what was made. -/
theorem createDirectories_empty (hup : ".." ∉ path.names) (h : fs.createDirectories path = (made, .ok ()))
    (hlocate : made.locate path false = .ok place) (habsent : fs.root.at? place = none) :
    made.root.at? place = some (.directory []) := by
  have hpath : path.isEmpty = false := by
    have hne := text_ne_empty (locate_eq_ok_iff.1 hlocate).1
    simpa [Path.isEmpty] using hne
  rcases createAll_empty hpath hup h with hthere | ⟨target, htarget, hempty⟩
  · obtain ⟨old, entries, hold, hdirectory⟩ := isDirectory_iff.1 hthere
    have hmade : made = fs := (Prod.mk.inj (h.symm.trans (createDirectories_of_isDirectory hthere))).1
    rw [hmade, hold] at hlocate
    rw [Except.ok.inj hlocate, habsent] at hdirectory
    cases hdirectory
  · rwa [Except.ok.inj (hlocate.symm.trans htarget)]

end

end FileSystem

end Rulebook
