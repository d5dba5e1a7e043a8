import Mathlib.Data.List.Nodup
import Rulebook.Proofs.FileSystem.Growth
import Rulebook.Proofs.Scope

/-!
# What a walk comes to

A walk enters directories, those that links lead to included, but not again while it is in them. `Below` says where that
leads, without an order and without a bound: it is a relation on the files. This module provides:

* `Tree.WellNamed` — the names in each directory are names, and different ones;
* `Finds` and `Stops` — the files that can be come to, and the entries at which a walk fails: links that lead nowhere,
  directories that may not be listed, and links to such directories; and
* `walkEntries_meets` and `walk_lists` — a walk lists each admitted file that can be come to, once, or reports an entry
  at which it fails and which counts (`Stop.counts`); the bound on its depth is never felt.
-/

namespace Rulebook

namespace Tree

section

variable {name : String} {tree : Tree} {entries : List (String × Tree)}

theorem mem_of_lookup (h : entries.lookup name = some tree) : (name, tree) ∈ entries := by
  rw [lookup_eq_get?] at h
  obtain ⟨left, right, rfl, -⟩ := Entries.exists_split_of_get?_eq_some (exact_entry name) h
  simp

/-- An entry is what its name stands for, unless another one has the name too. -/
theorem lookup_of_mem (hdistinct : (entries.map Prod.fst).Nodup) (hmem : (name, tree) ∈ entries) :
    entries.lookup name = some tree := by
  induction entries with
  | nil => cases hmem
  | cons entry rest ih =>
      rw [List.map_cons, List.nodup_cons] at hdistinct
      rcases List.mem_cons.1 hmem with rfl | hrest
      · simp
      · have hne : name ≠ entry.1 := fun heq => hdistinct.1 (heq ▸ List.mem_map_of_mem (f := Prod.fst) hrest)
        rw [List.lookup_cons, beq_false_of_ne hne]
        exact ih hdistinct.2 hrest

end

/-! ### Properties of all nodes -/

/-- Every node of the tree has the property. -/
def Everywhere (P : Tree → Prop) (tree : Tree) : Prop :=
  ∀ (location : Location) (node : Tree), tree.at? location = some node → P node

theorem everywhere_file {P : Tree → Prop} {content : ByteArray} (h : P (.file content)) :
    (file content).Everywhere P := by
  intro location node hnode
  cases location with
  | nil =>
      cases hnode
      exact h
  | cons name rest => cases hnode

theorem everywhere_directory {P : Tree → Prop} {entries : List (String × Tree)} (h : P (.directory entries))
    (hentries : ∀ entry ∈ entries, entry.2.Everywhere P) : (directory entries).Everywhere P := by
  intro location node hnode
  cases location with
  | nil =>
      cases hnode
      exact h
  | cons name rest =>
      obtain ⟨_, inner, htop, hlookup, hrest⟩ := exists_entry_of_at?_cons hnode
      cases htop
      exact hentries _ (mem_of_lookup hlookup) rest node hrest

/-- The names in the directory, if it is one, are names, and different ones. -/
def NamesEntries : Tree → Prop
  | .directory entries => (entries.map Prod.fst).Nodup ∧ ∀ name ∈ entries.map Prod.fst, FileSystem.IsEntryName name
  | _ => True

/-- The names in each directory are names, and different ones. -/
def WellNamed (root : Tree) : Prop :=
  root.Everywhere NamesEntries

section

variable {root : Tree} {location : Location} {entries : List (String × Tree)}

theorem WellNamed.distinct (hnamed : root.WellNamed) (h : root.at? location = some (.directory entries)) :
    (entries.map Prod.fst).Nodup :=
  (hnamed location _ h).1

theorem WellNamed.isEntryName (hnamed : root.WellNamed) (h : root.at? location = some (.directory entries))
    {name : String} (hname : name ∈ entries.map Prod.fst) : FileSystem.IsEntryName name :=
  (hnamed location _ h).2 name hname

theorem WellNamed.isEntryName_of_at? {name : String} {node : Tree} (hnamed : root.WellNamed)
    (h : root.at? (location ++ [name]) = some node) : FileSystem.IsEntryName name := by
  obtain ⟨entries, hdirectory⟩ := at?_outer (List.cons_ne_nil name []) h
  rw [at?_append_name hdirectory] at h
  exact hnamed.isEntryName hdirectory (List.mem_map_of_mem (f := Prod.fst) (mem_of_lookup h))

/-- The entries of a directory stand one step below it. -/
theorem WellNamed.at?_entry (hnamed : root.WellNamed) (h : root.at? location = some (.directory entries)) :
    ∀ entry ∈ entries, root.at? (location ++ [entry.1]) = some entry.2 :=
  fun entry hmem => (at?_append_name h entry.1).trans (lookup_of_mem (hnamed.distinct h) hmem)

end

/-! ### Directories -/

mutual

/-- The locations of the directories of a tree that is itself at `outer`. -/
def directoriesBelow (outer : Location) : Tree → List Location
  | .directory entries => outer :: directoriesAmong outer entries
  | _ => []

/-- The locations of the directories among the entries of the directory at `outer`. -/
def directoriesAmong (outer : Location) : List (String × Tree) → List Location
  | [] => []
  | (name, tree) :: rest => directoriesBelow (outer ++ [name]) tree ++ directoriesAmong outer rest

end

mutual

theorem length_directoriesBelow (outer : Location) (tree : Tree) :
    (tree.directoriesBelow outer).length = tree.directoryCount := by
  cases tree with
  | file content => simp [directoriesBelow, directoryCount]
  | link target => simp [directoriesBelow, directoryCount]
  | directory entries => simp [directoriesBelow, directoryCount, length_directoriesAmong outer entries]

theorem length_directoriesAmong (outer : Location) (entries : List (String × Tree)) :
    (directoriesAmong outer entries).length = directoryCountAmong entries := by
  cases entries with
  | nil => simp [directoriesAmong, directoryCountAmong]
  | cons entry rest =>
      simp [directoriesAmong, directoryCountAmong, length_directoriesBelow (outer ++ [entry.1]) entry.2,
        length_directoriesAmong outer rest]

end

theorem mem_directoriesAmong {outer location : Location} {name : String} {tree : Tree}
    {entries : List (String × Tree)} (hmem : (name, tree) ∈ entries)
    (h : location ∈ tree.directoriesBelow (outer ++ [name])) : location ∈ directoriesAmong outer entries := by
  induction entries with
  | nil => cases hmem
  | cons entry rest ih =>
      rw [directoriesAmong, List.mem_append]
      rcases List.mem_cons.1 hmem with rfl | hrest
      · exact .inl h
      · exact .inr (ih hrest)

/-- Every directory that a location leads to is listed. -/
theorem mem_directoriesBelow {tree : Tree} {outer location : Location} {entries : List (String × Tree)}
    (h : tree.at? location = some (.directory entries)) : outer ++ location ∈ tree.directoriesBelow outer := by
  induction location generalizing tree outer with
  | nil =>
      cases h
      rw [List.append_nil, directoriesBelow]
      exact List.mem_cons_self
  | cons name rest ih =>
      obtain ⟨siblings, inner, rfl, hinner, hrest⟩ := exists_entry_of_at?_cons h
      have hbelow : (outer ++ [name]) ++ rest ∈ inner.directoriesBelow (outer ++ [name]) := ih hrest
      rw [List.append_assoc, List.singleton_append] at hbelow
      rw [directoriesBelow]
      exact List.mem_cons_of_mem _ (mem_directoriesAmong (mem_of_lookup hinner) hbelow)

end Tree

namespace Fragment.Search

/-! ### What is below a place -/

section

variable {α : Type} {fs : FileSystem} {inside : List Location} {here there : Location} {name : String}

/-- An entry is a link, and following it gives that. -/
def Links (root : Tree) (here : Location) (name : String) (result : Except SystemError Location) : Prop :=
  ∃ target, root.at? (here ++ [name]) = some (.link target) ∧
    FileSystem.follow root false FileSystem.greatestLinks (FileSystem.start here target) (FileSystem.steps target) =
      result

/-- An entry is a file, or a link that leads to one. -/
inductive IsFile (root : Tree) (here : Location) (name : String) : Location → Prop where
  | file {content : ByteArray} (h : root.at? (here ++ [name]) = some (.file content)) :
      IsFile root here name (here ++ [name])
  | link {there : Location} {content : ByteArray} (hlinks : Links root here name (.ok there))
      (hfile : root.at? there = some (.file content)) : IsFile root here name there

/-- An entry is a directory, or a link that leads to one that the walk is not in, and it may be listed. -/
inductive IsDirectory (fs : FileSystem) (inside : List Location) (here : Location) (name : String) :
    Location → Prop where
  | directory {entries : List (String × Tree)} (h : fs.root.at? (here ++ [name]) = some (.directory entries))
      (hopen : fs.isSealed (here ++ [name]) = false) : IsDirectory fs inside here name (here ++ [name])
  | link {there : Location} {entries : List (String × Tree)} (hlinks : Links fs.root here name (.ok there))
      (hdirectory : fs.root.at? there = some (.directory entries)) (hopen : fs.isSealed there = false)
      (hfresh : there ∉ inside) : IsDirectory fs inside here name there

/-- Why a walk fails at an entry, and whether it is told where that is. -/
structure Stop where
  isPlaced : Bool
  error : SystemError

/-- An entry is a link that cannot be followed, or a directory that may not be listed, or a link to such a directory.
In the last case there is no place to the failure. -/
inductive Halts (fs : FileSystem) (here : Location) (name : String) : Stop → Prop where
  | lost {error : SystemError} (hlinks : Links fs.root here name (.error error)) : Halts fs here name ⟨true, error⟩
  | shut {entries : List (String × Tree)} (h : fs.root.at? (here ++ [name]) = some (.directory entries))
      (hsealed : fs.isSealed (here ++ [name]) = true) : Halts fs here name ⟨true, .permissionDenied⟩
  | beyond {there : Location} {entries : List (String × Tree)} (hlinks : Links fs.root here name (.ok there))
      (hdirectory : fs.root.at? there = some (.directory entries)) (hsealed : fs.isSealed there = true) :
      Halts fs here name ⟨false, .permissionDenied⟩

/-- The names lead down directories to an entry that fits. -/
inductive Below (fs : FileSystem) (fits : Location → String → α → Prop) :
    List Location → Location → Location → α → Prop where
  | entry {inside : List Location} {here : Location} {name : String} {found : α} (hfits : fits here name found) :
      Below fs fits inside here [name] found
  | enter {inside : List Location} {here there names : Location} {name : String} {found : α}
      (henters : IsDirectory fs inside here name there)
      (hbelow : Below fs fits (there :: inside) there names found) :
      Below fs fits inside here (name :: names) found

variable {fits : Location → String → α → Prop} {names : Location} {found : α}

theorem below_cons_iff :
    Below fs fits inside here (name :: names) found ↔
      names = [] ∧ fits here name found ∨
        ∃ there, IsDirectory fs inside here name there ∧ Below fs fits (there :: inside) there names found := by
  constructor
  · intro h
    cases h with
    | entry hfits => exact .inl ⟨rfl, hfits⟩
    | enter henters hbelow => exact .inr ⟨_, henters, hbelow⟩
  · rintro (⟨rfl, hfits⟩ | ⟨there, henters, hbelow⟩)
    · exact .entry hfits
    · exact .enter henters hbelow

theorem Below.exists_cons (h : Below fs fits inside here names found) : ∃ name rest, names = name :: rest := by
  cases h with
  | entry hfits => exact ⟨_, _, rfl⟩
  | enter henters hbelow => exact ⟨_, _, rfl⟩

/-! Something stands under every name on the way. -/

theorem isSome_of_links {root : Tree} {result : Except SystemError Location} (h : Links root here name result) :
    (root.at? (here ++ [name])).isSome := by
  obtain ⟨target, hlink, -⟩ := h
  simp [hlink]

theorem isSome_of_isFile {root : Tree} (h : IsFile root here name there) : (root.at? (here ++ [name])).isSome := by
  cases h with
  | file h => simp [h]
  | link hlinks => exact isSome_of_links hlinks

theorem isSome_of_isDirectory (h : IsDirectory fs inside here name there) :
    (fs.root.at? (here ++ [name])).isSome := by
  cases h with
  | directory h => simp [h]
  | link hlinks => exact isSome_of_links hlinks

theorem isSome_of_halts {stop : Stop} (h : Halts fs here name stop) : (fs.root.at? (here ++ [name])).isSome := by
  cases h with
  | lost hlinks => exact isSome_of_links hlinks
  | shut h => simp [h]
  | beyond hlinks => exact isSome_of_links hlinks

theorem Below.isSome (h : Below fs fits inside here (name :: names) found)
    (hfits : ∀ {here name found}, fits here name found → (fs.root.at? (here ++ [name])).isSome) :
    (fs.root.at? (here ++ [name])).isSome := by
  cases h with
  | entry hentry => exact hfits hentry
  | enter henters => exact isSome_of_isDirectory henters

theorem Below.mem_entries {entries : List (String × Tree)} (h : Below fs fits inside here (name :: names) found)
    (hfits : ∀ {here name found}, fits here name found → (fs.root.at? (here ++ [name])).isSome)
    (hdirectory : fs.root.at? here = some (.directory entries)) : name ∈ entries.map Prod.fst := by
  obtain ⟨node, hnode⟩ := Option.isSome_iff_exists.1 (h.isSome hfits)
  rw [Tree.at?_append_name hdirectory] at hnode
  exact List.mem_map_of_mem (f := Prod.fst) (Tree.mem_of_lookup hnode)

/-- The names on the way are names of entries. -/
theorem Below.isEntryName (h : Below fs fits inside here names found) (hnamed : fs.root.WellNamed)
    (hfits : ∀ {here name found}, fits here name found → (fs.root.at? (here ++ [name])).isSome) :
    ∀ name ∈ names, FileSystem.IsEntryName name := by
  have hname : ∀ {here name}, (fs.root.at? (here ++ [name])).isSome → FileSystem.IsEntryName name := by
    intro here name hsome
    obtain ⟨node, hnode⟩ := Option.isSome_iff_exists.1 hsome
    exact hnamed.isEntryName_of_at? hnode
  induction h with
  | entry hentry =>
      rintro other hother
      rw [List.mem_singleton.1 hother]
      exact hname (hfits hentry)
  | enter henters _ ih =>
      rintro other hother
      rcases List.mem_cons.1 hother with rfl | hother
      · exact hname (isSome_of_isDirectory henters)
      · exact ih other hother

/-- The names lead a walk to a file, which stands somewhere in the tree. -/
abbrev Finds (fs : FileSystem) : List Location → Location → Location → Location → Prop :=
  Below fs (IsFile fs.root)

/-- The names lead a walk to an entry at which it fails. -/
abbrev Stops (fs : FileSystem) : List Location → Location → Location → Stop → Prop :=
  Below fs (Halts fs)

/-- Nothing is in the way where there are no links and all directories may be listed. -/
theorem not_stops {stop : Stop} (hlinkless : fs.root.Everywhere fun node => ∀ target, node ≠ .link target)
    (hopen : ∀ location, fs.isSealed location = false) : ¬ Stops fs inside here names stop := by
  intro h
  induction h with
  | @entry _ here name _ hhalts =>
      have hnone : ∀ {result}, ¬ Links fs.root here name result := by
        rintro result ⟨target, hlink, -⟩
        exact hlinkless _ _ hlink target rfl
      cases hhalts with
      | lost hlinks => exact hnone hlinks
      | shut _ hsealed => exact Bool.false_ne_true ((hopen _).symm.trans hsealed)
      | beyond hlinks => exact hnone hlinks
  | enter _ _ ih => exact ih

/-- A file is come to by at least one name, and all are names of entries. -/
theorem Below.named (h : Finds fs inside here names there) (hnamed : fs.root.WellNamed) :
    names ≠ [] ∧ ∀ name ∈ names, FileSystem.IsEntryName name := by
  obtain ⟨name, rest, rfl⟩ := h.exists_cons
  exact ⟨List.cons_ne_nil name rest, h.isEntryName hnamed isSome_of_isFile⟩

end

/-! ### Entries that are links, and others -/

section

variable {fs : FileSystem} {root node : Tree} {inside : List Location} {here there : Location} {name target : String}
  {outcome result : Except SystemError Location} {stop : Stop}

theorem links_iff (hnode : root.at? (here ++ [name]) = some (.link target))
    (hleads : FileSystem.follow root false FileSystem.greatestLinks (FileSystem.start here target)
      (FileSystem.steps target) = outcome) : Links root here name result ↔ result = outcome := by
  constructor
  · rintro ⟨other, hother, hresult⟩
    cases hother.symm.trans hnode
    exact hresult.symm.trans hleads
  · rintro rfl
    exact ⟨target, hnode, hleads⟩

theorem isFile_iff_of_link (hnode : root.at? (here ++ [name]) = some (.link target))
    (hlinks : ∀ result, Links root here name result ↔ result = outcome) :
    IsFile root here name there ↔ .ok there = outcome ∧ ∃ content, root.at? there = some (.file content) := by
  constructor
  · intro h
    cases h with
    | file h => cases h.symm.trans hnode
    | link h hfile => exact ⟨(hlinks _).1 h, _, hfile⟩
  · rintro ⟨h, content, hfile⟩
    exact .link ((hlinks _).2 h) hfile

theorem isDirectory_iff_of_link (hnode : fs.root.at? (here ++ [name]) = some (.link target))
    (hlinks : ∀ result, Links fs.root here name result ↔ result = outcome) :
    IsDirectory fs inside here name there ↔
      .ok there = outcome ∧ there ∉ inside ∧ fs.isSealed there = false ∧
        ∃ entries, fs.root.at? there = some (.directory entries) := by
  constructor
  · intro h
    cases h with
    | directory h => cases h.symm.trans hnode
    | link h hdirectory hopen hfresh => exact ⟨(hlinks _).1 h, hfresh, hopen, _, hdirectory⟩
  · rintro ⟨h, hfresh, hopen, entries, hdirectory⟩
    exact .link ((hlinks _).2 h) hdirectory hopen hfresh

theorem halts_iff_of_link (hnode : fs.root.at? (here ++ [name]) = some (.link target))
    (hlinks : ∀ result, Links fs.root here name result ↔ result = outcome) :
    Halts fs here name stop ↔
      (stop.isPlaced = true ∧ .error stop.error = outcome) ∨
        (stop = ⟨false, .permissionDenied⟩ ∧ ∃ there, .ok there = outcome ∧ fs.isSealed there = true ∧
          ∃ entries, fs.root.at? there = some (.directory entries)) := by
  constructor
  · intro h
    cases h with
    | lost h => exact .inl ⟨rfl, (hlinks _).1 h⟩
    | shut h => cases h.symm.trans hnode
    | beyond h hdirectory hsealed => exact .inr ⟨rfl, _, (hlinks _).1 h, hsealed, _, hdirectory⟩
  · obtain ⟨isPlaced, error⟩ := stop
    rintro (⟨rfl, h⟩ | ⟨heq, there, h, hsealed, entries, hdirectory⟩)
    · exact .lost ((hlinks _).2 h)
    · rw [heq]
      exact .beyond ((hlinks _).2 h) hdirectory hsealed

section

variable (hnode : root.at? (here ++ [name]) = some node) (hlink : ∀ target, node ≠ .link target)

include hnode hlink

theorem not_links : ¬ Links root here name result := by
  rintro ⟨target, h, -⟩
  exact hlink target (Option.some.inj (hnode.symm.trans h))

theorem isFile_iff : IsFile root here name there ↔ there = here ++ [name] ∧ ∃ content, node = .file content := by
  constructor
  · intro h
    cases h with
    | file h => exact ⟨rfl, _, Option.some.inj (hnode.symm.trans h)⟩
    | link h => exact absurd h (not_links hnode hlink)
  · rintro ⟨rfl, content, rfl⟩
    exact .file hnode

end

variable (hnode : fs.root.at? (here ++ [name]) = some node) (hlink : ∀ target, node ≠ .link target)

include hnode hlink

theorem isDirectory_iff :
    IsDirectory fs inside here name there ↔
      there = here ++ [name] ∧ fs.isSealed there = false ∧ ∃ entries, node = .directory entries := by
  constructor
  · intro h
    cases h with
    | directory h hopen => exact ⟨rfl, hopen, _, Option.some.inj (hnode.symm.trans h)⟩
    | link h => exact absurd h (not_links hnode hlink)
  · rintro ⟨rfl, hopen, entries, rfl⟩
    exact .directory hnode hopen

theorem halts_iff :
    Halts fs here name stop ↔
      stop = ⟨true, .permissionDenied⟩ ∧ fs.isSealed (here ++ [name]) = true ∧
        ∃ entries, node = .directory entries := by
  constructor
  · intro h
    cases h with
    | lost h => exact absurd h (not_links hnode hlink)
    | shut h hsealed => exact ⟨rfl, hsealed, _, Option.some.inj (hnode.symm.trans h)⟩
    | beyond h => exact absurd h (not_links hnode hlink)
  · rintro ⟨rfl, hsealed, entries, rfl⟩
    exact .shut hnode hsealed

end

/-! ### The bound on links -/

section

variable {root : Tree} {inside : List Location} {there : Location}

/-- The directories that a walk is not in. -/
def unseen (root : Tree) (inside : List Location) : List Location :=
  (root.directoriesBelow []).filter fun location => !inside.contains location

theorem unseen_cons (root : Tree) (inside : List Location) (there : Location) :
    unseen root (there :: inside) = (unseen root inside).filter (· ≠ there) := by
  simp [unseen, List.filter_filter]

theorem length_unseen_cons_le : (unseen root (there :: inside)).length ≤ (unseen root inside).length := by
  rw [unseen_cons]
  exact List.length_filter_le _ _

theorem length_unseen_cons_lt {entries : List (String × Tree)} (hdirectory : root.at? there = some (.directory entries))
    (hfresh : there ∉ inside) : (unseen root (there :: inside)).length < (unseen root inside).length := by
  rw [unseen_cons, List.length_filter_lt_length_iff_exists]
  have hmem : [] ++ there ∈ root.directoriesBelow [] := Tree.mem_directoriesBelow hdirectory
  exact ⟨there, List.mem_filter.2 ⟨hmem, by simpa using hfresh⟩, by simp⟩

theorem length_unseen_le (root : Tree) (inside : List Location) :
    (unseen root inside).length ≤ root.directoryCount := by
  rw [← Tree.length_directoriesBelow []]
  exact List.length_filter_le _ _

end

/-! ### What a walk lists -/

/-- The root of a walk counts as admitted. -/
def withRoot (admits : Location → Bool) (location : Location) : Bool :=
  location.isEmpty || admits location

namespace Stop

/-- The fault that is told of a failure there. -/
def fault (stop : Stop) (relative : Location) : Fault :=
  (if stop.isPlaced then some relative else none, stop.error)

/-- Does a failure there end a walk? Where it is told where it is, that has to be admitted, else the directory that the
entry is in. -/
def counts (admits : Location → Bool) (relative : Location) (stop : Stop) : Bool :=
  if stop.isPlaced then admits relative else withRoot admits relative.dropLast

end Stop

section

variable {α : Type} {fs : FileSystem} {fits : Location → String → α → Prop} {counts : Location → α → Bool}
  {place : Place} {name : String} {names relative : Location} {found : α}

/-- From a place, by way of one of the names, an entry that fits is come to, and it counts. -/
def Reaches (fs : FileSystem) (fits : Location → String → α → Prop) (counts : Location → α → Bool) (place : Place)
    (names relative : Location) (found : α) : Prop :=
  ∃ name ∈ names, ∃ rest, relative = place.relative ++ name :: rest ∧
    Below fs fits place.inside place.location (name :: rest) found ∧ counts relative found = true

/-- What is around something admitted is admitted. -/
def Closed (admits : Location → Bool) : Prop :=
  ∀ {outer location : Location}, outer <+: location → admits location = true → admits outer = true

@[simp] theorem not_reaches_nil : ¬ Reaches fs fits counts place [] relative found := by
  simp [Reaches]

theorem reaches_cons :
    Reaches fs fits counts place (name :: names) relative found ↔
      Reaches fs fits counts place [name] relative found ∨ Reaches fs fits counts place names relative found := by
  simp only [Reaches, List.mem_cons, List.not_mem_nil, or_false, or_and_right, exists_or]

/-- An entry that is no directory to enter is all that there is by way of its name. -/
theorem reaches_entry (h : ∀ there, ¬ IsDirectory fs place.inside place.location name there) :
    Reaches fs fits counts place [name] relative found ↔
      relative = place.relative ++ [name] ∧ fits place.location name found ∧ counts relative found = true := by
  constructor
  · rintro ⟨_, hname, rest, hrelative, hbelow, hcounts⟩
    obtain rfl := List.mem_singleton.1 hname
    rcases below_cons_iff.1 hbelow with ⟨rfl, hfits⟩ | ⟨there, henters, -⟩
    · exact ⟨hrelative, hfits, hcounts⟩
    · exact absurd henters (h there)
  · rintro ⟨hrelative, hfits, hcounts⟩
    exact ⟨name, List.mem_singleton_self name, [], hrelative, .entry hfits, hcounts⟩

/-- What comes by way of the name of a directory comes from the place that entering it leads to. -/
theorem reaches_enter {there : Location} {entries : List (String × Tree)}
    (henters : ∀ other, IsDirectory fs place.inside place.location name other ↔ other = there)
    (hdirectory : fs.root.at? there = some (.directory entries))
    (hnone : ∀ found, ¬ fits place.location name found)
    (hfits : ∀ {here name found}, fits here name found → (fs.root.at? (here ++ [name])).isSome) :
    Reaches fs fits counts place [name] relative found ↔
      Reaches fs fits counts (place.jump name there) (entries.map Prod.fst) relative found := by
  constructor
  · rintro ⟨_, hname, rest, rfl, hbelow, hcounts⟩
    obtain rfl := List.mem_singleton.1 hname
    rcases below_cons_iff.1 hbelow with ⟨-, hentry⟩ | ⟨other, hother, hrest⟩
    · exact absurd hentry (hnone found)
    obtain rfl := (henters other).1 hother
    obtain ⟨next, further, rfl⟩ := hrest.exists_cons
    refine ⟨next, hrest.mem_entries hfits hdirectory, further, ?_, hrest, hcounts⟩
    simp [Place.jump]
  · rintro ⟨next, -, further, rfl, hbelow, hcounts⟩
    refine ⟨name, List.mem_singleton_self name, next :: further, ?_, ?_, hcounts⟩
    · simp [Place.jump]
    · exact .enter ((henters there).2 rfl) hbelow

/-- Where a walk starts, all that is below is come to. -/
theorem reaches_top {admits : Location → Bool} {here : Location} {entries : List (String × Tree)}
    (hdirectory : fs.root.at? here = some (.directory entries))
    (hfits : ∀ {here name found}, fits here name found → (fs.root.at? (here ++ [name])).isSome) :
    Reaches fs fits counts ⟨admits, [here], here, []⟩ (entries.map Prod.fst) relative found ↔
      Below fs fits [here] here relative found ∧ counts relative found = true := by
  constructor
  · rintro ⟨name, -, rest, rfl, hbelow, hcounts⟩
    exact ⟨hbelow, hcounts⟩
  · rintro ⟨hbelow, hcounts⟩
    obtain ⟨name, rest, rfl⟩ := hbelow.exists_cons
    exact ⟨name, hbelow.mem_entries hfits hdirectory, rest, rfl, hbelow, hcounts⟩

end

/-- The files listed are the wanted ones, each of them once, and nothing is in the way; or the fault is something
that is in the way. -/
def Lists (wanted : Location → Prop) (blocked : Fault → Prop) : Except Fault (List Location) → Prop
  | .ok files =>
    files.Nodup ∧ (∀ relative, relative ∈ files ↔ wanted relative) ∧ ∀ fault, ¬ blocked fault
  | .error fault => blocked fault

section

variable {wanted also : Location → Prop} {blocked hindered : Fault → Prop}

theorem lists_nil (hwanted : ∀ relative, ¬ wanted relative) (hblocked : ∀ fault, ¬ blocked fault) :
    Lists wanted blocked (.ok []) :=
  ⟨List.nodup_nil, fun relative => by simp [hwanted relative], hblocked⟩

theorem lists_singleton {place : Location} (hwanted : ∀ relative, wanted relative ↔ relative = place)
    (hblocked : ∀ fault, ¬ blocked fault) : Lists wanted blocked (.ok [place]) :=
  ⟨List.nodup_singleton place, fun relative => by simp [hwanted relative], hblocked⟩

theorem Lists.congr {result : Except Fault (List Location)} (h : Lists also hindered result)
    (hwanted : ∀ relative, wanted relative ↔ also relative) (hblocked : ∀ fault, blocked fault ↔ hindered fault) :
    Lists wanted blocked result := by
  cases result with
  | error fault => exact (hblocked _).2 h
  | ok files =>
      obtain ⟨hnodup, hmem, hfree⟩ := h
      exact ⟨hnodup, fun relative => (hmem relative).trans (hwanted relative).symm,
        fun fault hb => hfree fault ((hblocked fault).1 hb)⟩

/-- Two lists one after the other, when nothing is wanted in both. -/
theorem Lists.append {files : List Location} {result : Except Fault (List Location)}
    (hfirst : Lists wanted blocked (.ok files)) (hsecond : Lists also hindered result)
    (hdisjoint : ∀ relative, wanted relative → ¬ also relative) :
    Lists (fun relative => wanted relative ∨ also relative) (fun fault => blocked fault ∨ hindered fault)
      (result.map (files ++ ·)) := by
  obtain ⟨hnodup, hmem, hfree⟩ := hfirst
  cases result with
  | error fault => exact .inr hsecond
  | ok more =>
      obtain ⟨hmore, hmemMore, hfreeMore⟩ := hsecond
      refine ⟨List.nodup_append.2 ⟨hnodup, hmore, ?_⟩, fun relative => ?_, fun fault => ?_⟩
      · rintro file hfile other hother rfl
        exact hdisjoint file ((hmem file).1 hfile) ((hmemMore file).1 hother)
      · rw [List.mem_append, hmem, hmemMore]
      · exact not_or.2 ⟨hfree fault, hfreeMore fault⟩

end

/-- From a place, by way of some names, a file that is admitted is come to. -/
def Wants (fs : FileSystem) (place : Place) (names relative : Location) : Prop :=
  ∃ file, Reaches fs (IsFile fs.root) (fun relative _ => place.admits relative) place names relative file

/-- From a place, by way of some names, an entry is come to at which the walk fails, with that fault. -/
def Blocks (fs : FileSystem) (place : Place) (names : Location) (fault : Fault) : Prop :=
  ∃ relative stop, Reaches fs (Halts fs) (Stop.counts place.admits) place names relative stop ∧
    fault = stop.fault relative

theorem blocks_cons {fs : FileSystem} {place : Place} {name : String} {names : Location} {fault : Fault} :
    Blocks fs place (name :: names) fault ↔ Blocks fs place [name] fault ∨ Blocks fs place names fault := by
  constructor
  · rintro ⟨relative, stop, hreaches, heq⟩
    exact (reaches_cons.1 hreaches).imp (⟨relative, stop, ·, heq⟩) (⟨relative, stop, ·, heq⟩)
  · rintro (⟨relative, stop, hreaches, heq⟩ | ⟨relative, stop, hreaches, heq⟩)
    · exact ⟨relative, stop, reaches_cons.2 (.inl hreaches), heq⟩
    · exact ⟨relative, stop, reaches_cons.2 (.inr hreaches), heq⟩

/-- A walk lists the files that can be come to from a place by way of some names, or reports why it fails. -/
abbrev Meets (fs : FileSystem) (place : Place) (names : List String) : Except Fault (List Location) → Prop :=
  Lists (Wants fs place names) (Blocks fs place names)

section

variable {fs : FileSystem} {place : Place} {name : String}

/-- Entering a directory is walking its entries from there. -/
theorem meets_enter {there : Location} {entries : List (String × Tree)} {result : Except Fault (List Location)}
    (henters : ∀ other, IsDirectory fs place.inside place.location name other ↔ other = there)
    (hdirectory : fs.root.at? there = some (.directory entries))
    (hfile : ∀ file, ¬ IsFile fs.root place.location name file)
    (hhalts : ∀ stop, ¬ Halts fs place.location name stop)
    (h : Meets fs (place.jump name there) (entries.map Prod.fst) result) : Meets fs place [name] result := by
  refine h.congr (fun relative => exists_congr fun file => ?_)
    fun fault => exists_congr fun relative => exists_congr fun stop => and_congr_left fun _ => ?_
  · exact reaches_enter henters hdirectory hfile isSome_of_isFile
  · exact reaches_enter henters hdirectory hhalts isSome_of_halts

/-- Nothing is listed for a name that is not admitted, unless it is that of a link to a directory that may not be
listed. -/
theorem meets_of_not_admits (hclosed : Closed place.admits) (h : place.admits (place.relative ++ [name]) = false)
    (hplaced : ∀ stop, Halts fs place.location name stop → stop.isPlaced = true) : Meets fs place [name] (.ok []) := by
  have hout : ∀ {rest}, place.admits (place.relative ++ name :: rest) = false := by
    intro rest
    rw [Bool.eq_false_iff] at h ⊢
    exact fun hadmits => h (hclosed ⟨rest, by simp⟩ hadmits)
  refine lists_nil ?_ ?_
  · rintro relative ⟨file, other, hname, rest, rfl, -, hadmits⟩
    rw [List.mem_singleton.1 hname] at hadmits
    exact Bool.false_ne_true (hout.symm.trans hadmits)
  · rintro fault ⟨relative, stop, ⟨other, hname, rest, rfl, hbelow, hcounts⟩, -⟩
    rw [List.mem_singleton.1 hname] at hbelow hcounts
    rw [Stop.counts] at hcounts
    split at hcounts
    · rw [hout] at hcounts
      cases hcounts
    · next hunplaced =>
        rcases below_cons_iff.1 hbelow with ⟨-, hhalts⟩ | ⟨there, -, hrest⟩
        · exact hunplaced (hplaced stop hhalts)
        · -- Further down, the directory that the entry is in is not admitted.
          obtain ⟨next, further, rfl⟩ := hrest.exists_cons
          have hlast : (place.relative ++ name :: next :: further).dropLast =
              place.relative ++ name :: (next :: further).dropLast := by
            rw [List.dropLast_append_of_ne_nil (List.cons_ne_nil _ _), List.dropLast_cons_of_ne_nil (by simp)]
          rw [hlast, withRoot, hout] at hcounts
          simp at hcounts

/-- An entry at which the walk neither goes on nor fails is listed if it is a file. -/
theorem meets_entry {there : Location} (hclosed : Closed place.admits)
    (henters : ∀ other, ¬ IsDirectory fs place.inside place.location name other)
    (hhalts : ∀ stop, ¬ Halts fs place.location name stop) (hfile : IsFile fs.root place.location name there) :
    Meets fs place [name]
      (.ok (if place.admits (place.relative ++ [name]) then [place.relative ++ [name]] else [])) := by
  split
  · next hadmits =>
      refine lists_singleton (fun relative => ?_) ?_
      · simp only [Wants, reaches_entry henters]
        constructor
        · rintro ⟨file, hrelative, -, -⟩
          exact hrelative
        · rintro rfl
          exact ⟨there, rfl, hfile, hadmits⟩
      · rintro fault ⟨relative, stop, hreaches, -⟩
        exact hhalts stop ((reaches_entry henters).1 hreaches).2.1
  · next hadmits =>
      exact meets_of_not_admits hclosed (Bool.eq_false_iff.2 hadmits) fun stop h => absurd h (hhalts stop)

/-- Nothing is listed for an entry that is neither a file nor a directory to enter. -/
theorem meets_nothing (henters : ∀ other, ¬ IsDirectory fs place.inside place.location name other)
    (hhalts : ∀ stop, ¬ Halts fs place.location name stop)
    (hfile : ∀ file, ¬ IsFile fs.root place.location name file) : Meets fs place [name] (.ok []) := by
  refine lists_nil ?_ ?_
  · rintro relative ⟨file, hreaches⟩
    exact hfile file ((reaches_entry henters).1 hreaches).2.1
  · rintro fault ⟨relative, stop, hreaches, -⟩
    exact hhalts stop ((reaches_entry henters).1 hreaches).2.1

/-- At an entry where the walk fails, it reports that. -/
theorem meets_halt {stop : Stop} (henters : ∀ other, ¬ IsDirectory fs place.inside place.location name other)
    (hhalts : Halts fs place.location name stop)
    (hcounts : stop.counts place.admits (place.relative ++ [name]) = true) :
    Meets fs place [name] (.error (stop.fault (place.relative ++ [name]))) :=
  ⟨_, stop, (reaches_entry henters).2 ⟨rfl, hhalts, hcounts⟩, rfl⟩

/-- A walk of some entries after a walk of one with another name. -/
theorem meets_cons {names : List String} {files : List Location} {result : Except Fault (List Location)}
    (hname : name ∉ names) (hfirst : Meets fs place [name] (.ok files)) (hresult : Meets fs place names result) :
    Meets fs place (name :: names) (result.map (files ++ ·)) := by
  refine (Lists.append hfirst hresult ?_).congr (fun relative => ?_) fun fault => ?_
  · rintro _ ⟨file, _, hone, rest, rfl, -, -⟩ ⟨_, other, hother, _, heq, -, -⟩
    obtain rfl := List.mem_singleton.1 hone
    rw [List.append_cancel_left_eq, List.cons.injEq] at heq
    exact hname (heq.1 ▸ hother)
  · exact (exists_congr fun _ => reaches_cons).trans exists_or
  · exact blocks_cons

end

section

variable {fs : FileSystem}

/-- What a walk makes of a link, given what it makes of a fresh directory that the link leads to. The directories that
the walk is not in bound the links to directories that it can still follow, so the bound on these is never felt. -/
theorem walkEntry_link_meets {links : Nat} {place : Place} {name target : String}
    (hclosed : Closed place.admits) (hentered : withRoot place.admits place.relative = true)
    (hlinks : (unseen fs.root place.inside).length ≤ links)
    (hnode : fs.root.at? (place.location ++ [name]) = some (.link target))
    (hinner : ∀ {left there entries}, links = left + 1 → fs.root.at? there = some (.directory entries) →
      there ∉ place.inside → place.admits (place.relative ++ [name]) = true →
        Meets fs (place.jump name there) (entries.map Prod.fst)
          (walkEntries fs left (place.jump name there) entries)) :
    Meets fs place [name] (walkEntry fs links place name (.link target)) := by
  rw [walkEntry]
  cases hleads : linkTarget fs.root place target with
  | error error =>
      have hlink : ∀ result, Links fs.root place.location name result ↔ result = .error error :=
        fun _ => links_iff hnode hleads
      have hhalts : ∀ stop, Halts fs place.location name stop ↔ _ := fun _ => halts_iff_of_link hnode hlink
      dsimp only
      split
      · next hadmits =>
          have hlost : Halts fs place.location name ⟨true, error⟩ := .lost ((hlink _).2 rfl)
          exact meets_halt (by simp [isDirectory_iff_of_link hnode hlink]) hlost hadmits
      · next hadmits =>
          exact meets_of_not_admits hclosed (Bool.eq_false_iff.2 hadmits) fun stop => by simp +contextual [hhalts]
  | ok there =>
      have hlink : ∀ result, Links fs.root place.location name result ↔ result = .ok there :=
        fun _ => links_iff hnode hleads
      have henters : ∀ other, IsDirectory fs place.inside place.location name other ↔ _ :=
        fun _ => isDirectory_iff_of_link hnode hlink
      have hhalts : ∀ stop, Halts fs place.location name stop ↔ _ := fun _ => halts_iff_of_link hnode hlink
      have hfiles : ∀ other, IsFile fs.root place.location name other ↔ _ := fun _ => isFile_iff_of_link hnode hlink
      dsimp only
      cases hthere : fs.root.at? there with
      | none => exact meets_nothing (by simp [henters, hthere]) (by simp [hhalts, hthere]) (by simp [hfiles, hthere])
      | some node =>
          cases node with
          | file content =>
              have hfile := (hfiles there).2 ⟨rfl, content, hthere⟩
              exact meets_entry hclosed (by simp [henters, hthere]) (by simp [hhalts, hthere]) hfile
          | link further =>
              exact meets_nothing (by simp [henters, hthere]) (by simp [hhalts, hthere]) (by simp [hfiles, hthere])
          | directory entries =>
              have hfile : ∀ other, ¬ IsFile fs.root place.location name other := by simp [hfiles, hthere]
              cases hsealed : fs.isSealed there with
              | true =>
                  have hhalt : Halts fs place.location name ⟨false, .permissionDenied⟩ :=
                    .beyond ((hlink _).2 rfl) hthere hsealed
                  have hcounts : Stop.counts place.admits (place.relative ++ [name]) ⟨false, .permissionDenied⟩ =
                      true := by
                    simpa [Stop.counts] using hentered
                  simpa [hsealed, Stop.fault] using meets_halt (by simp [henters, hsealed]) hhalt hcounts
              | false =>
                  have hnone : ∀ stop, ¬ Halts fs place.location name stop := by simp [hhalts, hsealed]
                  by_cases hfresh : there ∈ place.inside
                  · -- The link leads back.
                    have hnothing : Meets fs place [name] (.ok []) :=
                      meets_nothing (by simp [henters, hfresh]) hnone hfile
                    cases links <;> simpa [hsealed, hfresh] using hnothing
                  · have hless := length_unseen_cons_lt hthere hfresh
                    obtain ⟨left, rfl⟩ := Nat.exists_eq_add_one_of_ne_zero (n := links) (by omega)
                    by_cases hadmits : place.admits (place.relative ++ [name]) = true
                    · have hmeets : Meets fs place [name] (walkEntries fs left (place.jump name there) entries) :=
                        meets_enter (by simp [henters, hfresh, hsealed, hthere]) hthere hfile hnone
                          (hinner rfl hthere hfresh hadmits)
                      simpa [hsealed, hfresh, hadmits] using hmeets
                    · have hnothing : Meets fs place [name] (.ok []) :=
                        meets_of_not_admits hclosed (Bool.eq_false_iff.2 hadmits) fun stop h => absurd h (hnone stop)
                      simpa [hsealed, hadmits] using hnothing

theorem withRoot_of_admits {admits : Location → Bool} {relative : Location} (h : admits relative = true) :
    withRoot admits relative = true := by
  rw [withRoot, h, Bool.or_true]

mutual

/-- What a walk makes of one entry. -/
theorem walkEntry_meets (hnamed : fs.root.WellNamed) (links : Nat) (place : Place) (name : String) (tree : Tree)
    (hclosed : Closed place.admits) (hentered : withRoot place.admits place.relative = true)
    (hlinks : (unseen fs.root place.inside).length ≤ links)
    (hnode : fs.root.at? (place.location ++ [name]) = some tree) :
    Meets fs place [name] (walkEntry fs links place name tree) := by
  match tree with
  | .file content =>
      rw [walkEntry]
      exact meets_entry hclosed (by simp [isDirectory_iff hnode nofun]) (by simp [halts_iff hnode nofun]) (.file hnode)
  | .directory entries =>
      rw [walkEntry]
      cases hadmits : place.admits (place.relative ++ [name]) with
      | false =>
          have hplaced : ∀ stop, Halts fs place.location name stop → stop.isPlaced = true := by
            intro stop h
            rw [((halts_iff hnode nofun).1 h).1]
          simpa [hadmits] using meets_of_not_admits hclosed hadmits hplaced
      | true =>
          cases hsealed : fs.isSealed (place.location ++ [name]) with
          | true =>
              have henters : ∀ other, ¬ IsDirectory fs place.inside place.location name other := by
                rintro other h
                obtain ⟨rfl, hopen, -⟩ := (isDirectory_iff hnode nofun).1 h
                exact Bool.false_ne_true (hopen.symm.trans hsealed)
              simpa [hadmits, hsealed, Stop.fault] using meets_halt henters (.shut hnode hsealed) hadmits
          | false =>
              have henters : ∀ other, IsDirectory fs place.inside place.location name other ↔
                  other = place.location ++ [name] := by
                intro other
                rw [isDirectory_iff hnode nofun]
                constructor
                · exact And.left
                · rintro rfl
                  exact ⟨rfl, hsealed, _, rfl⟩
              have hinner := walkEntries_meets hnamed links (place.enter name) entries hclosed
                (withRoot_of_admits hadmits) (Nat.le_trans length_unseen_cons_le hlinks) (hnamed.distinct hnode)
                (hnamed.at?_entry hnode)
              simpa [hadmits, hsealed] using meets_enter henters hnode (by simp [isFile_iff hnode nofun])
                (by simp [halts_iff hnode nofun, hsealed]) hinner
  | .link target =>
      refine walkEntry_link_meets hclosed hentered hlinks hnode ?_
      intro left there entries hleft hthere hfresh hadmits
      have hless : (unseen fs.root (there :: place.inside)).length < left + 1 :=
        Nat.lt_of_lt_of_le (length_unseen_cons_lt hthere hfresh) (hleft ▸ hlinks)
      exact walkEntries_meets hnamed left (place.jump name there) entries hclosed (withRoot_of_admits hadmits)
        (Nat.le_of_lt_succ hless) (hnamed.distinct hthere) (hnamed.at?_entry hthere)
termination_by (links, sizeOf tree)

/-- What a walk makes of the entries of a directory. -/
theorem walkEntries_meets (hnamed : fs.root.WellNamed) (links : Nat) (place : Place) (entries : List (String × Tree))
    (hclosed : Closed place.admits) (hentered : withRoot place.admits place.relative = true)
    (hlinks : (unseen fs.root place.inside).length ≤ links) (hdistinct : (entries.map Prod.fst).Nodup)
    (hentries : ∀ entry ∈ entries, fs.root.at? (place.location ++ [entry.1]) = some entry.2) :
    Meets fs place (entries.map Prod.fst) (walkEntries fs links place entries) := by
  match entries with
  | [] =>
      rw [walkEntries]
      exact lists_nil (fun _ => not_exists.2 fun _ => not_reaches_nil)
        fun _ ⟨_, _, hreaches, _⟩ => not_reaches_nil hreaches
  | (name, tree) :: rest =>
      rw [List.map_cons, List.nodup_cons] at hdistinct
      have hentry := walkEntry_meets hnamed links place name tree hclosed hentered hlinks
        (hentries _ List.mem_cons_self)
      have hrest := walkEntries_meets hnamed links place rest hclosed hentered hlinks hdistinct.2
        fun entry hmem => hentries entry (List.mem_cons_of_mem _ hmem)
      rw [walkEntries]
      cases hfirst : walkEntry fs links place name tree with
      | error fault =>
          rw [hfirst] at hentry
          exact blocks_cons.2 (.inl hentry)
      | ok files =>
          rw [hfirst] at hentry
          exact meets_cons hdistinct.1 hentry hrest
termination_by (links, sizeOf entries)

end

end

/-- The files at and below a path to a directory that may be listed. -/
theorem walk_lists {fs : FileSystem} {admits : Location → Bool} {path : Path} {here : Location}
    {entries : List (String × Tree)} (hnamed : fs.root.WellNamed) (hclosed : Closed admits)
    (hlocate : fs.locate path false = .ok here) (hdirectory : fs.root.at? here = some (.directory entries))
    (hopen : fs.isSealed here = false) :
    Lists (fun relative => (∃ file, Finds fs [here] here relative file) ∧ admits relative = true)
      (fun fault => ∃ relative stop, Stops fs [here] here relative stop ∧ stop.counts admits relative = true ∧
        fault = stop.fault relative)
      (walk fs admits path) := by
  have hmeets := walkEntries_meets hnamed fs.root.directoryCount ⟨admits, [here], here, []⟩ entries hclosed rfl
    (length_unseen_le fs.root [here]) (hnamed.distinct hdirectory) (hnamed.at?_entry hdirectory)
  rw [walk, hlocate]
  simp only [hdirectory, hopen]
  refine hmeets.congr (fun relative => ?_) fun fault => ?_
  · simp only [Wants, reaches_top hdirectory isSome_of_isFile, exists_and_right]
  · simp only [Blocks, reaches_top hdirectory isSome_of_halts, and_assoc]

end Fragment.Search

end Rulebook
