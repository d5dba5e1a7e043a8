import Rulebook.FileSystem
import Rulebook.Proofs.FileSystem.Growth

/-!
# Where paths lead while files are written

The search for a path is a function that may fail in many ways. This module provides:

* `Leads` — how a search succeeds, step by step, and that the two agree (`follow_eq_ok_iff`);
* `Leads.grows` — a search that has succeeded keeps its result whatever files are written and directories made
  later, for no link ever changes;
* `Leads.append` and `Leads.split` — searches one after the other; and
* `Leads.standing` — what a search finds is a directory, or stands or may stand in one.
-/

namespace Rulebook

namespace FileSystem

variable {root before after : Tree} {mayMiss : Bool} {links : Nat} {location place : Location}
  {names : List String}

/-! ### The search as a relation -/

/-- Is the step the name of an entry? -/
structure IsName (step : String) : Prop where
  ne_here : step ≠ "."
  ne_up : step ≠ ".."
  size_le : step.utf8ByteSize ≤ longestName

/-- The steps lead from a location to a place, through at most so many links. -/
inductive Leads (root : Tree) (mayMiss : Bool) : Nat → Location → List String → Location → Prop where
  | done (links : Nat) (location : Location) : Leads root mayMiss links location [] location
  | here {links : Nat} {location place : Location} {rest : List String} {entries : List (String × Tree)}
      (hdirectory : root.at? location = some (.directory entries))
      (hrest : Leads root mayMiss links location rest place) :
      Leads root mayMiss links location ("." :: rest) place
  | up {links : Nat} {location place : Location} {rest : List String} {entries : List (String × Tree)}
      (hdirectory : root.at? location = some (.directory entries))
      (hrest : Leads root mayMiss links location.dropLast rest place) :
      Leads root mayMiss links location (".." :: rest) place
  | missing {links : Nat} {location : Location} {step : String} {entries : List (String × Tree)}
      (hdirectory : root.at? location = some (.directory entries)) (hname : IsName step)
      (hnone : root.at? (location ++ [step]) = none) (hmiss : mayMiss = true) :
      Leads root mayMiss links location [step] (location ++ [step])
  | link {links : Nat} {location place : Location} {step target : String} {rest : List String}
      {entries : List (String × Tree)} (hdirectory : root.at? location = some (.directory entries))
      (hname : IsName step) (hlink : root.at? (location ++ [step]) = some (.link target))
      (hrest : Leads root mayMiss links (start location target) (steps target ++ rest) place) :
      Leads root mayMiss (links + 1) location (step :: rest) place
  | enter {links : Nat} {location place : Location} {step : String} {rest : List String} {node : Tree}
      {entries : List (String × Tree)} (hdirectory : root.at? location = some (.directory entries))
      (hname : IsName step) (hnode : root.at? (location ++ [step]) = some node)
      (hlink : ∀ target, node ≠ .link target) (hrest : Leads root mayMiss links (location ++ [step]) rest place) :
      Leads root mayMiss links location (step :: rest) place

theorem directory_of_entries? {location : Location} {entries : List (String × Tree)}
    (h : (root.at? location).bind Tree.entries? = some entries) :
    root.at? location = some (.directory entries) := by
  obtain ⟨node, hnode, hentries⟩ := Option.bind_eq_some_iff.1 h
  cases node with
  | file content => cases hentries
  | link target => cases hentries
  | directory inner =>
      obtain rfl := Option.some.inj hentries
      exact hnode

theorem leads_of_follow (h : follow root mayMiss links location names = .ok place) :
    Leads root mayMiss links location names place := by
  fun_induction follow root mayMiss links location names with
  | case1 links location =>
      obtain rfl := Except.ok.inj h
      exact .done links location
  | case2 => cases h
  | case3 links location rest entries hentries ih => exact .here (directory_of_entries? hentries) (ih h)
  | case4 links location rest entries hentries _ ih => exact .up (directory_of_entries? hentries) (ih h)
  | case5 => cases h
  | case6 links location step rest entries hentries hhere hup hsize hlookup hmiss =>
      obtain rfl := Except.ok.inj h
      obtain ⟨hmay, hrest⟩ := Bool.and_eq_true_iff.1 hmiss
      obtain rfl := List.isEmpty_iff.1 hrest
      have hdirectory := directory_of_entries? hentries
      exact .missing hdirectory ⟨hhere, hup, Nat.le_of_not_lt hsize⟩
        ((Tree.at?_append_name hdirectory step).trans hlookup) hmay
  | case7 => cases h
  | case8 => cases h
  | case9 location step rest entries hentries hhere hup hsize target hlookup links ih =>
      have hdirectory := directory_of_entries? hentries
      exact .link hdirectory ⟨hhere, hup, Nat.le_of_not_lt hsize⟩
        ((Tree.at?_append_name hdirectory step).trans hlookup) (ih h)
  | case10 links location step rest entries hentries hhere hup hsize node hlink hlookup ih =>
      have hdirectory := directory_of_entries? hentries
      exact .enter hdirectory ⟨hhere, hup, Nat.le_of_not_lt hsize⟩
        ((Tree.at?_append_name hdirectory step).trans hlookup) hlink (ih h)

/-! ### One step of the search -/

section Step

variable {step : String} {rest : List String} {entries : List (String × Tree)}

theorem follow_here (hdirectory : root.at? location = some (.directory entries)) :
    follow root mayMiss links location ("." :: rest) = follow root mayMiss links location rest := by
  rw [follow, hdirectory]
  rfl

theorem follow_up (hdirectory : root.at? location = some (.directory entries)) :
    follow root mayMiss links location (".." :: rest) = follow root mayMiss links location.dropLast rest := by
  rw [follow, hdirectory]
  rfl

theorem follow_missing (hdirectory : root.at? location = some (.directory entries)) (hname : IsName step)
    (hnone : root.at? (location ++ [step]) = none) :
    follow root mayMiss links location (step :: rest) =
      if mayMiss && rest.isEmpty then .ok (location ++ [step]) else .error .notFound := by
  rw [Tree.at?_append_name hdirectory] at hnone
  rw [follow, hdirectory]
  simp [Tree.entries?, hname.ne_here, hname.ne_up, Nat.not_lt.2 hname.size_le, hnone]

theorem follow_link {target : String} (hdirectory : root.at? location = some (.directory entries))
    (hname : IsName step) (hlink : root.at? (location ++ [step]) = some (.link target)) :
    follow root mayMiss (links + 1) location (step :: rest) =
      follow root mayMiss links (start location target) (steps target ++ rest) := by
  rw [Tree.at?_append_name hdirectory] at hlink
  rw [follow, hdirectory]
  simp [Tree.entries?, hname.ne_here, hname.ne_up, Nat.not_lt.2 hname.size_le, hlink]

theorem follow_enter {node : Tree} (hdirectory : root.at? location = some (.directory entries))
    (hname : IsName step) (hnode : root.at? (location ++ [step]) = some node) (hlink : ∀ target, node ≠ .link target) :
    follow root mayMiss links location (step :: rest) = follow root mayMiss links (location ++ [step]) rest := by
  rw [Tree.at?_append_name hdirectory] at hnode
  rw [follow, hdirectory]
  -- Of the two cases in which something has the name, `hlink` leaves one.
  simp only [Option.bind_some, Tree.entries?, hname.ne_here, hname.ne_up, Nat.not_lt.2 hname.size_le, hnode, if_false]

end Step

theorem follow_of_leads (h : Leads root mayMiss links location names place) :
    follow root mayMiss links location names = .ok place := by
  induction h with
  | done links location => rw [follow]
  | here hdirectory _ ih => rw [follow_here hdirectory, ih]
  | up hdirectory _ ih => rw [follow_up hdirectory, ih]
  | missing hdirectory hname hnone hmiss =>
      rw [follow_missing hdirectory hname hnone, hmiss]
      rfl
  | link hdirectory hname hlink _ ih => rw [follow_link hdirectory hname hlink, ih]
  | enter hdirectory hname hnode hlink _ ih => rw [follow_enter hdirectory hname hnode hlink, ih]

theorem follow_eq_ok_iff :
    follow root mayMiss links location names = .ok place ↔ Leads root mayMiss links location names place :=
  ⟨leads_of_follow, follow_of_leads⟩

/-! ### Growing trees -/

/-- What has been found stays where it is. -/
theorem Leads.grows {making : Prop} {writing : Location → Prop} (h : Leads before mayMiss links location names place)
    (hgrows : Tree.Grows making writing before after) : Leads after mayMiss links location names place := by
  induction h with
  | done links location => exact .done links location
  | @here links location place rest entries hdirectory _ ih =>
      obtain ⟨entries', hdirectory⟩ := (hdirectory ▸ hgrows location).exists_directory
      exact .here hdirectory ih
  | @up links location place rest entries hdirectory _ ih =>
      obtain ⟨entries', hdirectory⟩ := (hdirectory ▸ hgrows location).exists_directory
      exact .up hdirectory ih
  | @missing links location step entries hdirectory hname hnone hmiss =>
      obtain ⟨entries', hdirectory⟩ := (hdirectory ▸ hgrows location).exists_directory
      cases hnode : after.at? (location ++ [step]) with
      | none => exact .missing hdirectory hname hnode hmiss
      | some node =>
          -- Something may stand there now, but no link.
          refine .enter hdirectory hname hnode ?_ (.done _ _)
          rintro target rfl
          have hlink := (hgrows (location ++ [step])).link_iff.1 hnode
          rw [hnone] at hlink
          cases hlink
  | @link links location place step target rest entries hdirectory hname hlink _ ih =>
      obtain ⟨entries', hdirectory⟩ := (hdirectory ▸ hgrows location).exists_directory
      exact .link hdirectory hname ((hgrows (location ++ [step])).link_iff.2 hlink) ih
  | @enter links location place step rest node entries hdirectory hname hnode hlink _ ih =>
      obtain ⟨entries', hdirectory⟩ := (hdirectory ▸ hgrows location).exists_directory
      have hchanges := hgrows (location ++ [step])
      obtain ⟨node', hnode'⟩ := (hnode ▸ hchanges).exists_node
      refine .enter hdirectory hname hnode' ?_ ih
      rintro target rfl
      exact hlink target (Option.some.inj (hnode.symm.trans (hchanges.link_iff.1 hnode')))

/-! ### Searches one after the other -/

/-- A search goes on where another one ended. -/
theorem Leads.append {outer : List String} {middle : Location} (h : Leads root false links location outer middle)
    (hrest : ∀ links, Leads root mayMiss links middle names place) :
    Leads root mayMiss links location (outer ++ names) place := by
  induction h with
  | done links location => exact hrest links
  | here hdirectory _ ih => exact .here hdirectory (ih hrest)
  | up hdirectory _ ih => exact .up hdirectory (ih hrest)
  | missing _ _ _ hmiss => cases hmiss
  | link hdirectory hname hlink _ ih => exact .link hdirectory hname hlink (List.append_assoc _ _ _ ▸ ih hrest)
  | enter hdirectory hname hnode hlink _ ih => exact .enter hdirectory hname hnode hlink (ih hrest)

/-- The last step of a search is taken where the steps before it lead. -/
theorem Leads.split {outer : List String} {name : String}
    (h : Leads root mayMiss links location (outer ++ [name]) place) :
    ∃ middle remaining, Leads root false links location outer middle ∧
      Leads root mayMiss remaining middle [name] place := by
  generalize hnames : outer ++ [name] = names at h
  induction h generalizing outer with
  | done links location => simp at hnames
  | @here links location place rest entries hdirectory hrest ih =>
      rcases List.append_eq_cons_iff.1 hnames with ⟨rfl, hlast⟩ | ⟨outer, rfl, hrest'⟩
      · obtain ⟨rfl, rfl⟩ := List.cons.inj hlast
        exact ⟨location, links, .done _ _, .here hdirectory hrest⟩
      · obtain ⟨middle, remaining, hmiddle, hlast⟩ := ih hrest'.symm
        exact ⟨middle, remaining, .here hdirectory hmiddle, hlast⟩
  | @up links location place rest entries hdirectory hrest ih =>
      rcases List.append_eq_cons_iff.1 hnames with ⟨rfl, hlast⟩ | ⟨outer, rfl, hrest'⟩
      · obtain ⟨rfl, rfl⟩ := List.cons.inj hlast
        exact ⟨location, links, .done _ _, .up hdirectory hrest⟩
      · obtain ⟨middle, remaining, hmiddle, hlast⟩ := ih hrest'.symm
        exact ⟨middle, remaining, .up hdirectory hmiddle, hlast⟩
  | @missing links location step entries hdirectory hname hnone hmiss =>
      rcases List.append_eq_cons_iff.1 hnames with ⟨rfl, hlast⟩ | ⟨outer, rfl, hrest'⟩
      · obtain ⟨rfl, -⟩ := List.cons.inj hlast
        exact ⟨location, links, .done _ _, .missing hdirectory hname hnone hmiss⟩
      · simp at hrest'
  | @link links location place step target rest entries hdirectory hname hlink hrest ih =>
      rcases List.append_eq_cons_iff.1 hnames with ⟨rfl, hlast⟩ | ⟨outer, rfl, rfl⟩
      · obtain ⟨rfl, rfl⟩ := List.cons.inj hlast
        exact ⟨location, links + 1, .done _ _, .link hdirectory hname hlink hrest⟩
      · obtain ⟨middle, remaining, hmiddle, hlast⟩ := ih (List.append_assoc _ _ _)
        exact ⟨middle, remaining, .link hdirectory hname hlink hmiddle, hlast⟩
  | @enter links location place step rest node entries hdirectory hname hnode hlink hrest ih =>
      rcases List.append_eq_cons_iff.1 hnames with ⟨rfl, hlast⟩ | ⟨outer, rfl, hrest'⟩
      · obtain ⟨rfl, rfl⟩ := List.cons.inj hlast
        exact ⟨location, links, .done _ _, .enter hdirectory hname hnode hlink hrest⟩
      · obtain ⟨middle, remaining, hmiddle, hlast⟩ := ih hrest'.symm
        exact ⟨middle, remaining, .enter hdirectory hname hnode hlink hmiddle, hlast⟩

/-! ### Places -/

/-- A search that may not end at a missing place ends where one does that may. -/
theorem Leads.missable (h : Leads root false links location names place) :
    Leads root true links location names place := by
  induction h with
  | done links location => exact .done links location
  | here hdirectory _ ih => exact .here hdirectory ih
  | up hdirectory _ ih => exact .up hdirectory ih
  | missing _ _ _ hmiss => cases hmiss
  | link hdirectory hname hlink _ ih => exact .link hdirectory hname hlink ih
  | enter hdirectory hname hnode hlink _ ih => exact .enter hdirectory hname hnode hlink ih

/-- If there is something at the place, the search need not miss it. -/
theorem Leads.present {node : Tree} (h : Leads root mayMiss links location names place)
    (hnode : root.at? place = some node) : Leads root false links location names place := by
  induction h with
  | done links location => exact .done links location
  | here hdirectory _ ih => exact .here hdirectory (ih hnode)
  | up hdirectory _ ih => exact .up hdirectory (ih hnode)
  | missing _ _ hnone _ =>
      rw [hnone] at hnode
      cases hnode
  | link hdirectory hname hlink _ ih => exact .link hdirectory hname hlink (ih hnode)
  | enter hdirectory hname hnode' hlink _ ih => exact .enter hdirectory hname hnode' hlink (ih hnode)

/-- If there is nothing at the place, a search that may not miss it ends there or finds nothing. -/
theorem Leads.absent (h : Leads root true links location names place) (hnone : root.at? place = none) :
    follow root false links location names = .ok place ∨ follow root false links location names = .error .notFound := by
  induction h with
  | done links location => exact .inl (by rw [follow])
  | here hdirectory _ ih =>
      rw [follow_here hdirectory]
      exact ih hnone
  | up hdirectory _ ih =>
      rw [follow_up hdirectory]
      exact ih hnone
  | missing hdirectory hname hfree _ => exact .inr (follow_missing hdirectory hname hfree)
  | link hdirectory hname hlink _ ih =>
      rw [follow_link hdirectory hname hlink]
      exact ih hnone
  | enter hdirectory hname hnode hlink _ ih =>
      rw [follow_enter hdirectory hname hnode hlink]
      exact ih hnone

/-- A place where a file can stand or stands: a directory, or a name in a directory that is no link. -/
inductive Standing (root : Tree) : Location → Prop where
  | directory {place : Location} {entries : List (String × Tree)}
      (hdirectory : root.at? place = some (.directory entries)) : Standing root place
  | entry {outer : Location} {name : String} {entries : List (String × Tree)}
      (houter : root.at? outer = some (.directory entries))
      (hlink : ∀ target, root.at? (outer ++ [name]) ≠ some (.link target)) : Standing root (outer ++ [name])

/-- The directory around a directory is one. -/
theorem Standing.dropLast {location : Location} {entries : List (String × Tree)}
    (h : root.at? location = some (.directory entries)) : Standing root location.dropLast := by
  rcases location.eq_nil_or_concat with rfl | ⟨outer, name, rfl⟩
  · exact .directory h
  · rw [List.concat_eq_append] at h ⊢
    rw [List.dropLast_concat]
    obtain ⟨around, haround⟩ := Tree.at?_outer (List.cons_ne_nil _ _) h
    exact .directory haround

/-- Where a link starts from is a directory if the link stands in one. -/
theorem Standing.start {location : Location} {entries : List (String × Tree)}
    (h : root.at? location = some (.directory entries)) (target : String) :
    Standing root (FileSystem.start location target) := by
  rw [FileSystem.start]
  split
  · cases location with
    | nil => exact .directory h
    | cons name rest =>
        rw [← List.nil_append (name :: rest)] at h
        obtain ⟨around, haround⟩ := Tree.at?_outer (List.cons_ne_nil name rest) h
        exact .directory haround
  · exact .directory h

theorem Leads.standing (h : Leads root mayMiss links location names place)
    (hstart : names ≠ [] ∨ Standing root location) : Standing root place := by
  induction h with
  | done links location => exact hstart.resolve_left fun hne => hne rfl
  | here hdirectory _ ih => exact ih (.inr (.directory hdirectory))
  | up hdirectory _ ih => exact ih (.inr (.dropLast hdirectory))
  | missing hdirectory _ hnone _ => exact .entry hdirectory (by simp [hnone])
  | link hdirectory _ _ _ ih => exact ih (.inr (.start hdirectory _))
  | enter hdirectory _ hnode hlink _ ih => exact ih (.inr (.entry hdirectory (by simpa [hnode] using hlink)))

end FileSystem

end Rulebook
