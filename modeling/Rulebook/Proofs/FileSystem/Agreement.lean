import Rulebook.Proofs.FileSystem.Places

/-!
# Searches that cannot tell trees apart

A search for a path looks at one location after the other. All it asks is whether there is nothing, a file, a directory,
or a link, and where that leads. This module provides:

* `Tree.Alike` — nodes that a search cannot tell apart;
* `FileSystem.Sees` — the locations that a search looks at;
* `FileSystem.follow_congr` — a search that looks only where two trees are alike ends in the same way in both; and
* `FileSystem.fits_of_leads` — what holds of all locations that a search looks at holds of where it ends.
-/

namespace Rulebook

namespace Tree

/-- What a search for a path cannot tell apart. -/
inductive Alike : Option Tree → Option Tree → Prop where
  | nothing : Alike none none
  | file (content other : ByteArray) : Alike (some (.file content)) (some (.file other))
  | link (target : String) : Alike (some (.link target)) (some (.link target))
  | directory (entries others : List (String × Tree)) : Alike (some (.directory entries)) (some (.directory others))

section

variable {old new : Option Tree} {node : Tree}

theorem Alike.eq_none (h : Alike none new) : new = none := by
  cases h
  rfl

theorem Alike.eq_link {target : String} (h : Alike (some (.link target)) new) : new = some (.link target) := by
  cases h
  rfl

theorem Alike.exists_directory {entries : List (String × Tree)} (h : Alike (some (.directory entries)) new) :
    ∃ others, new = some (.directory others) := by
  cases h
  exact ⟨_, rfl⟩

/-- What is there and is no link is there and no link. -/
theorem Alike.exists_node (h : Alike (some node) new) (hlink : ∀ target, node ≠ .link target) :
    ∃ other, new = some other ∧ ∀ target, other ≠ .link target := by
  cases h with
  | link target => exact absurd rfl (hlink target)
  | _ => exact ⟨_, rfl, nofun⟩

/-- Where there is no directory, there is none. -/
theorem Alike.no_entries (h : Alike old new) (hnone : old.bind entries? = none) : new.bind entries? = none := by
  cases h with
  | directory => cases hnone
  | _ => rfl

end

end Tree

namespace FileSystem

/-- A search for steps from a location looks at another location: it asks what a directory has under a name, and goes
on from there. -/
inductive Sees (root : Tree) : Nat → Location → List String → Location → Prop where
  | asks {links : Nat} {location : Location} {step : String} {rest : List String} {entries : List (String × Tree)}
      (hdirectory : root.at? location = some (.directory entries)) (hname : IsName step) :
      Sees root links location (step :: rest) (location ++ [step])
  | here {links : Nat} {location seen : Location} {rest : List String} {entries : List (String × Tree)}
      (hdirectory : root.at? location = some (.directory entries)) (hrest : Sees root links location rest seen) :
      Sees root links location ("." :: rest) seen
  | up {links : Nat} {location seen : Location} {rest : List String} {entries : List (String × Tree)}
      (hdirectory : root.at? location = some (.directory entries))
      (hrest : Sees root links location.dropLast rest seen) : Sees root links location (".." :: rest) seen
  | link {links : Nat} {location seen : Location} {step target : String} {rest : List String}
      {entries : List (String × Tree)} (hdirectory : root.at? location = some (.directory entries))
      (hname : IsName step) (hlink : root.at? (location ++ [step]) = some (.link target))
      (hrest : Sees root links (start location target) (steps target ++ rest) seen) :
      Sees root (links + 1) location (step :: rest) seen
  | enter {links : Nat} {location seen : Location} {step : String} {rest : List String} {node : Tree}
      {entries : List (String × Tree)} (hdirectory : root.at? location = some (.directory entries))
      (hname : IsName step) (hnode : root.at? (location ++ [step]) = some node)
      (hlink : ∀ target, node ≠ .link target) (hrest : Sees root links (location ++ [step]) rest seen) :
      Sees root links location (step :: rest) seen

section

variable {fits : Location → Prop} (hclosed : ∀ {outer inner : Location}, outer <+: inner → fits inner → fits outer)
  {before after : Tree} {mayMiss : Bool} {links : Nat} {location place : Location} {names : List String}

include hclosed

/-- The place that a link is read from fits if the place of the link does. -/
theorem fits_start (h : fits location) (target : String) : fits (start location target) := by
  rw [start]
  split
  · exact hclosed List.nil_prefix h
  · exact h

/-- A search that looks only where the trees are alike ends in the same way in both, be it at a place or with an
error. -/
theorem follow_congr (halike : ∀ location, fits location → Tree.Alike (before.at? location) (after.at? location))
    (hfits : fits location) (hsees : ∀ seen, Sees before links location names seen → fits seen) :
    follow after mayMiss links location names = follow before mayMiss links location names := by
  -- One case for each way in which the search can go on or end.
  fun_induction follow before mayMiss links location names with
  | case1 links location => rw [follow]
  | case2 links location step rest hnone => simp only [follow, (halike location hfits).no_entries hnone]
  | case3 links location rest entries hentries ih =>
      have hdirectory := directory_of_entries? hentries
      obtain ⟨others, hothers⟩ := (hdirectory ▸ halike location hfits).exists_directory
      rw [follow_here hothers]
      exact ih hfits fun seen hseen => hsees seen (.here hdirectory hseen)
  | case4 links location rest entries hentries _ ih =>
      have hdirectory := directory_of_entries? hentries
      obtain ⟨others, hothers⟩ := (hdirectory ▸ halike location hfits).exists_directory
      rw [follow_up hothers]
      exact ih (hclosed (List.dropLast_prefix _) hfits) fun seen hseen => hsees seen (.up hdirectory hseen)
  | case5 links location step rest entries hentries hhere hup hsize =>
      obtain ⟨others, hothers⟩ := (directory_of_entries? hentries ▸ halike location hfits).exists_directory
      simp [follow, hothers, Tree.entries?, hhere, hup, hsize]
  | case6 links location step rest entries hentries hhere hup hsize hlookup hmiss =>
      have hdirectory := directory_of_entries? hentries
      have hname : IsName step := ⟨hhere, hup, Nat.le_of_not_lt hsize⟩
      obtain ⟨others, hothers⟩ := (hdirectory ▸ halike location hfits).exists_directory
      have hnone := (Tree.at?_append_name hdirectory step).trans hlookup
      have hseen := hsees _ (.asks hdirectory hname)
      rw [follow_missing hothers hname (hnone ▸ halike _ hseen).eq_none, if_pos hmiss]
  | case7 links location step rest entries hentries hhere hup hsize hlookup hmiss =>
      have hdirectory := directory_of_entries? hentries
      have hname : IsName step := ⟨hhere, hup, Nat.le_of_not_lt hsize⟩
      obtain ⟨others, hothers⟩ := (hdirectory ▸ halike location hfits).exists_directory
      have hnone := (Tree.at?_append_name hdirectory step).trans hlookup
      have hseen := hsees _ (.asks hdirectory hname)
      rw [follow_missing hothers hname (hnone ▸ halike _ hseen).eq_none, if_neg hmiss]
  | case8 location step rest entries hentries hhere hup hsize target hlookup =>
      have hdirectory := directory_of_entries? hentries
      have hname : IsName step := ⟨hhere, hup, Nat.le_of_not_lt hsize⟩
      obtain ⟨others, hothers⟩ := (hdirectory ▸ halike location hfits).exists_directory
      have hlink := (Tree.at?_append_name hdirectory step).trans hlookup
      have hlink' := (hlink ▸ halike _ (hsees _ (.asks hdirectory hname))).eq_link
      rw [Tree.at?_append_name hothers] at hlink'
      simp [follow, hothers, Tree.entries?, hhere, hup, hsize, hlink']
  | case9 location step rest entries hentries hhere hup hsize target hlookup links ih =>
      have hdirectory := directory_of_entries? hentries
      have hname : IsName step := ⟨hhere, hup, Nat.le_of_not_lt hsize⟩
      obtain ⟨others, hothers⟩ := (hdirectory ▸ halike location hfits).exists_directory
      have hlink := (Tree.at?_append_name hdirectory step).trans hlookup
      have hlink' := (hlink ▸ halike _ (hsees _ (.asks hdirectory hname))).eq_link
      rw [follow_link hothers hname hlink']
      exact ih (fits_start hclosed hfits target) fun seen hseen => hsees seen (.link hdirectory hname hlink hseen)
  | case10 links location step rest entries hentries hhere hup hsize node hlink hlookup ih =>
      have hdirectory := directory_of_entries? hentries
      have hname : IsName step := ⟨hhere, hup, Nat.le_of_not_lt hsize⟩
      obtain ⟨others, hothers⟩ := (hdirectory ▸ halike location hfits).exists_directory
      have hnode := (Tree.at?_append_name hdirectory step).trans hlookup
      have hseen := hsees _ (.asks hdirectory hname)
      have hno : ∀ target, node ≠ .link target := fun target heq => hlink target heq
      obtain ⟨other, hother, hother'⟩ := (hnode ▸ halike _ hseen).exists_node hno
      rw [follow_enter hothers hname hother hother']
      exact ih hseen fun seen hbelow => hsees seen (.enter hdirectory hname hnode hno hbelow)

/-- What holds of all locations that a search looks at holds of where it ends. -/
theorem fits_of_leads (h : Leads before mayMiss links location names place) (hfits : fits location)
    (hsees : ∀ seen, Sees before links location names seen → fits seen) : fits place := by
  induction h with
  | done => exact hfits
  | here hdirectory _ ih => exact ih hfits fun seen hseen => hsees seen (.here hdirectory hseen)
  | up hdirectory _ ih =>
      exact ih (hclosed (List.dropLast_prefix _) hfits) fun seen hseen => hsees seen (.up hdirectory hseen)
  | missing hdirectory hname => exact hsees _ (.asks hdirectory hname)
  | link hdirectory hname hlink _ ih =>
      exact ih (fits_start hclosed hfits _) fun seen hseen => hsees seen (.link hdirectory hname hlink hseen)
  | enter hdirectory hname hnode hlink _ ih =>
      exact ih (hsees _ (.asks hdirectory hname)) fun seen hseen =>
        hsees seen (.enter hdirectory hname hnode hlink hseen)

end

end FileSystem

end Rulebook
