import Rulebook.Proofs.FileSystem.Agreement

/-!
# Changes elsewhere

If files change only where a search for a path does not look, it cannot tell the trees apart. This module provides:

* `Location.isWithin` — a location is one of some others, or below one of them;
* `Tree.SameOutside` — two trees that differ only at such locations, whatever has been added, removed or replaced
  there, and `FileSystem.SameOutside`, where the same may be listed elsewhere; and
* `FileSystem.follow_outside` and `FileSystem.not_within_of_leads` — a search that looks at none of the locations ends
  in the same way, and at none of them.
-/

namespace Rulebook

namespace Location

variable {changed : List Location} {outer location : Location}

/-- Is the location one of some others, or below one of them? -/
def isWithin (changed : List Location) (location : Location) : Bool :=
  changed.any fun place => place.isPrefixOf location

theorem isWithin_iff : isWithin changed location = true ↔ ∃ place ∈ changed, place <+: location := by
  simp [isWithin, List.any_eq_true, List.isPrefixOf_iff_prefix]

/-- What is around a location that has been left alone has been left alone. -/
theorem not_within_of_prefix (hbegins : outer <+: location) (h : isWithin changed location = false) :
    isWithin changed outer = false := by
  rw [Bool.eq_false_iff, ne_eq, isWithin_iff] at h ⊢
  rintro ⟨place, hplace, hbegin⟩
  exact h ⟨place, hplace, hbegin.trans hbegins⟩

end Location

namespace Tree

variable {changed : List Location} {location : Location} {before after : Tree}

/-- The names of the entries of a directory that have been left alone. -/
def namesLeft (changed : List Location) (location : Location) (entries : List (String × Tree)) : List String :=
  (entries.map Prod.fst).filter fun name => !Location.isWithin changed (location ++ [name])

/-- What a node is before and after a change elsewhere. A directory may have got entries and may have lost some, but
only where the change is; it lists the others as it did. -/
inductive Keeps (changed : List Location) (location : Location) : Option Tree → Option Tree → Prop where
  | nothing : Keeps changed location none none
  | file (content : ByteArray) : Keeps changed location (some (.file content)) (some (.file content))
  | link (target : String) : Keeps changed location (some (.link target)) (some (.link target))
  | directory {old new : List (String × Tree)}
      (hnames : namesLeft changed location new = namesLeft changed location old) :
      Keeps changed location (some (.directory old)) (some (.directory new))

/-- The trees differ only at some locations and below these. -/
def SameOutside (changed : List Location) (before after : Tree) : Prop :=
  ∀ location, Location.isWithin changed location = false →
    Keeps changed location (before.at? location) (after.at? location)

section

variable {old new : Option Tree}

theorem Keeps.alike (h : Keeps changed location old new) : Alike old new := by
  cases h with
  | nothing => exact .nothing
  | file content => exact .file content content
  | link target => exact .link target
  | directory => exact .directory _ _

theorem Keeps.eq_file {content : ByteArray} (h : Keeps changed location (some (.file content)) new) :
    new = some (.file content) := by
  cases h
  rfl

theorem Keeps.exists_directory {entries : List (String × Tree)}
    (h : Keeps changed location (some (.directory entries)) new) :
    ∃ others, new = some (.directory others) ∧
      namesLeft changed location others = namesLeft changed location entries := by
  cases h with
  | directory hnames => exact ⟨_, rfl, hnames⟩

theorem Keeps.refl (changed : List Location) (location : Location) (old : Option Tree) :
    Keeps changed location old old := by
  match old with
  | none => exact .nothing
  | some (.file content) => exact .file content
  | some (.link target) => exact .link target
  | some (.directory entries) => exact .directory rfl

end

end Tree

namespace FileSystem

variable {changed : List Location} {before after : Tree} {mayMiss : Bool} {links : Nat} {location place : Location}
  {names : List String}

/-- The files differ only at some locations and below these, in what is there and in what may be listed. -/
structure SameOutside (changed : List Location) (before after : FileSystem) : Prop where
  tree : before.root.SameOutside changed after.root
  isSealed {location : Location} :
    Location.isWithin changed location = false → after.isSealed location = before.isSealed location

/-- The search that looks at nothing that has changed ends as it did, be it at a place or with an error. -/
theorem follow_outside (h : before.SameOutside changed after) (hleft : Location.isWithin changed location = false)
    (hsees : ∀ seen, Sees before links location names seen → Location.isWithin changed seen = false) :
    follow after mayMiss links location names = follow before mayMiss links location names :=
  follow_congr Location.not_within_of_prefix (fun location hleft => (h location hleft).alike) hleft hsees

/-- The search that looks at nothing that has changed ends where nothing has changed. -/
theorem not_within_of_leads (h : Leads before mayMiss links location names place)
    (hleft : Location.isWithin changed location = false)
    (hsees : ∀ seen, Sees before links location names seen → Location.isWithin changed seen = false) :
    Location.isWithin changed place = false :=
  fits_of_leads Location.not_within_of_prefix h hleft hsees

end FileSystem

end Rulebook
